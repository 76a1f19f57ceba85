import ScriptCompletion.Keyed
import ScriptCompletion.Toml.Scalar

namespace ScriptCompletion.Toml

/-!
# TOML documents

A document is read as a list of sections, each a header with assignments, and
the sections are put into one table.  A key is never assigned twice, a table
never has two headers, and what stands between braces is complete.
-/

/-- How many arrays and tables in braces may stand inside each other, and how
many parts a key may have. -/
def maxNesting : Nat :=
  79

/-- A key that is not too deep. -/
def path : Reader (List String) := fun characters => do
  let (parts, rest) ← key characters
  if parts.length ≤ maxNesting then
    return (parts, rest)
  else
    none

/-- Put an entry under its key. -/
def putEntry
    (key : String)
    (value : Value)
    (entries : Entries) : Entries :=
  Keyed.put Prod.fst (key, value) entries

/-- Change the table at the end of a path.  Tables that are missing on the way
get the given origin.  `change` is told how the table came about. -/
def changeAt
    (added : Origin)
    (change : Origin → Entries → Option Entries)
    (origin : Origin)
    (path : List String)
    (entries : Entries) : Option Entries :=
  match path with
  | [] =>
      change origin entries
  | key :: path =>
      match entries.lookup key with
      | none => do
          let inner ← changeAt added change added path []
          return putEntry key (.table added inner) entries
      | some (.table found inner) =>
          if found = .inline || (added = .dotted && found = .header) then
            none
          else do
            let inner ← changeAt added change found path inner
            return putEntry key (.table found inner) entries
      | some (.tables items) =>
          match items.getLast? with
          | none =>
              none
          | some inner => do
              let inner ← changeAt added change .header path inner
              return putEntry key (.tables (items.dropLast ++ [inner])) entries
      | some _ =>
          none

/-- Assign a value to a key with dots.  The tables of a dotted key are extended
by dotted keys alone. -/
def assign
    (entries : Entries)
    (assignment : List String × Value) : Option Entries :=
  let (parts, value) := assignment
  match parts.getLast? with
  | none =>
      none
  | some key =>
      let path := parts.dropLast
      changeAt .dotted
        (fun origin inner =>
          if (origin == .dotted) == path.isEmpty then
            none
          else if (inner.lookup key).isSome then
            none
          else
            some (inner ++ [(key, value)]))
        .header path entries

/-- Assign several values one after another. -/
def assignAll
    (entries : Entries)
    (assignments : List (List String × Value)) : Option Entries :=
  assignments.foldlM assign entries

/-- Items with commas between them up to a closing character.  `blank` passes
over what may stand around them; a comma may stand in front of the closing
character if `trailing` allows it. -/
def separated
    {Item : Type}
    (blank : List Char → List Char)
    (closing : Char)
    (trailing : Bool)
    (item : Reader Item)
    (characters : List Char) : Option (List Item × List Char) := do
  let (first, rest) ← item (blank characters)
  match blank rest with
  | ',' :: after =>
      match blank after, trailing with
      | next :: beyond, true =>
          if next = closing then
            return ([first], beyond)
          else if after.length < characters.length then
            let (items, rest) ←
              separated blank closing trailing item after
            return (first :: items, rest)
          else
            none
      | _, _ =>
          if after.length < characters.length then
            let (items, rest) ←
              separated blank closing trailing item after
            return (first :: items, rest)
          else
            none
  | next :: beyond =>
      if next = closing then
        return ([first], beyond)
      else
        none
  | [] =>
      none
termination_by characters.length

/-- Items up to a closing character, possibly none. -/
def enclosed
    {Item : Type}
    (blank : List Char → List Char)
    (closing : Char)
    (trailing : Bool)
    (item : Reader Item) : Reader (List Item) := fun characters =>
  match blank characters with
  | next :: beyond =>
      if next = closing then
        some ([], beyond)
      else
        separated blank closing trailing item characters
  | [] =>
      none

/-- A key, an equals sign and a value. -/
def assignment (value : Reader Value) : Reader (List String × Value) :=
  fun characters => do
    let (parts, rest) ← path characters
    match rest with
    | '=' :: after =>
        let (assigned, rest) ← value (skipGap after)
        return ((parts, assigned), rest)
    | _ =>
        none

/-- A value in which at most so many arrays and tables stand inside each
other. -/
def value
    (depth : Nat)
    (characters : List Char) : Option (Value × List Char) :=
  match depth, characters with
  | 0, '[' :: _ | 0, '\x7b' :: _ =>
      none
  | depth + 1, '[' :: rest => do
      let (items, rest) ←
        enclosed skipBlank ']' true (value depth) rest
      return (.array items, rest)
  | depth + 1, '\x7b' :: rest => do
      let (assignments, rest) ←
        enclosed skipGap '\x7d' false (assignment (value depth)) rest
      return (.table .inline (← assignAll [] assignments), rest)
  | _, '"' :: _ | _, '\'' :: _ => do
      let (content, rest) ← string characters
      return (.text content, rest)
  | _, _ =>
      scalar characters

/-- What opens a section. -/
inductive Header where
  /-- The start of the document. -/
  | document
  /-- A path between single brackets. -/
  | table (path : List String)
  /-- A path between double brackets. -/
  | tables (path : List String)
deriving Repr, DecidableEq

/-- A header and the assignments below it, latest first. -/
structure Section where
  header : Header
  assignments : List (List String × Value)
deriving Repr

/-- What a line holds. -/
inductive Statement where
  | blank
  | header (header : Header)
  | assignment (parts : List String) (value : Value)
deriving Repr

/-- The rest of a header in single brackets. -/
def tableHeader : Reader Statement := fun characters => do
  let (path, rest) ← path characters
  match rest with
  | ']' :: rest =>
      return (.header (.table path), rest)
  | _ =>
      none

/-- The rest of a header in double brackets. -/
def tablesHeader : Reader Statement := fun characters => do
  let (path, rest) ← path characters
  match rest with
  | ']' :: ']' :: rest =>
      return (.header (.tables path), rest)
  | _ =>
      none

/-- A header, an assignment, or nothing. -/
def statement : Reader Statement := fun characters =>
  match characters with
  | '[' :: '[' :: rest =>
      tablesHeader rest
  | '[' :: rest =>
      tableHeader rest
  | [] =>
      some (.blank, [])
  | first :: _ =>
      if first = '#' || first = '\n' || first = '\r' then
        some (.blank, characters)
      else do
        let ((parts, assigned), rest) ← assignment (value maxNesting) characters
        return (.assignment parts assigned, rest)

/-- Add a statement to the sections, latest first, of which there is always
one. -/
def addStatement
    (current : Section)
    (earlier : List Section) : Statement → Section × List Section
  | .blank =>
      (current, earlier)
  | .header header =>
      (⟨header, []⟩, current :: earlier)
  | .assignment parts value =>
      ({ current with assignments := (parts, value) :: current.assignments },
        earlier)

/-- The sections of a document, latest first. -/
def sections
    (current : Section)
    (earlier : List Section)
    (characters : List Char) : Option (List Section) := do
  let (read, rest) ← statement (skipGap characters)
  let (current, earlier) := addStatement current earlier read
  match skipComment (skipGap rest) with
  | [] =>
      return current :: earlier
  | rest =>
      let after ← lineEnd? rest
      if after.length < characters.length then
        sections current earlier after
      else
        none
termination_by characters.length

/-- Put a table that has a header of its own under the last key of a path.  It
may complete a table that was only implied. -/
def addTable
    (key : String)
    (assignments : List (List String × Value))
    (entries : Entries) : Option Entries :=
  match entries.lookup key with
  | none => do
      return putEntry key (.table .header (← assignAll [] assignments)) entries
  | some (.table .implied inner) => do
      return putEntry key (.table .header (← assignAll inner assignments)) entries
  | some _ =>
      none

/-- Put one more table under the last key of a path in double brackets. -/
def addToTables
    (key : String)
    (assignments : List (List String × Value))
    (entries : Entries) : Option Entries :=
  match entries.lookup key with
  | none => do
      return putEntry key (.tables [← assignAll [] assignments]) entries
  | some (.tables items) => do
      return putEntry key (.tables (items ++ [← assignAll [] assignments])) entries
  | some _ =>
      none

/-- Put a section into the document. -/
def addSection
    (entries : Entries)
    (added : Section) : Option Entries :=
  let assignments := added.assignments.reverse
  match added.header with
  | .document =>
      assignAll entries assignments
  | .table path => do
      let key ← path.getLast?
      changeAt .implied (fun _ inner => addTable key assignments inner)
        .header path.dropLast entries
  | .tables path => do
      let key ← path.getLast?
      changeAt .implied (fun _ inner => addToTables key assignments inner)
        .header path.dropLast entries

/-- Drop the mark that may stand in front of a document. -/
def dropByteOrderMark : List Char → List Char
  | '\uFEFF' :: rest =>
      rest
  | characters =>
      characters

/-- Read a document; nothing if it is malformed. -/
def read? (document : String) : Option Value := do
  let read ←
    sections ⟨.document, []⟩ [] (dropByteOrderMark document.toList)
  return .table .header (← read.reverse.foldlM addSection [])

end ScriptCompletion.Toml
