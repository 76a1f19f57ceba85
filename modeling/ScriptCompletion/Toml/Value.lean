import ScriptCompletion.Toml.Moment

namespace ScriptCompletion.Toml

/-!
# TOML values

A document is a table.  How a table came about decides what may still be added
to it while the document is read.
-/

/-- How a table came about. -/
inductive Origin where
  /-- By a header of its own, or as the document itself. -/
  | header
  /-- By a header of a table inside it. -/
  | implied
  /-- By a dotted key. -/
  | dotted
  /-- Between braces, which leaves it complete. -/
  | inline
deriving Repr, DecidableEq

/-- A value of a document. -/
inductive Value where
  | text (content : String)
  | integer (number : Int)
  /-- A number with a fraction or an exponent, as it is written. -/
  | float (written : String)
  | boolean (flag : Bool)
  | moment (time : Moment)
  /-- Values between square brackets. -/
  | array (items : List Value)
  /-- Tables that share a double header. -/
  | tables (items : List (List (String × Value)))
  | table (origin : Origin) (entries : List (String × Value))
deriving Repr

/-- The entries of a table, in the order in which their keys first came. -/
abbrev Entries :=
  List (String × Value)

namespace Value

/-- A text. -/
def text? : Value → Option String
  | .text content =>
      some content
  | _ =>
      none

/-- An integer that is not negative. -/
def natural? : Value → Option Nat
  | .integer (.ofNat number) =>
      some number
  | _ =>
      none

/-- The items of an array of either kind. -/
def items? : Value → Option (List Value)
  | .array items =>
      some items
  | .tables items =>
      some (items.map (.table .header))
  | _ =>
      none

/-- An array with every item decoded. -/
def list?
    {Item : Type}
    (decode : Value → Option Item)
    (value : Value) : Option (List Item) := do
  (← value.items?).mapM decode

/-- The key under which a moment holds its text when it is read as a table. -/
def momentKey : String :=
  "$__toml_private_datetime"

/-- The entries of a table.  A moment is a table with its text as the one
entry. -/
def entries? : Value → Option Entries
  | .table _ entries =>
      some entries
  | .moment time =>
      some [(momentKey, .text time.render)]
  | _ =>
      none

/-- A table with every entry decoded, in order. -/
def map?
    {Item : Type}
    (decode : Value → Option Item)
    (value : Value) : Option (List (String × Item)) := do
  (← value.entries?).mapM fun (key, entry) => do
    return (key, ← decode entry)

/-- The fields of a record: by name in a table, and by position in an array.
Whatever else is there is passed over. -/
def fields?
    (names : List String)
    (value : Value) : Option (String → Option Value) :=
  match value.entries? with
  | some entries =>
      some fun name => entries.lookup name
  | none => do
      let items ← value.items?
      return fun name => (names.zip items).lookup name

end Value

/-- Decode a field that may be left out. -/
def fieldOr
    {Item : Type}
    (fields : String → Option Value)
    (name : String)
    (decode : Value → Option Item)
    (fallback : Item) : Option Item :=
  match fields name with
  | none =>
      some fallback
  | some value =>
      decode value

end ScriptCompletion.Toml
