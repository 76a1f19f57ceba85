import ScriptCompletion.Text.Quoted

namespace ScriptCompletion.Text

/-!
# JSON documents

A document is written with one item or member a line and two blanks for every
level of nesting.
-/

/-- A JSON document of the kind that is written here. -/
inductive Json where
  | text (content : String)
  | number (value : Nat)
  | array (items : List Json)
  | object (members : List (String × Json))

namespace Json

/-- A new line at a level of nesting. -/
def newLine (level : Nat) : String :=
  "\n" ++ String.ofList (List.replicate (2 * level) ' ')

mutual

/-- Write a document whose first line is indented already. -/
def render
    (level : Nat)
    (json : Json) : String :=
  match json with
  | .text content =>
      jsonString content
  | .number value =>
      toString value
  | .array [] =>
      "[]"
  | .array (item :: items) =>
      "[" ++ newLine (level + 1) ++ render (level + 1) item ++
        renderItems (level + 1) items ++ newLine level ++ "]"
  | .object [] =>
      "\x7b\x7d"
  | .object ((name, member) :: members) =>
      "\x7b" ++ newLine (level + 1) ++ jsonString name ++ ": " ++
        render (level + 1) member ++
        renderMembers (level + 1) members ++ newLine level ++ "\x7d"

/-- Write the items behind the first one. -/
def renderItems
    (level : Nat)
    (items : List Json) : String :=
  match items with
  | [] =>
      ""
  | item :: items =>
      "," ++ newLine level ++ render level item ++ renderItems level items

/-- Write the members behind the first one. -/
def renderMembers
    (level : Nat)
    (members : List (String × Json)) : String :=
  match members with
  | [] =>
      ""
  | (name, member) :: members =>
      "," ++ newLine level ++ jsonString name ++ ": " ++
        render level member ++ renderMembers level members

end

end Json

end ScriptCompletion.Text
