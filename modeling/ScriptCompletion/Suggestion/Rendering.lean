import ScriptCompletion.Suggestion.Item
import ScriptCompletion.Text.Json

namespace ScriptCompletion.Suggestion

/-!
# Written forms of suggestions

A list of suggestions is written either as lines with tabs between the fields
or as a JSON document.
-/

/-- The word for a kind in a line. -/
def ItemKind.title : ItemKind → String
  | .command =>
      "Command"
  | .helper =>
      "Helper"
  | .variable =>
      "Variable"
  | .argumentValue =>
      "ArgumentValue"

/-- The word for a kind in JSON. -/
def ItemKind.tag : ItemKind → String
  | .command =>
      "command"
  | .helper =>
      "helper"
  | .variable =>
      "variable"
  | .argumentValue =>
      "argument_value"

/-- A position in JSON. -/
def positionJson (position : Position) : Text.Json :=
  .object
    [("line", .number position.line),
      ("column", .number position.column)]

/-- A stretch of text in JSON. -/
def spanJson (span : Span) : Text.Json :=
  .object
    [("start", positionJson span.start),
      ("end", positionJson span.stop)]

namespace Item

/-- The item as a line. -/
def toLine (item : Item) : String :=
  let fields := [item.label, item.kind.title] ++ item.detail.toList
  "\t".intercalate fields ++ "\n"

/-- The item in JSON; the detail is left out when there is none. -/
def toJson (item : Item) : Text.Json :=
  .object
    ([("label", .text item.label),
      ("insert_text", .text item.insertText),
      ("range", spanJson item.range),
      ("kind", .text item.kind.tag)] ++
        item.detail.toList.map fun detail => ("detail", .text detail))

end Item

/-- All items as lines. -/
def renderLines (items : List Item) : String :=
  String.join (items.map Item.toLine)

/-- All items as one JSON document. -/
def renderJson (items : List Item) : String :=
  Text.Json.render 0 (.array (items.map Item.toJson)) ++ "\n"

end ScriptCompletion.Suggestion
