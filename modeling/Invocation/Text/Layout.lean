import Invocation.Text.Quoted

/-!
# Structured debug texts

A debug text is a tree of names, fields and items with two layouts: on one line, or with one field
or item to a line. Leaves are one-line texts in both.
-/

namespace Invocation.Text

/-- The tree of a structured debug text. -/
inductive Layout where
  /-- A text that stays on one line. -/
  | leaf (text : String)
  /-- A name with named fields in braces. -/
  | record (name : String) (fields : List (String × Layout))
  /-- A name with items in parentheses. -/
  | tuple (name : String) (items : List Layout)
  /-- Items in brackets. -/
  | list (items : List Layout)

namespace Layout

mutual

/-- The layout on one line. -/
def oneLine : Layout → String
  | .leaf text => text
  | .record name fields =>
    if fields.isEmpty then name
    else name ++ " \x7b " ++ ", ".intercalate (oneLineFields fields) ++ " \x7d"
  | .tuple name items => name ++ "(" ++ ", ".intercalate (oneLineItems items) ++ ")"
  | .list items => "[" ++ ", ".intercalate (oneLineItems items) ++ "]"

/-- The items, each on one line. -/
def oneLineItems : List Layout → List String
  | [] => []
  | item :: rest => oneLine item :: oneLineItems rest

/-- The fields with their names, each on one line. -/
def oneLineFields : List (String × Layout) → List String
  | [] => []
  | (name, field) :: rest => (name ++ ": " ++ oneLine field) :: oneLineFields rest

end

/-- The white space before a line at a depth of nesting: four spaces a level. -/
def indent (depth : Nat) : String := String.ofList (List.replicate (4 * depth) ' ')

mutual

/-- The layout over several lines, the first of which starts at the current position and the rest
at the given depth. Every field and item ends in a comma; an empty list stays on its line. -/
def manyLines (depth : Nat) : Layout → String
  | .leaf text => text
  | .record name fields =>
    if fields.isEmpty then name
    else name ++ " \x7b\n" ++ manyLinesFields depth fields ++ indent depth ++ "\x7d"
  | .tuple name items =>
    if items.isEmpty then name ++ "()"
    else name ++ "(\n" ++ manyLinesItems depth items ++ indent depth ++ ")"
  | .list items =>
    if items.isEmpty then "[]"
    else "[\n" ++ manyLinesItems depth items ++ indent depth ++ "]"

/-- The items, each on lines of its own one level deeper. -/
def manyLinesItems (depth : Nat) : List Layout → String
  | [] => ""
  | item :: rest =>
    indent (depth + 1) ++ manyLines (depth + 1) item ++ ",\n" ++ manyLinesItems depth rest

/-- The fields with their names, each on lines of its own one level deeper. -/
def manyLinesFields (depth : Nat) : List (String × Layout) → String
  | [] => ""
  | (name, field) :: rest =>
    indent (depth + 1) ++ name ++ ": " ++ manyLines (depth + 1) field ++ ",\n" ++
      manyLinesFields depth rest

end

/-- The text of a tree, over several lines or on one. -/
def render (pretty : Bool) (layout : Layout) : String :=
  if pretty then manyLines 0 layout else oneLine layout

/-- A quoted text as a leaf. -/
def text (s : String) : Layout := .leaf (quoted s)

/-- A number as a leaf. -/
def number (n : Nat) : Layout := .leaf (toString n)

/-- An optional tree: a bare word for nothing, a one-item tuple otherwise. -/
def option : Option Layout → Layout
  | none => .leaf "None"
  | some layout => .tuple "Some" [layout]

end Layout

/-- The text of an address. Where something lives differs from run to run, so a text shows only
whether it lives anywhere. -/
def address (nonzero : Bool) : String := if nonzero then "0xADDR" else "0x0"

end Invocation.Text
