import CodeAtlas.Store.Row

/-!
# Queries of a graph

A `GraphQuery` matches every node, or every edge with its two ends, keeps the matches that satisfy a
condition, and gives a row of columns for each. It has two readings: its text in the graph query language
(`GraphQuery.text`), and its rows over a stored graph, which are defined where the graph is. A query of
the user's own is known by its text alone.

Literals lose their line breaks and tabs on the way into a store, and texts that are stored do too, so
the two still agree (`flattened`).
-/

namespace CodeAtlas

/-! ### Literals -/

/-- A character as a store keeps it: line breaks and tabs become spaces. -/
def flatChar (c : Char) : Char :=
  if c = '\n' ∨ c = '\r' ∨ c = '\t' then ' ' else c

/-- **A text as a store keeps it**, without line breaks and tabs. -/
def flattened (s : String) : String :=
  String.ofList (s.toList.map flatChar)

/-- How a character is written between the quotes of a literal. -/
def literalChar (c : Char) : List Char :=
  if c = '\\' ∨ c = '\'' ∨ c = '"' then ['\\', c] else [flatChar c]

/-- A literal of the graph query language. -/
def literal (s : String) : String :=
  "'" ++ String.ofList (s.toList.flatMap literalChar) ++ "'"

/-! ### The parts of a query -/

/-- **What is matched.** The names stand for the matched things in conditions and columns. -/
inductive Shape where
  /-- Every node, or those of which a property has a given text. -/
  | node (name : String) (property : Option (String × String))
  /-- Every edge, or those with a given label, with the nodes at its ends. -/
  | edge (source edge target : String) (label : Option String)

/-- **A value of a match.** -/
inductive Term where
  /-- A property of a matched thing. -/
  | property (name key : String)
  /-- The label of a matched edge. -/
  | label (name : String)

/-- **What a match has to satisfy.** -/
inductive Condition where
  | equals (term : Term) (text : String)
  /-- The value has the text somewhere in it. -/
  | contains (term : Term) (text : String)
  /-- The value of the term is one of the texts. -/
  | among (term : Term) (texts : List String)
  | both (a b : Condition)

/-- **A column of the answer**: a value and the name of the column. -/
structure Column where
  term : Term
  name : String

/-- A query that is known by its parts. -/
structure Selection where
  shape : Shape
  condition : Option Condition := none
  columns : List Column

/-- **A query of a graph.** -/
inductive GraphQuery where
  | select (selection : Selection)
  /-- A query that is known by its text alone. -/
  | raw (text : String)

/-! ### The text of a query -/

/-- The text of a shape. -/
def Shape.text : Shape → String
  | .node name none => "(" ++ name ++ ")"
  | .node name (some (key, value)) => "(" ++ name ++ " \x7b" ++ key ++ ": " ++ literal value ++ "\x7d)"
  | .edge a r b label =>
    "(" ++ a ++ ")-[" ++ r ++ ((label.map (":" ++ ·)).getD "") ++ "]->(" ++ b ++ ")"

/-- The text of a term. -/
def Term.text : Term → String
  | .property name key => name ++ "." ++ key
  | .label name => "type(" ++ name ++ ")"

/-- The name of the thing that a term is about. -/
def Term.subject : Term → String
  | .property name _ => name
  | .label name => name

/-- The text of a condition. -/
def Condition.text : Condition → String
  | .equals t s => t.text ++ " = " ++ literal s
  | .contains t s => t.text ++ " CONTAINS " ++ literal s
  | .among t ss => "(" ++ Text.joined " OR " (ss.map fun s => t.text ++ " = " ++ literal s) ++ ")"
  | .both a b => a.text ++ " AND " ++ b.text

/-- The text of a column. -/
def Column.text (c : Column) : String :=
  c.term.text ++ " AS " ++ c.name

/-- The text of a query that is known by its parts. -/
def Selection.text (q : Selection) : String :=
  "MATCH " ++ q.shape.text ++ ((q.condition.map (" WHERE " ++ ·.text)).getD "") ++ " RETURN "
    ++ Text.joined ", " (q.columns.map Column.text)

/-- **The text of a query.** -/
def GraphQuery.text : GraphQuery → String
  | .select q => q.text
  | .raw s => s

end CodeAtlas
