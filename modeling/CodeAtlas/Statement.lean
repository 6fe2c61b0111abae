import CodeAtlas.Node

/-!
# Merge statements

A build ends in a list of statements, each of which merges one node or one relationship into the graph:
applied twice, it changes nothing the second time. A statement carries its payload, so that a store can
apply it directly, and its text in the graph query language is computed from the payload.

The text is deterministic: properties stand in the order of their names. Strings are single-quoted by
`quote`, whose inverse `unquote?` stands beside it.
-/

namespace CodeAtlas

/-! ### Quoted text -/

namespace Quoted

/-- The four hexadecimal digits of a number below 65536. -/
def hex4 (n : Nat) : List Char :=
  [Digest.hexDigit (n / 4096 % 16), Digest.hexDigit (n / 256 % 16), Digest.hexDigit (n / 16 % 16),
    Digest.hexDigit (n % 16)]

/-- How one character is written between single quotes. -/
def encodeChar (c : Char) : List Char :=
  if c = '\\' then ['\\', '\\']
  else if c = '\'' then ['\\', '\'']
  else if c = '\n' then ['\\', 'n']
  else if c = '\r' then ['\\', 'r']
  else if c = '\t' then ['\\', 't']
  else if Text.isControl c then '\\' :: 'u' :: hex4 c.toNat
  else [c]

/-- A text as it is written between single quotes. -/
def encode (s : List Char) : List Char :=
  s.flatMap encodeChar

/-- The rest of a single-quoted literal: from after its opening quote, the text that it stands for and
what follows its closing quote. -/
def decodeTail? : List Char → Option (List Char × List Char)
  | [] => none
  | '\'' :: rest => some ([], rest)
  | '\\' :: 'u' :: a :: b :: c :: d :: rest =>
    match Json.hex4? a b c d with
    | none => none
    | some n => (decodeTail? rest).map fun r => (Char.ofNat n :: r.1, r.2)
  | '\\' :: e :: rest =>
    if e = '\\' ∨ e = '\'' then (decodeTail? rest).map fun r => (e :: r.1, r.2)
    else if e = 'n' then (decodeTail? rest).map fun r => ('\n' :: r.1, r.2)
    else if e = 'r' then (decodeTail? rest).map fun r => ('\r' :: r.1, r.2)
    else if e = 't' then (decodeTail? rest).map fun r => ('\t' :: r.1, r.2)
    else none
  | c :: rest => (decodeTail? rest).map fun r => (c :: r.1, r.2)

/-- The single-quoted literal at the front of a text: what it stands for, and what follows it. -/
def decode? : List Char → Option (List Char × List Char)
  | '\'' :: rest => decodeTail? rest
  | _ => none

end Quoted

/-- A text as a single-quoted literal: backslashes, quotes and control characters are escaped. -/
def quoteText (s : List Char) : List Char :=
  '\'' :: Quoted.encode s ++ ['\'']

/-- A string as a single-quoted literal. -/
def quote (s : String) : String :=
  String.ofList (quoteText s.toList)

/-- A property value as a literal. -/
def Property.render : Property → String
  | .flag b => flagText b
  | .integer n => String.ofList (Json.intChars n.toInt)
  | .text s => quote s
  | .list items => "[" ++ Text.joined ", " (items.map quote) ++ "]"

/-! ### Statements -/

/-- The names of the fields that are not kept as properties. -/
def Node.coreFields : List String := ["id", "name", "file_path", "node_type", "line_number"]

/-- **The fields of a node as they are stored**: name, path, label and line, and then the other
properties in the order of their names. The label is a field, so queries can group by it. -/
def Node.fields (n : Node) : List (String × Property) :=
  [("name", .text n.name), ("file_path", .text n.path), ("node_type", .text n.kind.label)]
    ++ (n.line.toList.map fun l => ("line_number", Property.ofNat l))
    ++ n.properties.entries.filter fun e => !Node.coreFields.contains e.1

/-- The text that merges a node: by its id, with the same assignments whether it is new or not. -/
def Node.render (n : Node) : String :=
  let assignments := Text.joined ", " (n.fields.map fun f => "n." ++ f.1 ++ " = " ++ f.2.render)
  "MERGE (n:" ++ n.kind.label ++ " \x7bid: " ++ quote n.id ++ "\x7d) ON CREATE SET " ++ assignments
    ++ " ON MATCH SET " ++ assignments

/-- The properties of a relationship in its pattern; nothing if there are none. -/
def Relationship.pattern (r : Relationship) : String :=
  if r.properties.entries.isEmpty then ""
  else
    " \x7b" ++ Text.joined ", " (r.properties.entries.map fun e => e.1 ++ ": " ++ e.2.render) ++ "\x7d"

/-- The text that merges a relationship between two nodes that are there. -/
def Relationship.render (r : Relationship) : String :=
  "MATCH (a \x7bid: " ++ quote r.source ++ "\x7d), (b \x7bid: " ++ quote r.target
    ++ "\x7d) MERGE (a)-[r:" ++ r.kind.storeLabel ++ r.pattern ++ "]->(b)"

/-- **An idempotent change of the graph.** -/
inductive Statement where
  | mergeNode (node : Node)
  | mergeRelationship (relationship : Relationship)
  deriving DecidableEq

/-- The text of a statement. -/
def Statement.text : Statement → String
  | .mergeNode n => n.render
  | .mergeRelationship r => r.render

end CodeAtlas
