import OpenCLTree.Output.Json
import OpenCLTree.Syntax.Diagnostic
import OpenCLTree.Syntax.QualifierSet
import OpenCLTree.Syntax.Tree

namespace OpenCLTree

def Span.toJson (span : Span) : Json :=
  .object [("start", .number span.start), ("end", .number span.stop)]

def Token.toJson (token : Token) : Json :=
  .object [("kind", .string token.kind.name), ("span", token.span.toJson)]

namespace Node

/-- The indices of the children that fill each field, if any field is in use. -/
def fieldsJson (node : Node) : List (String × Json) :=
  match node.fieldTable with
  | [] => []
  | table =>
    [("fields", .object (table.map fun (field, indices) =>
      (field.text, .array (indices.map .number))))]

mutual

def toJson : Node → Json
  | .mk kind span children =>
    .object ([("kind", .string kind.name), ("span", span.toJson),
      ("children", .array (jsonOfChildren children))] ++ fieldsJson (.mk kind span children))

def jsonOfChildren : List Child → List Json
  | [] => []
  | .token _ leaf :: rest => leaf.toJson :: jsonOfChildren rest
  | .node _ inner :: rest => inner.toJson :: jsonOfChildren rest

end

end Node

def Tree.toJson (tree : Tree) : Json :=
  .object [("source", .string tree.source), ("root", tree.root.toJson)]

def QualifierSet.toJson (set : QualifierSet) : Json :=
  .object [("entries", .array (set.entries.map fun entry =>
    .object [("qualifier", .string entry.qualifier.name), ("span", entry.span.toJson)]))]

def LexErrorKind.toJson : LexErrorKind → Json
  | .unrecognizedCharacter => .string "UnrecognizedCharacter"
  | .unterminatedString => .string "UnterminatedString"
  | .unterminatedChar => .string "UnterminatedChar"
  | .unterminatedComment => .string "UnterminatedComment"
  | .invalidEscape sequence offset =>
    .object [("InvalidEscape",
      .object [("sequence", .string sequence), ("at", .number offset)])]

def LexError.toJson (error : LexError) : Json :=
  .object [("kind", error.kind.toJson), ("offset", .number error.offset),
    ("lexeme", .string error.lexeme)]

def ParseError.toJson (error : ParseError) : Json :=
  .object [(tag, content)]
where
  tag : String :=
    match error with
    | .lexical _ => "Lex"
    | .unexpectedToken .. => "UnexpectedToken"
    | .unexpectedEnd .. => "UnexpectedEof"
    | .duplicateQualifier .. => "DuplicateQualifier"
    | .missingBody .. => "MissingBody"
    | .ambiguousCast _ => "AmbiguousCast"
  content : Json :=
    match error with
    | .lexical error => error.toJson
    | .unexpectedToken expected found span =>
      .object [("expected", .string expected.text), ("found", .string found),
        ("span", span.toJson)]
    | .unexpectedEnd expected span =>
      .object [("expected", .string expected.text), ("span", span.toJson)]
    | .duplicateQualifier category first span =>
      .object [("category", .string category.name), ("first", first.toJson),
        ("span", span.toJson)]
    | .missingBody name span =>
      .object [("name", .string name), ("span", span.toJson)]
    | .ambiguousCast span => .object [("span", span.toJson)]

def Diagnostic.toJson (diagnostic : Diagnostic) : Json :=
  .object [("error", diagnostic.error.toJson),
    ("position", .object [("line", .number diagnostic.position.line),
      ("column", .number diagnostic.position.column)])]

/-- The catalog of node kinds with the fields that each may have. -/
def NodeKind.catalog : Json :=
  .array (NodeKind.all.map fun kind =>
    .object [("kind", .string kind.name), ("name", .string kind.name),
      ("fields", .array (kind.fields.map fun field => .string field.text))])

end OpenCLTree
