import OpenCLTree.Grammar.Grammar

namespace OpenCLTree

open Rule

def pragmaBehaviors : List String := ["enable", "disable", "require", "warn"]

def pragmaVersions : List String := ["1.0", "1.1", "1.2", "2.0", "3.0"]

/-- `all`, or `cl_` with something after it. -/
def isExtensionName (name : String) : Bool :=
  name == "all" || (['c', 'l', '_'].isPrefixOf name.toList && decide (3 < name.length))

/-- Takes the tokens that are left on the line. -/
def restOfLine : Rule (List Token) :=
  many do
    match ← current with
    | some token =>
      if token.newlineBefore then pure none
      else
        advance
        pure (some token)
    | none => pure none

/-- The node of a pragma: an extension with its behavior, a language version, or any other
line. -/
def pragmaNode (marker : Token) (line : List Token) : Node :=
  match line with
  | [vendor, word, name, colon, behavior] =>
    if vendor.text = "OPENCL" ∧ word.text = "EXTENSION" ∧ colon.text = ":" ∧
        name.kind = .identifier ∧ isExtensionName name.text ∧
        pragmaBehaviors.contains behavior.text then
      .make .pragmaDirective [marker, vendor, word,
        (Node.ofToken .identifier name).as .extension, colon,
        (Node.ofToken .identifier behavior).as .behavior]
    else otherLine
  | [vendor, version] =>
    if vendor.text = "OPENCL" ∧ version.kind = .number ∧
        pragmaVersions.contains version.text then
      .make .versionPragma [marker, vendor, (Node.ofToken .numberLiteral version).as .version]
    else otherLine
  | _ => otherLine
where
  otherLine : Node :=
    .make .pragmaLine (marker.toChild :: line.map Token.toChild)

def pragmaLine : Rule Node := do
  let marker ← expect .pragma
  let line ← restOfLine
  pure (pragmaNode marker line)

/-- A preprocessor line other than a pragma. -/
def directiveLine : Rule Node := do
  let marker ← expect .directive
  let line ← restOfLine
  pure (.make .preprocDirective (marker.as .directive :: line.map Token.toChild))

end OpenCLTree
