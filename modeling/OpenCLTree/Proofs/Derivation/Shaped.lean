import OpenCLTree.Grammar.Directive
import OpenCLTree.Grammar.Recovery
import OpenCLTree.Proofs.Grammar.Coverage
import OpenCLTree.Proofs.Names.Walk
import OpenCLTree.Proofs.Tree.Classified
import OpenCLTree.Syntax.Vector

namespace OpenCLTree

/-- Whether nodes of a kind are lines of the preprocessor. -/
def NodeKind.isLine : NodeKind → Bool
  | .pragmaDirective | .versionPragma | .pragmaLine | .preprocDirective => true
  | _ => false

/-- Whether a marker and a line behind it are tokens of a stream up to where the next line begins. -/
structure IsLine (tokens : List Token) (marker : Token) (line : List Token) : Prop where
  covers : ∃ start stop, Covers tokens start (marker :: line) stop ∧
    ∀ next, tokens[stop]? = some next → next.newlineBefore = true
  plain : ∀ leaf ∈ marker :: line, leaf.kind ≠ .swizzle
  within : ∀ leaf ∈ line, leaf.newlineBefore = false

namespace Node

/-- The nodes that are made of a marker and the line behind it. -/
inductive OfLine (marker : Token) (line : List Token) : Node → Prop
  | pragma : marker.kind = .pragma → OfLine marker line (pragmaNode marker line)
  | directive : marker.kind = .directive →
      OfLine marker line (.make .preprocDirective (marker.as .directive :: line.map Token.toChild))

/-- Which accesses there are to members and components, in a tree over a token stream: components
are selected where a dot and their name make an accessor behind what may be a vector; and members
elsewhere. Accessors stand nowhere else. -/
structure Accesses (tokens : List Token) (node : Node) : Prop where
  swizzle : node.kind = .swizzleAccess → ∃ (vector : Node) (accessor dot name : Token) (place : Nat),
    node.children = [vector.as .argument, accessor.as .accessor] ∧ vector.mayBeVector = true ∧
      tokens[place]? = some dot ∧ tokens[place + 1]? = some name ∧
      Word.accessorOf? place dot name = some accessor
  member : node.kind = .fieldExpression → ∃ (record : Node) (operator name : Token) (place : Nat),
    node.children = [record.as .argument,
      (operator.mapSpan fun _ => ⟨place, place + 1⟩).as .operator,
      (ofToken .fieldIdentifier (name.mapSpan fun _ => ⟨place + 1, place + 2⟩)).as .member] ∧
      tokens[place]? = some operator ∧ tokens[place + 1]? = some name ∧ name.kind = .identifier ∧
      (operator.kind = .punct .arrow ∨ operator.kind = .punct .dot ∧
        (record.mayBeVector = true → Word.accessorOf? place operator name = none))
  other : node.kind ≠ .error → node.kind ≠ .swizzleAccess →
    ∀ leaf ∈ node.childTokens, leaf.kind ≠ .swizzle

/-- Whether the braces that an error node opens are closed in it, if it does not end where skipping
always ends. -/
def ClosesBraces (tokens : List Token) (node : Node) : Prop :=
  node.kind = .error → ∀ leaf, node.leaves.getLast? = some leaf → braceDepth node.leaves ≤ 0 ∨
    ∀ next, tokens[leaf.span.stop]? = some next → next.kind = .pragma ∨ next.kind = .directive

/-- What holds of every node that is read from a token stream. -/
structure Shaped (tokens : List Token) (node : Node) : Prop where
  classified : node.kind.isDeclaration = true → node.IsClassified
  name : node.kind.isName = true → ∃ token, node.children = [Token.toChild token]
  accesses : node.Accesses tokens
  braces : node.ClosesBraces tokens
  line : node.kind.isLine = true → ∃ marker line, IsLine tokens marker line ∧ node.OfLine marker line

end Node

namespace NodeKind

/-- Whether nodes of a kind are no errors, open no scope and declare nothing. -/
def isInert (kind : NodeKind) : Bool :=
  kind != .error && !kind.opensScope && !kind.isBlock && !kind.isDefinition &&
    kind.bindingField? == none

/-- Whether nodes of a kind are neither errors nor declarations nor accesses nor lines. -/
def isCommon (kind : NodeKind) : Bool :=
  kind != .error && !kind.isDeclaration && kind != .fieldExpression && kind != .swizzleAccess &&
    !kind.isLine

/-- Whether nodes of a kind depend on the names in scope. -/
def usesNames (kind : NodeKind) : Bool :=
  kind == .typeIdentifier || kind == .callExpression || kind == .builtinFunctionCall

/-- Whether nothing is asked of nodes of a kind but that names are leaves. -/
def isQuiet (kind : NodeKind) : Bool :=
  kind.isInert && kind.isCommon && !kind.usesNames

/-- The same of kinds of which nodes need not be leaves. -/
def isLoose (kind : NodeKind) : Bool :=
  kind.isQuiet && !kind.isName

/-- What it means for a kind to be inert. -/
structure Inert (kind : NodeKind) : Prop where
  proper : kind ≠ .error
  closed : kind.opensScope = false
  block : kind.isBlock = false
  definition : kind.isDefinition = false
  free : kind.bindingField? = none

theorem inert_of_isInert {kind : NodeKind} (inert : kind.isInert = true) : kind.Inert := by
  simp only [isInert, Bool.and_eq_true, Bool.not_eq_true', bne_iff_ne, beq_iff_eq] at inert
  obtain ⟨⟨⟨⟨proper, closed⟩, block⟩, definition⟩, free⟩ := inert
  exact ⟨proper, closed, block, definition, free⟩

theorem Inert.item {kind : NodeKind} (inert : kind.Inert) : kind ≠ .kernelFunctionDefinition := by
  rintro rfl
  cases inert.definition

/-- What it means for a kind to be quiet. -/
structure Quiet (kind : NodeKind) : Prop extends kind.Inert where
  common : kind.isCommon = true
  unused : kind.usesNames = false

theorem quiet_of_isQuiet {kind : NodeKind} (quiet : kind.isQuiet = true) : kind.Quiet := by
  simp only [isQuiet, Bool.and_eq_true, Bool.not_eq_true'] at quiet
  obtain ⟨⟨inert, common⟩, unused⟩ := quiet
  exact ⟨inert_of_isInert inert, common, unused⟩

end NodeKind

end OpenCLTree
