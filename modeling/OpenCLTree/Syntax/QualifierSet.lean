import OpenCLTree.Syntax.Node

namespace OpenCLTree

/-- The kind of the node around a qualifier. -/
def Qualifier.nodeKind (qualifier : Qualifier) : NodeKind :=
  match qualifier.category with
  | .storageClass => .storageClassSpecifier
  | .const | .volatile | .restrict => .typeQualifier
  | .inline => .functionSpecifier
  | .addressSpace => .addressSpaceQualifier
  | .access => .accessQualifier
  | .kernel => .kernelQualifier

/-- A qualifier and the place where it stands. -/
structure QualifierEntry where
  qualifier : Qualifier
  span : Span
  deriving DecidableEq

/-- The qualifiers of a declaration in source order, at most one of each category. -/
structure QualifierSet where
  entries : List QualifierEntry
  deriving DecidableEq

namespace QualifierSet

def empty : QualifierSet := ⟨[]⟩

def get? (set : QualifierSet) (category : QualifierCategory) : Option QualifierEntry :=
  set.entries.find? (·.qualifier.category == category)

def contains (set : QualifierSet) (qualifier : Qualifier) : Bool :=
  set.entries.any (·.qualifier == qualifier)

/-- Adds a qualifier, unless there is already one of its category: then that one is the
answer. -/
def insert (set : QualifierSet) (qualifier : Qualifier) (span : Span) :
    Except QualifierEntry QualifierSet :=
  match set.get? qualifier.category with
  | some earlier => .error earlier
  | none => .ok ⟨set.entries ++ [⟨qualifier, span⟩]⟩

def size (set : QualifierSet) : Nat :=
  set.entries.length

def isEmpty (set : QualifierSet) : Bool :=
  set.entries.isEmpty

def addressSpace? (set : QualifierSet) : Option Qualifier :=
  (set.get? .addressSpace).map (·.qualifier)

def isKernel (set : QualifierSet) : Bool :=
  set.contains .kernel

def isTypedef (set : QualifierSet) : Bool :=
  set.contains .typedef

end QualifierSet

namespace Node

/-- The qualifier that a qualifier node holds, with its place. -/
def qualifierEntry? (node : Node) : Option QualifierEntry :=
  if node.kind.isQualifier then
    match node.childTokens.head? with
    | some ⟨.qualifier qualifier, _, span, _⟩ => some ⟨qualifier, span⟩
    | _ => none
  else none

/-- The qualifiers among the children of a node. Those in error nodes do not count. -/
def qualifierSet (node : Node) : QualifierSet :=
  (node.childNodes.filterMap qualifierEntry?).foldl
    (fun set entry => (set.insert entry.qualifier entry.span).toOption.getD set) .empty

end Node

end OpenCLTree
