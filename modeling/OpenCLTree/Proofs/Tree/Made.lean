import OpenCLTree.Proofs.Tree.MapSpan
import OpenCLTree.Proofs.Tree.MapTokens

namespace OpenCLTree

/-- Whether a node reaches over its children, of which there are some. -/
structure Node.IsMade (node : Node) : Prop where
  nonempty : node.children ≠ []
  span : node.span = Child.extent node.children

theorem Node.isMade_make (kind : NodeKind) {children : List Child} (nonempty : children ≠ []) :
    (make kind children).IsMade :=
  ⟨nonempty, rfl⟩

namespace Span

/-- Whether spans can be moved before or after they are joined. -/
def Preserves (place : Span → Span) : Prop :=
  ∀ first last : Span, place (first.cover last) = (place first).cover (place last)

theorem preserves_id : Preserves id := fun _ _ => rfl

end Span

variable {place : Span → Span} {change : Token → Token}

/-- The extent of children that have moved. -/
theorem Child.extent_moved {children moved : List Child} (preserves : Span.Preserves place)
    (spans : moved.map Child.span = children.map (place ∘ Child.span)) (nonempty : children ≠ []) :
    extent moved = place (extent children) := by
  have atFirst := List.head?_eq_some_head nonempty
  have atLast := List.getLast?_eq_some_getLast nonempty
  generalize children.head nonempty = first at atFirst
  generalize children.getLast nonempty = last at atLast
  have firstMoved := congrArg List.head? spans
  have lastMoved := congrArg List.getLast? spans
  rw [List.head?_map, List.head?_map, atFirst, Option.map_some] at firstMoved
  rw [List.getLast?_map, List.getLast?_map, atLast, Option.map_some] at lastMoved
  obtain ⟨first', atFirst', spanFirst⟩ := Option.map_eq_some_iff.mp firstMoved
  obtain ⟨last', atLast', spanLast⟩ := Option.map_eq_some_iff.mp lastMoved
  simp only [extent, atFirst, atLast, atFirst', atLast', spanFirst, spanLast, Function.comp_apply]
  exact (preserves _ _).symm

namespace Node

theorem span_mapSpanOfChildren (place : Span → Span) (children : List Child) :
    (mapSpanOfChildren place children).map Child.span = children.map (place ∘ Child.span) := by
  induction children with
  | nil => rw [mapSpanOfChildren, List.map_nil, List.map_nil]
  | cons child rest ih =>
    cases child with
    | token => rw [mapSpanOfChildren, List.map_cons, List.map_cons, ih]; rfl
    | node field inner =>
      rw [mapSpanOfChildren, List.map_cons, List.map_cons, ih]
      exact congrArg (· :: _) (span_mapSpan place inner)

mutual

/-- Moving the tokens of a tree moves the whole tree. -/
theorem mapTokens_eq_mapSpan (preserves : Span.Preserves place) (node : Node)
    (made : ∀ inner ∈ node.descendants, inner.IsMade) :
    node.mapTokens (·.mapSpan place) = node.mapSpan place := by
  cases node with
  | mk kind span children =>
    rw [descendants_mk] at made
    obtain ⟨top, below⟩ := List.forall_mem_cons.mp made
    have same := mapTokensOfChildren_eq_mapSpan preserves children below
    have atTop : span = Child.extent children := top.span
    have moved := Child.extent_moved preserves (span_mapSpanOfChildren place children) top.nonempty
    rw [mapTokens, mapSpan, same, make, moved, atTop]

theorem mapTokensOfChildren_eq_mapSpan (preserves : Span.Preserves place) (children : List Child)
    (made : ∀ inner ∈ preorder (Child.nodes children), inner.IsMade) :
    mapTokensOfChildren (·.mapSpan place) children = mapSpanOfChildren place children := by
  match children with
  | [] => rw [mapTokensOfChildren, mapSpanOfChildren]
  | .token field leaf :: rest =>
    rw [mapTokensOfChildren, mapSpanOfChildren, mapTokensOfChildren_eq_mapSpan preserves rest made]
    rfl
  | .node field inner :: rest =>
    rw [Child.nodes, preorder_cons] at made
    obtain ⟨inside, later⟩ := List.forall_mem_append.mp made
    rw [mapTokensOfChildren, mapSpanOfChildren, mapTokens_eq_mapSpan preserves inner inside,
      mapTokensOfChildren_eq_mapSpan preserves rest later]

end

theorem mapTokens_id (node : Node) (made : ∀ inner ∈ node.descendants, inner.IsMade) :
    node.mapTokens id = node := by
  have moved := mapTokens_eq_mapSpan Span.preserves_id node made
  rwa [mapSpan_id] at moved

end Node

end OpenCLTree
