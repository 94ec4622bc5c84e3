import OpenCLTree.Syntax.Node

namespace OpenCLTree

/-- Whether some spans that are not empty lie end to end from `start` to `stop`. -/
inductive Span.Tiles : Nat → List Span → Nat → Prop
  | nothing (place : Nat) : Tiles place [] place
  | span {start middle stop : Nat} {rest : List Span} :
      start < middle → Tiles middle rest stop → Tiles start (⟨start, middle⟩ :: rest) stop

namespace Span.Tiles

variable {start middle stop : Nat} {spans front back : List Span}

theorem append (before : Tiles start front middle) (after : Tiles middle back stop) :
    Tiles start (front ++ back) stop := by
  induction before with
  | nothing => exact after
  | span nonempty _ ih => exact .span nonempty (ih after)

theorem start_le_stop (tiles : Tiles start spans stop) : start ≤ stop := by
  induction tiles with
  | nothing => exact Nat.le_refl _
  | span nonempty _ ih => omega

theorem within (tiles : Tiles start spans stop) :
    ∀ span ∈ spans, start ≤ span.start ∧ span.start < span.stop ∧ span.stop ≤ stop := by
  induction tiles with
  | nothing => simp
  | span nonempty after ih =>
    refine List.forall_mem_cons.mpr ⟨⟨Nat.le_refl _, nonempty, after.start_le_stop⟩, ?_⟩
    intro span member
    have inside := ih span member
    exact ⟨Nat.le_trans (Nat.le_of_lt nonempty) inside.1, inside.2⟩

theorem head {span : Span} (tiles : Tiles start spans stop) (first : spans.head? = some span) :
    span.start = start := by
  cases tiles with
  | nothing => cases first
  | span => cases first; rfl

theorem getLast {span : Span} (tiles : Tiles start spans stop)
    (last : spans.getLast? = some span) : span.stop = stop := by
  induction tiles with
  | nothing => cases last
  | span _ after ih =>
    cases after with
    | nothing => cases last; rfl
    | span nonempty after => exact ih (by simpa using last)

theorem start_lt_stop (tiles : Tiles start spans stop) (some : spans ≠ []) : start < stop := by
  cases tiles with
  | nothing => exact absurd rfl some
  | span nonempty after => exact Nat.lt_of_lt_of_le nonempty after.start_le_stop

end Span.Tiles

/-- The span over children that lie end to end reaches from the first to the last. -/
theorem Child.extent_of_tiles {children : List Child} {start stop : Nat}
    (tiles : Span.Tiles start (children.map Child.span) stop) (nonempty : children ≠ []) :
    extent children = ⟨start, stop⟩ := by
  have atFirst := List.head?_eq_some_head nonempty
  have atLast := List.getLast?_eq_some_getLast nonempty
  generalize children.head nonempty = first at atFirst
  generalize children.getLast nonempty = last at atLast
  have startFirst := tiles.head (by rw [List.head?_map, atFirst, Option.map_some])
  have stopLast := tiles.getLast (by rw [List.getLast?_map, atLast, Option.map_some])
  have insideFirst := tiles.within first.span (List.mem_map_of_mem (List.mem_of_head? atFirst))
  have insideLast := tiles.within last.span (List.mem_map_of_mem (List.mem_of_getLast? atLast))
  simp only [extent, atFirst, atLast, Span.cover, Span.mk.injEq]
  omega

end OpenCLTree
