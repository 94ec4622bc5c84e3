namespace OpenCLTree

variable {α : Type} {le : α → α → Bool}

/-- The elements that a new one is inserted after are the first of a sorted list. -/
theorem takeWhile_insertion {a : α} {front back : List α} (before : ∀ b ∈ front, (!le a b) = true)
    (after : ∀ b ∈ back, le a b = true) : (front ++ back).takeWhile (!le a ·) = front := by
  rw [List.takeWhile_append_of_pos before]
  cases back with
  | nil => simp
  | cons b rest => simp [after b List.mem_cons_self]

/-- Sorting keeps the order of elements with one key, so it does not matter whether some are
left out before or after. -/
theorem filter_mergeSort (trans : ∀ a b c : α, le a b → le b c → le a c)
    (total : ∀ a b : α, le a b || le b a) (keep : α → Bool) (l : List α) :
    (l.mergeSort le).filter keep = (l.filter keep).mergeSort le := by
  induction l with
  | nil => simp
  | cons a rest ih =>
    obtain ⟨front, back, atCons, atRest, before⟩ := List.mergeSort_cons trans total a rest
    have sorted := List.pairwise_mergeSort trans total (a :: rest)
    rw [atCons, List.pairwise_append, List.pairwise_cons] at sorted
    rw [atRest, List.filter_append] at ih
    rw [atCons, List.filter_append]
    by_cases kept : keep a = true
    · rw [List.filter_cons_of_pos kept, List.filter_cons_of_pos kept]
      obtain ⟨front', back', atCons', atRest', before'⟩ :=
        List.mergeSort_cons trans total a (rest.filter keep)
      have sorted' := List.pairwise_mergeSort trans total (a :: rest.filter keep)
      rw [atCons', List.pairwise_append, List.pairwise_cons] at sorted'
      have same := ih.trans atRest'
      have sameFront : front.filter keep = front' := by
        rw [← takeWhile_insertion before' sorted'.2.1.1, ← same]
        exact (takeWhile_insertion (fun b member => before b (List.mem_filter.mp member).1)
          fun b member => sorted.2.1.1 b (List.mem_filter.mp member).1).symm
      rw [sameFront, List.append_cancel_left_eq] at same
      rw [atCons', sameFront, same]
    · rw [List.filter_cons_of_neg kept, List.filter_cons_of_neg kept]
      exact ih

/-- Sorting puts elements in order, and those with one key as they were before. -/
theorem pairwise_mergeSort_stable (trans : ∀ a b c : α, le a b → le b c → le a c)
    (total : ∀ a b : α, le a b || le b a) {related : α → α → Prop} {l : List α}
    (before : l.Pairwise related) :
    (l.mergeSort le).Pairwise fun a b => le a b ∧ (le b a → related a b) := by
  have sorted := List.pairwise_mergeSort trans total l
  refine List.pairwise_iff_forall_sublist.mpr fun {a b} sublist => ?_
  have less := List.pairwise_iff_forall_sublist.mp sorted sublist
  refine ⟨less, fun more => ?_⟩
  have self : le a a = true := trans a b a less more
  have alike : ((l.filter fun c => le a c && le c a).mergeSort le) =
      l.filter fun c => le a c && le c a := by
    refine List.mergeSort_of_pairwise (List.pairwise_of_forall_mem_list fun c inC d inD => ?_)
    simp only [List.mem_filter, Bool.and_eq_true] at inC inD
    exact trans c a d inC.2.2 inD.2.1
  have both : [a, b].filter (fun c => le a c && le c a) = [a, b] := by
    simp [self, less, more]
  have kept := sublist.filter fun c => le a c && le c a
  rw [filter_mergeSort trans total, alike, both] at kept
  exact List.pairwise_iff_forall_sublist.mp before (kept.trans List.filter_sublist)

end OpenCLTree
