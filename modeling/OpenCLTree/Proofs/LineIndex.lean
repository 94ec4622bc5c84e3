import OpenCLTree.Proofs.Lexical.Boundary
import OpenCLTree.LineIndex
import Mathlib.Data.List.Induction
import Mathlib.Data.List.TakeWhile

namespace OpenCLTree

variable {text : List Char}

namespace LineIndex

theorem startsAfter_boundary (front : List Char) {back : List Char} {start : Nat}
    (member : start ∈ startsAfter (byteLength front) back) : IsBoundary (front ++ back) start := by
  induction back generalizing front with
  | nil => cases member
  | cons c rest ih =>
    have ends : byteLength front + c.utf8Size = byteLength (front ++ [c]) := by
      rw [Lexer.byteLength_append, byteLength, byteLength, Nat.add_zero]
    have later (below : start ∈ startsAfter (byteLength front + c.utf8Size) rest) :
        IsBoundary (front ++ c :: rest) start := by
      rw [ends] at below
      simpa using ih _ below
    unfold startsAfter at member
    split at member
    · rcases List.mem_cons.mp member with rfl | below
      · exact ⟨front ++ [c], rest, by simp, ends.symm⟩
      · exact later below
    · exact later member

/-- Every offset has a line, which starts at a character and not beyond the offset. -/
theorem lineStart?_eq (text : List Char) (offset : Nat) :
    ∃ start, (ofText text).lineStart? offset = some start ∧ start ≤ offset ∧
      IsBoundary text start := by
  have begins : (ofText text).starts.takeWhile (· ≤ offset) =
      0 :: (startsAfter 0 text).takeWhile (· ≤ offset) :=
    List.takeWhile_cons_of_pos (by simp)
  have nonempty : (ofText text).starts.takeWhile (· ≤ offset) ≠ [] :=
    begins ▸ List.cons_ne_nil _ _
  obtain ⟨start, last⟩ := Option.ne_none_iff_exists'.mp (mt List.getLast?_eq_none_iff.mp nonempty)
  have reached := List.mem_of_getLast? last
  refine ⟨start, last, by simpa using List.mem_takeWhile_imp reached, ?_⟩
  rcases List.mem_cons.mp ((List.takeWhile_prefix _).subset reached) with rfl | later
  · exact .zero text
  · exact startsAfter_boundary [] later

theorem startsAfter_append (offset : Nat) (front back : List Char) :
    startsAfter offset (front ++ back) =
      startsAfter offset front ++ startsAfter (offset + byteLength front) back := by
  induction front generalizing offset with
  | nil => rfl
  | cons c rest ih =>
    simp only [List.cons_append, startsAfter, ih, byteLength, Nat.add_assoc]
    split <;> rfl

/-- The lines after the first start inside the text or at its end. -/
theorem startsAfter_bounds {offset start : Nat} (member : start ∈ startsAfter offset text) :
    offset < start ∧ start ≤ offset + byteLength text := by
  induction text generalizing offset with
  | nil => cases member
  | cons c rest ih =>
    have size := c.utf8Size_pos
    have later (below : start ∈ startsAfter (offset + c.utf8Size) rest) :
        offset < start ∧ start ≤ offset + byteLength (c :: rest) := by
      have bounds := ih below
      rw [byteLength]
      omega
    unfold startsAfter at member
    split at member
    · rcases List.mem_cons.mp member with rfl | below
      · rw [byteLength]
        omega
      · exact later below
    · exact later member

theorem length_startsAfter (offset : Nat) (text : List Char) :
    (startsAfter offset text).length = text.count '\n' := by
  induction text generalizing offset with
  | nil => rfl
  | cons c rest ih =>
    unfold startsAfter
    split
    · rename_i feed
      rw [List.length_cons, ih, feed, List.count_cons_self]
    · rename_i other
      rw [ih, List.count_cons_of_ne other]

/-- The lines that start in a text or at its end are also those of any longer text. -/
theorem takeWhile_starts (front back : List Char) :
    (ofText (front ++ back)).starts.takeWhile (· ≤ byteLength front) = 0 :: startsAfter 0 front := by
  have reached : ∀ start ∈ startsAfter 0 front, decide (start ≤ byteLength front) = true := by
    intro start member
    have bounds := startsAfter_bounds member
    exact decide_eq_true (by omega)
  have beyond : (startsAfter (0 + byteLength front) back).takeWhile (· ≤ byteLength front) = [] := by
    refine List.takeWhile_eq_nil_iff.mpr fun nonempty atFirst => ?_
    have bounds := startsAfter_bounds (List.get_mem _ ⟨0, nonempty⟩)
    have first := of_decide_eq_true atFirst
    omega
  have begins : (0 :: startsAfter 0 (front ++ back)).takeWhile (· ≤ byteLength front) =
      0 :: (startsAfter 0 (front ++ back)).takeWhile (· ≤ byteLength front) :=
    List.takeWhile_cons_of_pos (by simp)
  rw [ofText, begins, startsAfter_append, List.takeWhile_append_of_pos reached, beyond,
    List.append_nil]

/-- The characters of the last line of a text. -/
def lastLine (text : List Char) : List Char :=
  (text.reverse.takeWhile (· ≠ '\n')).reverse

theorem lastLine_snoc (front : List Char) (c : Char) :
    lastLine (front ++ [c]) = if c = '\n' then [] else lastLine front ++ [c] := by
  unfold lastLine
  rw [List.reverse_append, List.reverse_singleton, List.singleton_append]
  split
  · rename_i feed
    simp [feed]
  · rename_i other
    simp [other]

/-- The last line starts where the characters of it begin. -/
theorem getLast?_starts (text : List Char) :
    ∃ front, text = front ++ lastLine text ∧
      (0 :: startsAfter 0 text).getLast? = some (byteLength front) := by
  induction text using List.reverseRecOn with
  | nil => exact ⟨[], rfl, rfl⟩
  | append_singleton before c ih =>
    obtain ⟨front, split, last⟩ := ih
    have more : startsAfter 0 (before ++ [c]) =
        startsAfter 0 before ++ if c = '\n' then [byteLength (before ++ [c])] else [] := by
      rw [startsAfter_append, Lexer.byteLength_append, startsAfter, startsAfter, Nat.zero_add]
      rfl
    rw [lastLine_snoc, more]
    by_cases feed : c = '\n'
    · refine ⟨before ++ [c], by simp [feed], ?_⟩
      rw [if_pos feed, ← List.cons_append]
      exact List.getLast?_concat
    · refine ⟨front, ?_, by simpa [feed] using last⟩
      rw [if_neg feed, ← List.append_assoc, ← split]

/-- The line of an offset counts the line feeds in front of it, and its column the characters
after the last of them. -/
theorem position_eq (front back : List Char) :
    (ofText (front ++ back)).position (front ++ back) (byteLength front) =
      ⟨front.count '\n' + 1, (lastLine front).length + 1⟩ := by
  obtain ⟨before, split, last⟩ := getLast?_starts front
  have inside : min (byteLength front) (byteLength (front ++ back)) = byteLength front := by
    rw [Lexer.byteLength_append]
    omega
  have line : slice? (front ++ back) ⟨byteLength before, byteLength front⟩ =
      some (lastLine front) := by
    have cut := slice?_append before (lastLine front) back
    rwa [← List.append_assoc, ← Lexer.byteLength_append, ← split] at cut
  unfold position lineStart?
  simp only [inside, takeWhile_starts, last, Option.getD_some, line, List.length_cons,
    length_startsAfter]

end LineIndex

end OpenCLTree
