import OpenCLTree.Proofs.LineIndex

namespace OpenCLTree

/-- The bytes of a text in UTF-8. -/
def utf8Bytes (text : List Char) : List UInt8 :=
  text.flatMap String.utf8EncodeChar

/-- The byte of a line feed. -/
def lineFeedByte : UInt8 := 10

/-- Whether a position comes before another: in an earlier line, or further left in the same. -/
def Position.Before (one two : Position) : Prop :=
  one.line < two.line ∨ one.line = two.line ∧ one.column < two.column

/-- The length of a text is counted in the bytes of its encoding. -/
theorem length_utf8Bytes (text : List Char) : (utf8Bytes text).length = byteLength text := by
  induction text with
  | nil => rfl
  | cons c rest ih =>
    rw [utf8Bytes, List.flatMap_cons, List.length_append, String.length_utf8EncodeChar, byteLength]
    exact congrArg (c.utf8Size + ·) ih

/-- No other character has the byte of a line feed in it: what is no ASCII is encoded by bytes from
128 on. -/
theorem eq_lineFeed_of_mem {c : Char} (member : lineFeedByte ∈ String.utf8EncodeChar c) : c = '\n' := by
  have value_eq {value : Nat} (low : value < 256) (same : lineFeedByte = UInt8.ofNat value) :
      value = 10 := by
    have values := congrArg UInt8.toNat same
    rw [UInt8.toNat_ofNat_of_lt' low] at values
    exact values.symm
  have above {value : Nat} (low : value < 256) (high : 128 ≤ value) :
      lineFeedByte ≠ UInt8.ofNat value := by
    intro same
    have value := value_eq low same
    omega
  unfold String.utf8EncodeChar at member
  dsimp only at member
  split at member
  · rename_i low
    have value := value_eq (by omega) (List.mem_singleton.mp member)
    exact Char.ext (UInt32.toNat_inj.mp value)
  · exfalso
    split at member
    · simp only [List.mem_cons, List.not_mem_nil, or_false] at member
      rcases member with same | same <;> exact above (by omega) (by omega) same
    split at member
    · simp only [List.mem_cons, List.not_mem_nil, or_false] at member
      rcases member with same | same | same <;> exact above (by omega) (by omega) same
    · simp only [List.mem_cons, List.not_mem_nil, or_false] at member
      rcases member with same | same | same | same <;> exact above (by omega) (by omega) same

namespace LineIndex

/-- The lines that start up to an offset after the first are counted by the line feeds among the
bytes in front of it, also where it is inside a character. -/
theorem length_takeWhile_startsAfter (text : List Char) (start offset : Nat) :
    ((startsAfter start text).takeWhile (· ≤ offset)).length =
      ((utf8Bytes text).take (offset - start)).count lineFeedByte := by
  induction text generalizing start with
  | nil => simp [startsAfter, utf8Bytes]
  | cons c rest ih =>
    have later := ih (start + c.utf8Size)
    rw [← Nat.sub_sub] at later
    rw [utf8Bytes, List.flatMap_cons, List.take_append, String.length_utf8EncodeChar, List.count_append]
    change _ = _ + ((utf8Bytes rest).take _).count _
    rw [← later, startsAfter]
    split
    · rename_i feed
      have bytes : String.utf8EncodeChar c = [lineFeedByte] := by rw [feed]; rfl
      rw [bytes]
      by_cases reached : start + c.utf8Size ≤ offset
      · have size := c.utf8Size_pos
        rw [List.takeWhile_cons_of_pos (by simpa using reached), List.length_cons,
          List.take_of_length_le (by rw [List.length_singleton]; omega), List.count_singleton_self,
          Nat.add_comm]
      · have size : c.utf8Size = 1 := by rw [feed]; rfl
        rw [List.takeWhile_cons_of_neg (by simpa using reached), later, size,
          show offset - start = 0 by omega]
        rfl
    · rename_i other
      rw [List.count_eq_zero_of_not_mem, Nat.zero_add]
      exact fun member => other (eq_lineFeed_of_mem (List.mem_of_mem_take member))

theorem line_position (text : List Char) (offset : Nat) :
    ((ofText text).position text offset).line =
      1 + ((utf8Bytes text).take (min offset (byteLength text))).count lineFeedByte := by
  change ((0 :: startsAfter 0 text).takeWhile (· ≤ min offset (byteLength text))).length = _
  rw [List.takeWhile_cons_of_pos (by simp), List.length_cons, length_takeWhile_startsAfter, Nat.sub_zero,
    Nat.add_comm]

theorem lastLine_append (front : List Char) {middle : List Char} (noFeed : '\n' ∉ middle) :
    lastLine (front ++ middle) = lastLine front ++ middle := by
  have others : ∀ c ∈ middle.reverse, decide (c ≠ '\n') = true := fun c member =>
    decide_eq_true (ne_of_mem_of_not_mem (List.mem_reverse.mp member) noFeed)
  rw [lastLine, List.reverse_append, List.takeWhile_append_of_pos others, List.reverse_append,
    List.reverse_reverse, lastLine]

/-- Going on by some characters, a position comes later. -/
theorem position_before {text : List Char} {start stop : Nat} (first : IsBoundary text start)
    (last : IsBoundary text stop) (less : start < stop) :
    ((ofText text).position text start).Before ((ofText text).position text stop) := by
  obtain ⟨front, middle, back, rfl, rfl, rfl⟩ := first.between last (Nat.le_of_lt less)
  rw [position_eq, ← List.append_assoc, ← Lexer.byteLength_append, position_eq]
  by_cases feed : '\n' ∈ middle
  · have more := List.count_pos_iff.mpr feed
    refine .inl (Nat.succ_lt_succ ?_)
    rw [List.count_append]
    omega
  · have some : middle ≠ [] := by
      rintro rfl
      exact absurd less (Nat.lt_irrefl _)
    have longer := List.length_pos_iff.mpr some
    refine .inr ⟨?_, Nat.succ_lt_succ ?_⟩
    · rw [List.count_append, List.count_eq_zero_of_not_mem feed, Nat.add_zero]
    · rw [lastLine_append front feed, List.length_append]
      omega

theorem position_min (text : List Char) (offset : Nat) :
    (ofText text).position text (min offset (byteLength text)) = (ofText text).position text offset := by
  unfold position
  rw [Nat.min_eq_left (Nat.min_le_right _ _)]

/-- Lines and columns are counted by line feeds and characters, up to the end of the text. Positions
grow from character to character, and the end of the text is in the last line. -/
theorem position_counts (text : List Char) :
    (∀ offset, ((ofText text).position text offset).line =
      1 + ((utf8Bytes text).take (min offset (byteLength text))).count lineFeedByte) ∧
    (∀ offset front back, text = front ++ back → byteLength front = min offset (byteLength text) →
      ((ofText text).position text offset).column = 1 + (lastLine front).length) ∧
    (∀ start stop, IsBoundary text start → IsBoundary text stop → start < stop →
      ((ofText text).position text start).Before ((ofText text).position text stop)) ∧
    (ofText text).lineCount = ((ofText text).position text (byteLength text)).line := by
  refine ⟨line_position text, fun offset front back split atFront => ?_,
    fun _ _ first last => position_before first last, ?_⟩
  · rw [← position_min, ← atFront, split, position_eq]
    exact Nat.add_comm _ _
  · have atEnd := position_eq text []
    rw [List.append_nil] at atEnd
    rw [atEnd, lineCount, ofText, List.length_cons, length_startsAfter]

end LineIndex

end OpenCLTree
