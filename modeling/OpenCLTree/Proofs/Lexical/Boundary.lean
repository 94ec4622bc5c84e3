import OpenCLTree.Proofs.Lexical.Stream

namespace OpenCLTree

/-- Whether a character starts at an offset, or the text ends there. -/
def IsBoundary (text : List Char) (offset : Nat) : Prop :=
  ∃ front back, text = front ++ back ∧ byteLength front = offset

/-- Whether a span runs forwards inside a text and splits no character at either end. -/
structure Span.IsUsable (text : List Char) (span : Span) : Prop where
  forwards : span.start ≤ span.stop
  within : span.stop ≤ byteLength text
  start : IsBoundary text span.start
  stop : IsBoundary text span.stop

variable {text front middle back : List Char} {offset : Nat} {span : Span}

theorem byteLength_eq_zero : byteLength text = 0 ↔ text = [] := by
  cases text with
  | nil => simp [byteLength]
  | cons c rest => simpa using Nat.ne_of_gt (Lexer.byteLength_pos c rest)

theorem byteLength_cons_eq_succ (c : Char) (rest : List Char) :
    ∃ size, byteLength (c :: rest) = size + 1 :=
  Nat.exists_eq_succ_of_ne_zero (Nat.ne_of_gt (Lexer.byteLength_pos c rest))

@[simp] theorem dropBytes?_append (front back : List Char) :
    dropBytes? (byteLength front) (front ++ back) = some back := by
  induction front with
  | nil => rw [byteLength, dropBytes?, List.nil_append]
  | cons c front ih =>
    obtain ⟨size, length⟩ := byteLength_cons_eq_succ c front
    rw [length, List.cons_append, dropBytes?, ← length, byteLength,
      if_pos (Nat.le_add_right _ _), Nat.add_sub_cancel_left]
    exact ih

@[simp] theorem takeBytes?_append (front back : List Char) :
    takeBytes? (byteLength front) (front ++ back) = some front := by
  induction front with
  | nil => rw [byteLength, takeBytes?]
  | cons c front ih =>
    obtain ⟨size, length⟩ := byteLength_cons_eq_succ c front
    rw [length, List.cons_append, takeBytes?, ← length, byteLength,
      if_pos (Nat.le_add_right _ _), Nat.add_sub_cancel_left, ih]
    rfl

theorem dropBytes?_eq_some :
    dropBytes? offset text = some back ↔ ∃ front, text = front ++ back ∧ byteLength front = offset := by
  constructor
  · intro dropped
    induction text generalizing offset with
    | nil =>
      cases offset with
      | zero => exact ⟨[], Option.some.inj dropped, rfl⟩
      | succ offset => cases dropped
    | cons c rest ih =>
      cases offset with
      | zero => exact ⟨[], Option.some.inj dropped, rfl⟩
      | succ offset =>
        rw [dropBytes?] at dropped
        split at dropped
        · obtain ⟨front, rfl, length⟩ := ih dropped
          refine ⟨c :: front, rfl, ?_⟩
          rw [byteLength]
          omega
        · cases dropped
  · rintro ⟨front, rfl, rfl⟩
    exact dropBytes?_append front back

theorem takeBytes?_eq_some :
    takeBytes? offset text = some front ↔ ∃ back, text = front ++ back ∧ byteLength front = offset := by
  constructor
  · intro taken
    induction text generalizing offset front with
    | nil =>
      cases offset with
      | zero => exact ⟨[], by cases taken; rfl, by cases taken; rfl⟩
      | succ offset => cases taken
    | cons c rest ih =>
      cases offset with
      | zero => exact ⟨c :: rest, by cases taken; rfl, by cases taken; rfl⟩
      | succ offset =>
        rw [takeBytes?] at taken
        split at taken
        · obtain ⟨tail, more, rfl⟩ := Option.map_eq_some_iff.mp taken
          obtain ⟨back, rfl, length⟩ := ih more
          refine ⟨back, rfl, ?_⟩
          rw [byteLength]
          omega
        · cases taken
  · rintro ⟨back, rfl, rfl⟩
    exact takeBytes?_append front back

/-- A slice is what stands between the two ends of its span. -/
theorem slice?_eq_some :
    slice? text span = some middle ↔ ∃ front back, text = front ++ (middle ++ back) ∧
      byteLength front = span.start ∧ byteLength front + byteLength middle = span.stop := by
  unfold slice?
  constructor
  · intro sliced
    split at sliced
    · obtain ⟨after, dropped, taken⟩ := Option.bind_eq_some_iff.mp sliced
      obtain ⟨front, rfl, atStart⟩ := dropBytes?_eq_some.mp dropped
      obtain ⟨back, rfl, length⟩ := takeBytes?_eq_some.mp taken
      refine ⟨front, back, rfl, atStart, ?_⟩
      omega
    · cases sliced
  · rintro ⟨front, back, rfl, atStart, atStop⟩
    have length : span.stop - span.start = byteLength middle := by omega
    rw [if_pos (by omega), ← atStart, dropBytes?_append, Option.bind_some, atStart, length]
    exact takeBytes?_append middle back

theorem slice?_append (front middle back : List Char) :
    slice? (front ++ (middle ++ back)) ⟨byteLength front, byteLength front + byteLength middle⟩ =
      some middle :=
  slice?_eq_some.mpr ⟨front, back, rfl, rfl, rfl⟩

/-- Two slices that meet make one. -/
theorem slice?_join {start stop : Nat} {left right : List Char}
    (before : slice? text ⟨start, offset⟩ = some left)
    (after : slice? text ⟨offset, stop⟩ = some right) :
    slice? text ⟨start, stop⟩ = some (left ++ right) := by
  obtain ⟨front, rest, split, atStart, atOffset⟩ := slice?_eq_some.mp before
  obtain ⟨front', back, split', atOffset', atStop⟩ := slice?_eq_some.mp after
  have dropped : rest = right ++ back := by
    have same : byteLength (front ++ left) = byteLength front' := by
      rw [Lexer.byteLength_append]
      exact atOffset.trans atOffset'.symm
    refine Option.some.inj ((dropBytes?_append (front ++ left) rest).symm.trans ?_)
    rw [List.append_assoc, ← split, split', same, dropBytes?_append]
  refine slice?_eq_some.mpr ⟨front, back, ?_, atStart, ?_⟩
  · rw [split, dropped, List.append_assoc]
  · rw [Lexer.byteLength_append]
    dsimp only at atOffset atOffset' atStop ⊢
    omega

/-- A slice of a slice is a slice. -/
theorem slice?_slice {inner : Span} {part : List Char} (outer : slice? text span = some middle)
    (cut : slice? middle inner = some part) :
    slice? text ⟨span.start + inner.start, span.start + inner.stop⟩ = some part := by
  obtain ⟨front, back, rfl, atStart, atStop⟩ := slice?_eq_some.mp outer
  obtain ⟨before, after, rfl, innerStart, innerStop⟩ := slice?_eq_some.mp cut
  refine slice?_eq_some.mpr ⟨front ++ before, after ++ back, ?_, ?_, ?_⟩
  · simp only [List.append_assoc]
  · rw [Lexer.byteLength_append, atStart, innerStart]
  · rw [Lexer.byteLength_append]
    dsimp only
    omega

namespace IsBoundary

theorem le (boundary : IsBoundary text offset) : offset ≤ byteLength text := by
  obtain ⟨front, back, rfl, rfl⟩ := boundary
  rw [Lexer.byteLength_append]
  exact Nat.le_add_right _ _

theorem zero (text : List Char) : IsBoundary text 0 :=
  ⟨[], text, rfl, rfl⟩

theorem size (text : List Char) : IsBoundary text (byteLength text) :=
  ⟨text, [], (List.append_nil text).symm, rfl⟩

/-- Two boundaries in order cut a text into three. -/
theorem between {start stop : Nat} (first : IsBoundary text start) (last : IsBoundary text stop)
    (order : start ≤ stop) :
    ∃ front middle back, text = front ++ (middle ++ back) ∧ byteLength front = start ∧
      byteLength front + byteLength middle = stop := by
  obtain ⟨front, after, rfl, atStart⟩ := first
  obtain ⟨before, back, split, atStop⟩ := last
  rcases List.append_eq_append_iff.mp split with ⟨middle, rfl, rfl⟩ | ⟨middle, rfl, rfl⟩
  · rw [Lexer.byteLength_append] at atStop
    exact ⟨front, middle, back, rfl, atStart, atStop⟩
  · rw [Lexer.byteLength_append] at atStart
    obtain rfl := byteLength_eq_zero.mp (show byteLength middle = 0 by omega)
    refine ⟨before, [], after, by simp, ?_, ?_⟩
    · simp only [byteLength] at atStart
      omega
    · simpa only [byteLength, Nat.add_zero] using atStop

end IsBoundary

namespace Span

/-- The usable spans of a text are those that can be cut out of it. -/
theorem isUsable_iff : span.IsUsable text ↔ ∃ part, slice? text span = some part := by
  constructor
  · intro usable
    obtain ⟨front, middle, back, split, atStart, atStop⟩ :=
      usable.start.between usable.stop usable.forwards
    exact ⟨middle, slice?_eq_some.mpr ⟨front, back, split, atStart, atStop⟩⟩
  · rintro ⟨part, sliced⟩
    obtain ⟨front, back, rfl, atStart, atStop⟩ := slice?_eq_some.mp sliced
    have stop : IsBoundary (front ++ (part ++ back)) span.stop :=
      ⟨front ++ part, back, by rw [List.append_assoc], by rw [Lexer.byteLength_append, atStop]⟩
    exact ⟨by omega, stop.le, ⟨front, part ++ back, rfl, atStart⟩, stop⟩

theorem isUsable_of_slice? {part : List Char} (sliced : slice? text span = some part) :
    span.IsUsable text :=
  isUsable_iff.mpr ⟨part, sliced⟩

end Span

end OpenCLTree
