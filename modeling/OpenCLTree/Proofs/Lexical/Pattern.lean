import OpenCLTree.Lexical.Pattern

namespace OpenCLTree

namespace Pattern

/-- The texts that a pattern describes. -/
inductive Matches : Pattern → List Char → Prop
  | empty : Matches empty []
  | one {accepts : Char → Bool} {c : Char} : accepts c = true → Matches (one accepts) [c]
  | seq {first second : Pattern} {front back : List Char} :
      Matches first front → Matches second back → Matches (seq first second) (front ++ back)
  | left {left right : Pattern} {text : List Char} :
      Matches left text → Matches (either left right) text
  | right {left right : Pattern} {text : List Char} :
      Matches right text → Matches (either left right) text
  | none {body : Pattern} : Matches (many body) []
  | more {body : Pattern} {front back : List Char} :
      Matches body front → Matches (many body) back → Matches (many body) (front ++ back)

@[simp]
theorem not_matches_never (text : List Char) : ¬ never.Matches text := by
  intro found
  cases found

@[simp]
theorem matches_empty {text : List Char} : empty.Matches text ↔ text = [] := by
  constructor
  · rintro ⟨⟩
    rfl
  · rintro rfl
    exact .empty

@[simp]
theorem matches_one {accepts : Char → Bool} {text : List Char} :
    (one accepts).Matches text ↔ ∃ c, accepts c = true ∧ text = [c] := by
  constructor
  · intro found
    cases found with
    | one accepted => exact ⟨_, accepted, rfl⟩
  · rintro ⟨c, accepted, rfl⟩
    exact .one accepted

theorem matches_seq {first second : Pattern} {text : List Char} :
    (seq first second).Matches text ↔
      ∃ front back, text = front ++ back ∧ first.Matches front ∧ second.Matches back := by
  constructor
  · intro found
    cases found with
    | seq before after => exact ⟨_, _, rfl, before, after⟩
  · rintro ⟨front, back, rfl, before, after⟩
    exact .seq before after

@[simp]
theorem matches_either {left right : Pattern} {text : List Char} :
    (either left right).Matches text ↔ left.Matches text ∨ right.Matches text := by
  constructor
  · intro found
    cases found with
    | left found => exact .inl found
    | right found => exact .inr found
  · exact fun found => found.elim .left .right

/-- A repetition that matches some text starts with a nonempty match of its body. -/
theorem matches_many_cons {body : Pattern} {c : Char} {rest : List Char} :
    (many body).Matches (c :: rest) ↔
      ∃ front back, rest = front ++ back ∧ body.Matches (c :: front) ∧ (many body).Matches back := by
  constructor
  · intro found
    generalize atPattern : many body = pattern at found
    generalize atText : c :: rest = text at found
    induction found with
    | none => cases atText
    | @more inner front back before after _ ih =>
      cases atPattern
      cases front with
      | nil => exact ih rfl atText
      | cons head front =>
        obtain ⟨rfl, rfl⟩ := List.cons.inj atText
        exact ⟨front, back, rfl, before, after⟩
    | empty | one | seq | left | right => cases atPattern
  · rintro ⟨front, back, rfl, before, after⟩
    exact .more before after

theorem matches_many_one {accepts : Char → Bool} {text : List Char} :
    (many (one accepts)).Matches text ↔ ∀ c ∈ text, accepts c = true := by
  induction text with
  | nil => simp [Matches.none]
  | cons c rest ih =>
    rw [matches_many_cons, List.forall_mem_cons]
    constructor
    · rintro ⟨front, back, rfl, one, many⟩
      obtain ⟨d, accepted, same⟩ := matches_one.mp one
      obtain ⟨rfl, rfl⟩ := List.cons.inj same
      exact ⟨accepted, ih.mp many⟩
    · rintro ⟨here, later⟩
      exact ⟨[], rest, rfl, .one here, ih.mpr later⟩

theorem nullable_iff (pattern : Pattern) : pattern.nullable = true ↔ pattern.Matches [] := by
  induction pattern with
  | never | empty | one => simp [nullable]
  | seq first second ihFirst ihSecond =>
    simp [nullable, ihFirst, ihSecond, matches_seq, and_assoc]
  | either left right ihLeft ihRight => simp [nullable, ihLeft, ihRight]
  | many body => simp [nullable, Matches.none]

theorem matches_andThen {first second : Pattern} {text : List Char} :
    (andThen first second).Matches text ↔ (seq first second).Matches text := by
  unfold andThen
  split
  · simp [matches_seq]
  · rw [matches_seq]
    constructor
    · exact fun found => ⟨[], text, rfl, .empty, found⟩
    · rintro ⟨front, back, rfl, before, after⟩
      rwa [matches_empty.mp before]
  · rfl

theorem matches_orElse {left right : Pattern} {text : List Char} :
    (orElse left right).Matches text ↔ left.Matches text ∨ right.Matches text := by
  unfold orElse
  split <;> simp

/-- A sequence that matches a nonempty text splits it within its first part, or after it when
that part can be empty. -/
theorem matches_seq_cons {first second : Pattern} {c : Char} {rest : List Char} :
    (seq first second).Matches (c :: rest) ↔
      (∃ front back, rest = front ++ back ∧ first.Matches (c :: front) ∧ second.Matches back) ∨
        first.Matches [] ∧ second.Matches (c :: rest) := by
  rw [matches_seq]
  constructor
  · rintro ⟨front, back, split, before, after⟩
    cases front with
    | nil => exact .inr ⟨before, split ▸ after⟩
    | cons head front =>
      obtain ⟨rfl, rfl⟩ := List.cons.inj split
      exact .inl ⟨front, back, rfl, before, after⟩
  · rintro (⟨front, back, rfl, before, after⟩ | ⟨before, after⟩)
    · exact ⟨c :: front, back, rfl, before, after⟩
    · exact ⟨[], c :: rest, rfl, before, after⟩

/-- The derivative of a pattern describes what may follow a character. -/
theorem matches_derivative {pattern : Pattern} {c : Char} {rest : List Char} :
    (pattern.derivative c).Matches rest ↔ pattern.Matches (c :: rest) := by
  induction pattern generalizing rest with
  | never | empty => simp [derivative]
  | one accepts =>
    rw [matches_one]
    unfold derivative
    split
    · rename_i accepted
      constructor
      · intro found
        exact ⟨c, accepted, by rw [matches_empty.mp found]⟩
      · rintro ⟨_, _, same⟩
        exact matches_empty.mpr (List.cons.inj same).2
    · rename_i refused
      constructor
      · exact fun found => absurd found (not_matches_never rest)
      · rintro ⟨_, accepted, same⟩
        exact absurd ((List.cons.inj same).1 ▸ accepted) refused
  | seq first second ihFirst ihSecond =>
    have within : (andThen (first.derivative c) second).Matches rest ↔
        ∃ front back, rest = front ++ back ∧ first.Matches (c :: front) ∧ second.Matches back := by
      simp only [matches_andThen, matches_seq, ihFirst]
    unfold derivative
    split
    · rename_i canBeEmpty
      rw [matches_orElse, within, ihSecond, matches_seq_cons]
      simp [(nullable_iff first).mp canBeEmpty]
    · rename_i cannotBeEmpty
      rw [within, matches_seq_cons]
      simp [mt (nullable_iff first).mpr cannotBeEmpty]
  | either left right ihLeft ihRight =>
    rw [derivative, matches_orElse, ihLeft, ihRight, matches_either]
  | many body ih =>
    rw [derivative, matches_andThen, matches_seq, matches_many_cons]
    simp only [ih]

theorem not_matches_of_isNever {pattern : Pattern} (isNever : pattern.isNever = true)
    (text : List Char) : ¬ pattern.Matches text := by
  cases pattern with
  | never => simp
  | _ => cases isNever

@[simp]
theorem matches_char {c : Char} {text : List Char} : (char c).Matches text ↔ text = [c] := by
  simp [char]

/-- A fixed spelling matches nothing but itself. -/
@[simp]
theorem matches_text {spelling text : List Char} :
    (Pattern.text spelling).Matches text ↔ text = spelling := by
  fun_induction Pattern.text spelling generalizing text with
  | case1 => simp
  | case2 c => simp
  | case3 c rest _ ih => simp [matches_seq, ih]

/-- Whether a character stands in no text that a pattern describes. -/
def avoids (c : Char) : Pattern → Bool
  | never | empty => true
  | one accepts => !accepts c
  | seq first second => first.avoids c && second.avoids c
  | either left right => left.avoids c && right.avoids c
  | many body => body.avoids c

theorem Matches.notMem {pattern : Pattern} {c : Char} {text : List Char}
    (found : pattern.Matches text) (avoids : pattern.avoids c = true) : c ∉ text := by
  induction found with
  | empty | none => exact List.not_mem_nil
  | @one accepts other accepted =>
    rintro (_ | ⟨_, ⟨⟩⟩)
    simp [Pattern.avoids, accepted] at avoids
  | seq _ _ ihFirst ihSecond =>
    simp only [Pattern.avoids, Bool.and_eq_true] at avoids
    exact List.not_mem_append (ihFirst avoids.1) (ihSecond avoids.2)
  | left _ ih =>
    simp only [Pattern.avoids, Bool.and_eq_true] at avoids
    exact ih avoids.1
  | right _ ih =>
    simp only [Pattern.avoids, Bool.and_eq_true] at avoids
    exact ih avoids.2
  | more _ _ ihFirst ihRest => exact List.not_mem_append (ihFirst avoids) (ihRest avoids)

/-- Whether a text that a pattern describes can begin with a character. -/
def starts (c : Char) : Pattern → Bool
  | never | empty => false
  | one accepts => accepts c
  | seq first second => first.starts c || (first.nullable && second.starts c)
  | either left right => left.starts c || right.starts c
  | many body => body.starts c

theorem Matches.starts {pattern : Pattern} {c : Char} {rest : List Char}
    (found : pattern.Matches (c :: rest)) : pattern.starts c = true := by
  induction pattern generalizing rest with
  | never => exact absurd found (not_matches_never _)
  | empty => simp at found
  | one accepts =>
    obtain ⟨_, accepted, same⟩ := matches_one.mp found
    exact (List.cons.inj same).1 ▸ accepted
  | seq first second ihFirst ihSecond =>
    rw [Pattern.starts, Bool.or_eq_true, Bool.and_eq_true, nullable_iff]
    obtain ⟨_, _, _, before, _⟩ | ⟨nothing, after⟩ := matches_seq_cons.mp found
    · exact .inl (ihFirst before)
    · exact .inr ⟨nothing, ihSecond after⟩
  | either left right ihLeft ihRight =>
    rw [Pattern.starts, Bool.or_eq_true]
    exact (matches_either.mp found).imp ihLeft ihRight
  | many body ih =>
    obtain ⟨_, _, _, before, _⟩ := matches_many_cons.mp found
    exact ih before

end Pattern

end OpenCLTree
