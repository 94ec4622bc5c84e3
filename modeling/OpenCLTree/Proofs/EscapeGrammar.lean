import OpenCLTree.Proofs.Lexical.Boundary
import OpenCLTree.Lexical.Escape
import Mathlib.Data.List.TakeWhile

namespace OpenCLTree

/-- The letters before hexadecimal digits of which there must be a certain number. -/
def HasWidth (letter : Char) (width : Nat) : Prop :=
  letter = 'u' ∧ width = 4 ∨ letter = 'U' ∧ width = 8

/-- The escapes of literals: a backslash with a letter or mark that stands for a character, with one
to three octal digits, with `x` and hexadecimal digits, or with `u` and four or `U` and eight of
them. -/
inductive IsEscape : List Char → Prop
  | simple {c : Char} : c ∈ ['n', 't', 'r', 'v', 'b', 'f', 'a', '\\', '\'', '"', '?'] →
      IsEscape ['\\', c]
  | octal {digits : List Char} : digits ≠ [] → digits.length ≤ 3 →
      (∀ c ∈ digits, isOctalDigit c = true) → IsEscape ('\\' :: digits)
  | hexadecimal {digits : List Char} : digits ≠ [] → (∀ c ∈ digits, isHexDigit c = true) →
      IsEscape ('\\' :: 'x' :: digits)
  | universal {letter : Char} {digits : List Char} : HasWidth letter digits.length →
      (∀ c ∈ digits, isHexDigit c = true) → IsEscape ('\\' :: letter :: digits)

/-- The texts whose backslashes all belong to escapes. -/
inductive Escaped : List Char → Prop
  | nothing : Escaped []
  | plain {c : Char} {rest : List Char} : c ≠ '\\' → Escaped rest → Escaped (c :: rest)
  | escape {escape rest : List Char} : IsEscape escape → Escaped rest → Escaped (escape ++ rest)

/-- What a backslash spoils at the start of a text: itself at the end of the text, the `x` behind it,
the `u` or `U` and the digits that are there, or any other character. -/
inductive Spoils : List Char → List Char → Prop
  | alone : Spoils ['\\'] ['\\']
  | hexadecimal (rest : List Char) : Spoils ('\\' :: 'x' :: rest) ['\\', 'x']
  | universal {letter : Char} {width : Nat} (rest : List Char) : HasWidth letter width →
      Spoils ('\\' :: letter :: rest) ('\\' :: letter :: rest.takeWhile isHexDigit)
  | other {c : Char} (rest : List Char) : c ≠ 'x' → c ≠ 'u' → c ≠ 'U' →
      Spoils ('\\' :: c :: rest) ['\\', c]

section Extent

variable {c letter : Char} {text rest tail digits spoiled escape front one two : List Char}
  {count width offset : Nat}

theorem HasWidth.ne_x (known : HasWidth letter width) : letter ≠ 'x' := by
  rcases known with ⟨rfl, _⟩ | ⟨rfl, _⟩ <;> decide

theorem Spoils.unique (first : Spoils text one) (second : Spoils text two) : one = two := by
  have universal {c : Char} {width : Nat} (known : HasWidth c width) (noShort : c ≠ 'u')
      (noLong : c ≠ 'U') : False :=
    known.elim (fun short => noShort short.1) fun long => noLong long.1
  cases first with
  | alone => cases second; rfl
  | hexadecimal rest =>
    cases second with
    | hexadecimal => rfl
    | universal _ known => exact absurd rfl known.ne_x
    | other _ noX => exact absurd rfl noX
  | universal rest known =>
    cases second with
    | hexadecimal => exact absurd rfl known.ne_x
    | universal => rfl
    | other _ _ noShort noLong => exact (universal known noShort noLong).elim
  | other rest noX noShort noLong =>
    cases second with
    | hexadecimal => exact absurd rfl noX
    | universal _ known => exact (universal known noShort noLong).elim
    | other => rfl

theorem ne_backslash_of_isHexDigit (digit : isHexDigit c = true) : c ≠ '\\' := by
  rintro rfl
  cases digit

theorem ne_backslash_of_isOctalDigit (digit : isOctalDigit c = true) : c ≠ '\\' := by
  rintro rfl
  cases digit

theorem mem_simpleEscapes : simpleEscapes.contains c = true ↔
    c ∈ ['n', 't', 'r', 'v', 'b', 'f', 'a', '\\', '\'', '"', '?'] :=
  List.contains_iff_mem

theorem simpleEscapes_of_isOctalDigit (digit : isOctalDigit c = true) :
    simpleEscapes.contains c = false := by
  refine Bool.eq_false_iff.mpr fun simple => ?_
  have listed := mem_simpleEscapes.mp simple
  simp only [List.mem_cons, List.not_mem_nil, or_false] at listed
  rcases listed with rfl | rfl | rfl | rfl | rfl | rfl | rfl | rfl | rfl | rfl | rfl <;> cases digit

theorem escapeExtent_simple (simple : simpleEscapes.contains c = true) :
    escapeExtent (c :: rest) = .ok 1 := by
  rw [escapeExtent, if_pos simple]

theorem escapeExtent_octal (digit : isOctalDigit c = true) : escapeExtent (c :: rest) =
    .ok (1 + ((rest.take 2).takeWhile isOctalDigit).length) := by
  rw [escapeExtent, simpleEscapes_of_isOctalDigit digit, if_neg Bool.false_ne_true, if_pos digit]

theorem escapeExtent_hexadecimal (rest : List Char) : escapeExtent ('x' :: rest) =
    if (rest.takeWhile isHexDigit).isEmpty then .error ['x']
    else .ok (1 + (rest.takeWhile isHexDigit).length) :=
  rfl

theorem escapeExtent_universal (known : HasWidth letter width) (rest : List Char) :
    escapeExtent (letter :: rest) =
      if ((rest.take width).takeWhile isHexDigit).length = width then .ok (1 + width)
      else .error (letter :: (rest.take width).takeWhile isHexDigit) := by
  rcases known with ⟨rfl, rfl⟩ | ⟨rfl, rfl⟩ <;> rfl

theorem escapeExtent_other (noSimple : simpleEscapes.contains c = false)
    (noDigit : isOctalDigit c = false) (noX : c ≠ 'x') (noShort : c ≠ 'u') (noLong : c ≠ 'U') :
    escapeExtent (c :: rest) = .error [c] := by
  rw [escapeExtent, noSimple, noDigit]
  simp [noX, noShort, noLong]

/-- An escape in front of a text is read as one, and with it at most digits of the text. -/
theorem IsEscape.read (isEscape : IsEscape escape) (tail : List Char) : ∃ body plain after,
    escape = '\\' :: body ∧ tail = plain ++ after ∧ (∀ c ∈ plain, c ≠ '\\') ∧
      escapeExtent (body ++ tail) = .ok (body ++ plain).length := by
  cases isEscape with
  | @simple c listed =>
    exact ⟨[c], [], tail, rfl, rfl, nofun, escapeExtent_simple (mem_simpleEscapes.mpr listed)⟩
  | octal nonempty short digits =>
    obtain ⟨first, more, rfl⟩ := List.exists_cons_of_ne_nil nonempty
    obtain ⟨isDigit, digits⟩ := List.forall_mem_cons.mp digits
    have further : ((more ++ tail).take 2).takeWhile isOctalDigit =
        more ++ (tail.take (2 - more.length)).takeWhile isOctalDigit := by
      rw [List.take_append, List.take_of_length_le (Nat.le_of_succ_le_succ short),
        List.takeWhile_append_of_pos digits]
    obtain ⟨after, split⟩ :=
      ((List.takeWhile_prefix isOctalDigit).trans (List.take_prefix (2 - more.length) tail))
    refine ⟨first :: more, _, after, rfl, split.symm, fun c member => ?_, ?_⟩
    · exact ne_backslash_of_isOctalDigit (List.mem_takeWhile_imp member)
    · rw [List.cons_append, escapeExtent_octal isDigit, further, List.cons_append, List.length_cons,
        Nat.add_comm]
  | @hexadecimal digits nonempty all =>
    obtain ⟨after, split⟩ := List.takeWhile_prefix (l := tail) isHexDigit
    have further : (digits ++ tail).takeWhile isHexDigit = digits ++ tail.takeWhile isHexDigit :=
      List.takeWhile_append_of_pos all
    refine ⟨'x' :: digits, _, after, rfl, split.symm, fun c member => ?_, ?_⟩
    · exact ne_backslash_of_isHexDigit (List.mem_takeWhile_imp member)
    · rw [List.cons_append, escapeExtent_hexadecimal, further, if_neg (by simp [nonempty]),
        List.cons_append, List.length_cons, Nat.add_comm]
  | @universal letter digits known all =>
    have here : ((digits ++ tail).take digits.length).takeWhile isHexDigit = digits := by
      rw [List.take_left, List.takeWhile_eq_self_iff.mpr all]
    refine ⟨letter :: digits, [], tail, rfl, rfl, nofun, ?_⟩
    rw [List.cons_append, escapeExtent_universal known, here, if_pos rfl, List.append_nil,
      List.length_cons, Nat.add_comm]

/-- The characters that may stand behind a backslash, sorted by what is asked of those after them. -/
theorem escapeLetter_cases (c : Char) : simpleEscapes.contains c = true ∨ isOctalDigit c = true ∨
    c = 'x' ∨ (∃ width, HasWidth c width) ∨
      (∀ rest, escapeExtent (c :: rest) = .error [c]) ∧ c ≠ 'x' ∧ c ≠ 'u' ∧ c ≠ 'U' := by
  cases simple : simpleEscapes.contains c with
  | true => exact .inl rfl
  | false =>
    cases digit : isOctalDigit c with
    | true => exact .inr (.inl rfl)
    | false =>
      by_cases isX : c = 'x'
      · exact .inr (.inr (.inl isX))
      by_cases isShort : c = 'u'
      · exact .inr (.inr (.inr (.inl ⟨4, .inl ⟨isShort, rfl⟩⟩)))
      by_cases isLong : c = 'U'
      · exact .inr (.inr (.inr (.inl ⟨8, .inr ⟨isLong, rfl⟩⟩)))
      exact .inr (.inr (.inr (.inr
        ⟨fun _ => escapeExtent_other simple digit isX isShort isLong, isX, isShort, isLong⟩)))

/-- The digits among the first characters of a text are in front of it. -/
theorem isPrefix_takeWhile_take (digit : Char → Bool) (width : Nat) (rest : List Char) :
    (rest.take width).takeWhile digit <+: rest :=
  (List.takeWhile_prefix digit).trans (List.take_prefix width rest)

/-- What is read as an escape is one. -/
theorem isEscape_of_extent (read : escapeExtent rest = .ok count) :
    IsEscape ('\\' :: rest.take count) := by
  cases rest with
  | nil => cases read
  | cons c rest =>
    rcases escapeLetter_cases c with simple | digit | rfl | ⟨width, known⟩ | ⟨other, _⟩
    · rw [escapeExtent_simple simple] at read
      cases read
      exact .simple (mem_simpleEscapes.mp simple)
    · rw [escapeExtent_octal digit] at read
      cases read
      have fewer : ((rest.take 2).takeWhile isOctalDigit).length ≤ 2 :=
        Nat.le_trans (List.takeWhile_prefix _).length_le (List.length_take_le 2 rest)
      rw [Nat.add_comm, List.take_succ_cons, ← List.prefix_iff_eq_take.mp (isPrefix_takeWhile_take _ 2 rest)]
      refine .octal (List.cons_ne_nil _ _) (Nat.succ_le_succ fewer) (List.forall_mem_cons.mpr ⟨digit, ?_⟩)
      exact fun c member => List.mem_takeWhile_imp member
    · rw [escapeExtent_hexadecimal] at read
      split at read <;> cases read
      rename_i nonempty
      rw [Nat.add_comm, List.take_succ_cons,
        ← List.prefix_iff_eq_take.mp (List.takeWhile_prefix isHexDigit)]
      exact .hexadecimal (by simpa using nonempty) fun c member => List.mem_takeWhile_imp member
    · rw [escapeExtent_universal known] at read
      split at read <;> cases read
      rename_i length
      have digits := List.prefix_iff_eq_take.mp (isPrefix_takeWhile_take isHexDigit width rest)
      rw [length] at digits
      rw [Nat.add_comm, List.take_succ_cons, ← digits]
      exact .universal (length.symm ▸ known) fun c member => List.mem_takeWhile_imp member
    · cases (other rest).symm.trans read

/-- What is not read as an escape is spoiled. -/
theorem spoils_of_extent (read : escapeExtent rest = .error spoiled) :
    Spoils ('\\' :: rest) ('\\' :: spoiled) := by
  cases rest with
  | nil =>
    cases read
    exact .alone
  | cons c rest =>
    rcases escapeLetter_cases c with simple | digit | rfl | ⟨width, known⟩ | ⟨other, noX, noShort, noLong⟩
    · cases (escapeExtent_simple simple).symm.trans read
    · cases (escapeExtent_octal digit).symm.trans read
    · rw [escapeExtent_hexadecimal] at read
      split at read <;> cases read
      exact .hexadecimal rest
    · rw [escapeExtent_universal known, ← List.take_takeWhile] at read
      split at read <;> cases read
      rename_i fewer
      rw [List.take_of_length_le (by rw [List.length_take] at fewer; omega)]
      exact .universal rest known
    · cases (other rest).symm.trans read
      exact .other rest noX noShort noLong

end Extent

section Scan

variable {text front back escape plain rest sequence : List Char} {offset : Nat}

theorem invalidEscapeFrom_plain (noBackslash : ∀ c ∈ plain, c ≠ '\\') (offset : Nat)
    (rest : List Char) : invalidEscapeFrom offset (plain ++ rest) =
      invalidEscapeFrom (offset + byteLength plain) rest := by
  induction plain generalizing offset with
  | nil => rfl
  | cons c plain ih =>
    obtain ⟨other, noBackslash⟩ := List.forall_mem_cons.mp noBackslash
    rw [List.cons_append, invalidEscapeFrom, if_neg other, ih noBackslash, byteLength, Nat.add_assoc]

/-- An escape is passed over. What is read of the digits behind it would be passed over anyway. -/
theorem invalidEscapeFrom_escape (isEscape : IsEscape escape) (offset : Nat) (rest : List Char) :
    invalidEscapeFrom offset (escape ++ rest) =
      invalidEscapeFrom (offset + byteLength escape) rest := by
  obtain ⟨body, plain, after, rfl, rfl, noBackslash, extent⟩ := isEscape.read rest
  rw [List.cons_append, invalidEscapeFrom, if_pos rfl, extent, ← List.append_assoc]
  dsimp only
  rw [List.take_left, List.drop_left, invalidEscapeFrom_plain noBackslash,
    Lexer.byteLength_append, byteLength, Nat.add_assoc, Nat.add_assoc, Nat.add_assoc]

/-- Where all backslashes belong to escapes, looking for another one goes on behind. -/
theorem Escaped.scan (escaped : Escaped front) (offset : Nat) (back : List Char) :
    invalidEscapeFrom offset (front ++ back) =
      invalidEscapeFrom (offset + byteLength front) back := by
  induction escaped generalizing offset with
  | nothing => rfl
  | plain other _ ih =>
    rw [List.cons_append, invalidEscapeFrom, if_neg other, ih, byteLength, Nat.add_assoc]
  | escape isEscape _ ih =>
    rw [List.append_assoc, invalidEscapeFrom_escape isEscape, ih, Lexer.byteLength_append,
      Nat.add_assoc]

/-- Whether a text begins with a backslash that starts no escape, and spoils a sequence. -/
structure BeginsSpoiled (text sequence : List Char) : Prop where
  backslash : text.head? = some '\\'
  noEscape : ∀ escape, IsEscape escape → ¬ escape <+: text
  spoils : Spoils text sequence

/-- A backslash starts no escape just if none is read. -/
theorem beginsSpoiled_iff : BeginsSpoiled text sequence ↔
    ∃ rest spoiled, text = '\\' :: rest ∧ sequence = '\\' :: spoiled ∧
      escapeExtent rest = .error spoiled := by
  constructor
  · rintro ⟨backslash, noEscape, spoils⟩
    obtain ⟨rest, rfl⟩ := List.head?_eq_some_iff.mp backslash
    cases extent : escapeExtent rest with
    | error spoiled => exact ⟨rest, spoiled, rfl, spoils.unique (spoils_of_extent extent), extent⟩
    | ok count =>
      refine absurd ?_ (noEscape _ (isEscape_of_extent extent))
      exact List.cons_prefix_cons.mpr ⟨rfl, List.take_prefix count rest⟩
  · rintro ⟨rest, spoiled, rfl, rfl, extent⟩
    refine ⟨rfl, fun escape isEscape => ?_, spoils_of_extent extent⟩
    rintro ⟨tail, split⟩
    obtain ⟨body, _, _, rfl, _, _, read⟩ := isEscape.read tail
    obtain rfl := (List.cons.inj split).2
    cases extent.symm.trans read

theorem BeginsSpoiled.found (begins : BeginsSpoiled text sequence) (offset : Nat) :
    invalidEscapeFrom offset text = some (offset, sequence) := by
  obtain ⟨rest, spoiled, rfl, rfl, extent⟩ := beginsSpoiled_iff.mp begins
  rw [invalidEscapeFrom, if_pos rfl, extent]

/-- Every text consists of escapes and other characters up to the first backslash that starts no
escape, or up to its end. -/
theorem exists_escaped_front (text : List Char) : ∃ front back, text = front ++ back ∧ Escaped front ∧
    (back = [] ∨ ∃ sequence, BeginsSpoiled back sequence) := by
  -- The recursion of the search: it knows where the escape in front of a text ends.
  fun_induction invalidEscapeFrom 0 text with
  | case1 => exact ⟨[], [], rfl, .nothing, .inl rfl⟩
  | case2 _ rest spoiled extent =>
    have begins := beginsSpoiled_iff.mpr ⟨rest, spoiled, rfl, rfl, extent⟩
    exact ⟨[], _, rfl, .nothing, .inr ⟨_, begins⟩⟩
  | case3 _ rest count extent ih =>
    obtain ⟨front, back, split, escaped, ends⟩ := ih
    refine ⟨'\\' :: rest.take count ++ front, back, ?_, .escape (isEscape_of_extent extent) escaped, ends⟩
    rw [List.append_assoc, ← split, List.cons_append, List.take_append_drop]
  | case4 _ c rest other ih =>
    obtain ⟨front, back, split, escaped, ends⟩ := ih
    exact ⟨c :: front, back, congrArg (c :: ·) split, .plain other escaped, ends⟩

end Scan

theorem findInvalidEscape_of_escaped {literal : List Char} (escaped : Escaped literal) :
    findInvalidEscape literal = none := by
  have scan := escaped.scan 0 []
  rwa [List.append_nil, invalidEscapeFrom] at scan

theorem findInvalidEscape_append {front back sequence : List Char} (escaped : Escaped front)
    (begins : BeginsSpoiled back sequence) :
    findInvalidEscape (front ++ back) = some (byteLength front, sequence) := by
  rw [findInvalidEscape, escaped.scan, begins.found, Nat.zero_add]

/-- A literal passes just if all its backslashes belong to escapes. In any other the first backslash
that starts no escape is found, with the sequence that it spoils. -/
theorem findInvalidEscape_exact (literal : List Char) :
    (findInvalidEscape literal = none ↔ Escaped literal) ∧
    ∀ offset sequence, findInvalidEscape literal = some (offset, sequence) ↔
      ∃ front back, literal = front ++ back ∧ byteLength front = offset ∧ Escaped front ∧
        BeginsSpoiled back sequence := by
  refine ⟨⟨fun none => ?_, findInvalidEscape_of_escaped⟩, fun offset sequence => ⟨fun some => ?_, ?_⟩⟩
  · obtain ⟨front, back, rfl, escaped, rfl | ⟨sequence, begins⟩⟩ := exists_escaped_front literal
    · rwa [List.append_nil]
    · cases (findInvalidEscape_append escaped begins).symm.trans none
  · obtain ⟨front, back, rfl, escaped, rfl | ⟨spoiled, begins⟩⟩ := exists_escaped_front literal
    · rw [List.append_nil, findInvalidEscape_of_escaped escaped] at some
      cases some
    · cases (findInvalidEscape_append escaped begins).symm.trans some
      exact ⟨front, back, rfl, rfl, escaped, begins⟩
  · rintro ⟨front, back, rfl, rfl, escaped, begins⟩
    exact findInvalidEscape_append escaped begins

end OpenCLTree
