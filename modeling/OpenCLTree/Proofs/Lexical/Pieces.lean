import OpenCLTree.Proofs.Lexical.Accessor
import OpenCLTree.Proofs.Lexical.Cuts
import OpenCLTree.Proofs.Lexical.Space

namespace OpenCLTree

namespace LexError

/-- Errors in the order in which a lexer keeps them: the last of the source first, and one at
most at an offset. -/
abbrev Sorted (errors : List LexError) : Prop :=
  errors.Pairwise fun later earlier => earlier.offset < later.offset

variable {error : LexError} {errors : List LexError}

theorem insertInto_of_lt (last : ∀ other ∈ errors, other.offset < error.offset) :
    error.insertInto errors = error :: errors := by
  cases errors with
  | nil => rfl
  | cons other rest => exact if_pos (last other List.mem_cons_self)

/-- An error that is known already changes nothing. -/
theorem insertInto_of_mem (sorted : Sorted errors) (member : error ∈ errors) :
    error.insertInto errors = errors := by
  induction errors with
  | nil => cases member
  | cons other rest ih =>
    obtain ⟨below, sorted⟩ := List.pairwise_cons.mp sorted
    unfold insertInto
    rcases List.mem_cons.mp member with rfl | member
    · rw [if_neg (Nat.lt_irrefl _), if_pos rfl]
    · have earlier := below error member
      rw [if_neg (Nat.lt_asymm earlier), if_neg (Nat.ne_of_lt earlier), ih sorted member]

end LexError

namespace Lexer

variable {lexer : Lexer} {text rest : List Char} {c : Char}

/-- The lexer after the piece in front of it, as normal mode reads it. -/
def passPiece (lexer : Lexer) : Lexer :=
  match lexer.rest with
  | [] => lexer
  | c :: rest => lexer.pass (findingAt (c :: rest)) c rest

theorem passPiece_nil (ended : lexer.rest = []) : lexer.passPiece = lexer := by
  simp only [passPiece, ended]

theorem passPiece_cons (front : lexer.rest = c :: rest) :
    lexer.passPiece = lexer.pass (findingAt (c :: rest)) c rest := by
  simp only [passPiece, front]

end Lexer

/-- The error that a finding stands for, where its lexeme begins at an offset. -/
def Finding.errorAt? (found : Finding) (offset : Nat) (lexeme : List Char) : Option LexError :=
  found.error?.map fun kind =>
    let place := match kind with
      | .invalidEscape _ inside => offset + inside
      | _ => offset
    ⟨kind, place, String.ofList lexeme⟩

theorem invalidEscapeFrom_nonempty {start offset : Nat} {text sequence : List Char}
    (invalid : invalidEscapeFrom start text = some (offset, sequence)) :
    0 < byteLength sequence := by
  fun_induction invalidEscapeFrom start text with
  | case1 => cases invalid
  | case2 start rest spoiled extent =>
    cases invalid
    exact Lexer.byteLength_pos _ _
  | case3 _ _ _ _ ih => exact ih invalid
  | case4 _ _ _ _ ih => exact ih invalid

/-- An error about a piece of the text lies in that piece. -/
theorem Finding.errorAt?_within {mode : LexMode} {c : Char} {rest : List Char} {offset : Nat}
    {error : LexError}
    (here : (findingIn mode (c :: rest)).1.errorAt? offset
      (c :: rest.take ((findingIn mode (c :: rest)).2 - 1)) = some error) :
    offset ≤ error.offset ∧ error.offset <
      offset + byteLength (c :: rest.take ((findingIn mode (c :: rest)).2 - 1)) := by
  obtain ⟨kind, complains, rfl⟩ := Option.map_eq_some_iff.mp here
  cases kind with
  | invalidEscape escape inside =>
    have escaped := Lexer.escapes_findingIn mode c rest escape inside complains
    obtain ⟨front, back, split, atFront⟩ := invalidEscapeFrom_split escaped
    have some := invalidEscapeFrom_nonempty escaped
    refine ⟨Nat.le_add_right _ _, ?_⟩
    rw [split, Lexer.byteLength_append, Lexer.byteLength_append]
    dsimp only
    omega
  | _ => exact ⟨Nat.le_refl _, Nat.lt_add_of_pos_right (Lexer.byteLength_pos c _)⟩

namespace Lexer

variable {lexer : Lexer} {text rest : List Char} {c : Char}

theorem record_eq (found : Finding) (lexeme : List Char) : lexer.record found lexeme =
    (found.errorAt? lexer.offset lexeme).elim lexer.errors (·.insertInto lexer.errors) := by
  unfold record Finding.errorAt?
  cases found.error? <;> rfl

/-- A lexer behind which all errors lie that it has found. -/
structure Tidy (lexer : Lexer) : Prop where
  sorted : LexError.Sorted lexer.errors
  behind : ∀ error ∈ lexer.errors, error.offset < lexer.offset

/-- Passing a piece adds an error at most, in front of those that there are. -/
theorem Tidy.record (tidy : lexer.Tidy) (mode : LexMode) (c : Char) (rest : List Char) :
    lexer.record (findingIn mode (c :: rest)).1
        (c :: rest.take ((findingIn mode (c :: rest)).2 - 1)) =
      ((findingIn mode (c :: rest)).1.errorAt? lexer.offset
        (c :: rest.take ((findingIn mode (c :: rest)).2 - 1))).toList ++ lexer.errors := by
  rw [record_eq]
  cases here : (findingIn mode (c :: rest)).1.errorAt? lexer.offset _ with
  | none => rfl
  | some error =>
    refine LexError.insertInto_of_lt fun other member => ?_
    exact Nat.lt_of_lt_of_le (tidy.behind other member) (Finding.errorAt?_within here).1

theorem Tidy.pass (tidy : lexer.Tidy) (mode : LexMode) (c : Char) (rest : List Char) :
    (lexer.pass (findingIn mode (c :: rest)) c rest).Tidy ∧
      lexer.errors <:+ (lexer.pass (findingIn mode (c :: rest)) c rest).errors := by
  have errors : (lexer.pass (findingIn mode (c :: rest)) c rest).errors = _ := tidy.record mode c rest
  refine ⟨⟨?_, ?_⟩, errors ▸ List.suffix_append _ _⟩
  · rw [errors]
    cases here : (findingIn mode (c :: rest)).1.errorAt? lexer.offset _ with
    | none => exact tidy.sorted
    | some error =>
      refine List.pairwise_cons.mpr ⟨fun other member => ?_, tidy.sorted⟩
      exact Nat.lt_of_lt_of_le (tidy.behind other member) (Finding.errorAt?_within here).1
  · rw [errors]
    intro error member
    rcases List.mem_append.mp member with new | old
    · exact (Finding.errorAt?_within (Option.mem_toList.mp new)).2
    · exact Nat.lt_add_right _ (tidy.behind error old)

/-- The lexer after some pieces of a text, as normal mode reads them one after another. -/
def afterPieces (text : List Char) : Nat → Lexer
  | 0 => ofText text
  | count + 1 => (afterPieces text count).passPiece

theorem afterPieces_tidy (text : List Char) (count : Nat) : (afterPieces text count).Tidy := by
  induction count with
  | zero => exact ⟨.nil, by simp [afterPieces, ofText]⟩
  | succ count ih =>
    rw [afterPieces, passPiece]
    split
    · exact ih
    · exact (ih.pass .normal _ _).1

theorem afterPieces_stands (text : List Char) (count : Nat) : (afterPieces text count).Stands text := by
  induction count with
  | zero => exact ofText_stands text
  | succ count ih =>
    rw [afterPieces, passPiece]
    split
    · exact ih
    · rename_i front
      exact ih.pass front (escapes_findingIn .normal _ _)

/-- Errors once found stay. -/
theorem errors_afterPieces {first last : Nat} (text : List Char) (later : first ≤ last) :
    (afterPieces text first).errors <:+ (afterPieces text last).errors := by
  induction later with
  | refl => exact List.suffix_rfl
  | @step last _ ih =>
    rw [afterPieces, passPiece]
    split
    · exact ih
    · exact ih.trans ((afterPieces_tidy text last).pass .normal _ _).2

theorem afterPieces_of_ended {first last : Nat} (ended : (afterPieces text first).rest = [])
    (later : first ≤ last) : afterPieces text last = afterPieces text first := by
  induction later with
  | refl => rfl
  | step _ ih => rw [afterPieces, ih, passPiece_nil ended]

/-- Whether a lexer stands where some pieces of a text have been passed, and knows the errors of
as many or more of them. -/
structure Along (text : List Char) (place reach : Nat) (lexer : Lexer) : Prop where
  ahead : place ≤ reach
  offset : lexer.offset = (afterPieces text place).offset
  rest : lexer.rest = (afterPieces text place).rest
  errors : lexer.errors = (afterPieces text reach).errors

namespace Along

variable {place reach : Nat}

/-- Reading a piece as normal mode does. Where it has been read before, its error is known. -/
theorem pass (along : lexer.Along text place reach) (front : lexer.rest = c :: rest) :
    (lexer.pass (findingAt (c :: rest)) c rest).Along text (place + 1) (max reach (place + 1)) := by
  have here : (afterPieces text place).rest = c :: rest := along.rest ▸ front
  have next : afterPieces text (place + 1) = _ := passPiece_cons here
  refine ⟨Nat.le_max_right _ _, ?_, ?_, ?_⟩
  · rw [next, Lexer.pass, Lexer.pass, along.offset]
  · rw [next]
    rfl
  · have known := (afterPieces_tidy text place).record .normal c rest
    change lexer.record (findingIn .normal (c :: rest)).1
      (c :: rest.take ((findingIn .normal (c :: rest)).2 - 1)) = _
    rw [record_eq, along.offset, along.errors]
    rcases Nat.eq_or_lt_of_le along.ahead with rfl | less
    · rw [Nat.max_eq_right (Nat.le_succ place), next]
      exact (record_eq _ _).symm
    · rw [Nat.max_eq_left less]
      have old := errors_afterPieces text (Nat.succ_le_of_lt less)
      have added : (afterPieces text (place + 1)).errors = _ :=
        (congrArg Lexer.errors next).trans known
      cases error : (findingIn .normal (c :: rest)).1.errorAt? (afterPieces text place).offset _ with
      | none => rfl
      | some error =>
        rw [error, Option.toList_some, List.singleton_append] at added
        exact LexError.insertInto_of_mem (afterPieces_tidy text reach).sorted
          (old.subset (added ▸ List.mem_cons_self))

/-- An accessor is a dot and a name, read one after the other. -/
theorem pass_accessor {name : List Char} (front : lexer.rest = c :: rest)
    (dot : (findingAt (c :: rest)).1 = .token (.punct .dot))
    (accessor : accessorName? ((c :: rest).drop (findingAt (c :: rest)).2) = some name) :
    ∃ d others, (lexer.pass (findingAt (c :: rest)) c rest).rest = d :: others ∧
      lexer.pass (.token .swizzle, (findingAt (c :: rest)).2 + name.length) c rest =
        (lexer.pass (findingAt (c :: rest)) c rest).pass (findingAt (d :: others)) d others := by
  have lexeme := take_of_findingAt_dot (congrArg Finding.tokenKind? dot)
  have some := accessorName?_nonempty accessor
  cases rest with
  | nil =>
    cases count : (findingAt [c]).2 with
    | zero => simp [count] at lexeme
    | succ count' =>
      rw [count, List.drop_succ_cons, List.drop_nil] at accessor
      cases accessor
  | cons d others =>
    have count : (findingAt (c :: d :: others)).2 = 1 := by
      have one := congrArg List.length lexeme
      cases more : (findingAt (c :: d :: others)).2 with
      | zero => simp [more] at one
      | succ more' =>
        cases more' with
        | zero => rfl
        | succ _ => simp [more] at one
    have whole : findingAt (c :: d :: others) = (.token (.punct .dot), 1) := Prod.ext dot count
    rw [count] at accessor
    have found := findingAt_accessor accessor
    rw [List.drop_succ_cons, List.drop_zero] at found
    obtain ⟨n, length⟩ := Nat.exists_eq_succ_of_ne_zero (List.length_pos_iff.mpr some).ne'
    refine ⟨d, others, ?_, ?_⟩
    · rw [whole]
      rfl
    · rw [whole, found, length]
      simp [Lexer.pass, record, Finding.error?, byteLength, Nat.add_assoc]

/-- Reading a piece in any mode. -/
theorem passIn (along : lexer.Along text place reach) (front : lexer.rest = c :: rest) :
    ∃ place' reach', reach ≤ reach' ∧
      (lexer.pass (findingIn lexer.mode (c :: rest)) c rest).Along text place' reach' := by
  have plain := along.pass front
  unfold findingIn
  dsimp only
  split
  · rename_i dot
    split
    · rename_i name accessor
      obtain ⟨d, others, front', same⟩ := pass_accessor front dot accessor
      rw [same]
      exact ⟨_, _, Nat.le_trans (Nat.le_max_left _ _) (Nat.le_max_left _ _), plain.pass front'⟩
    · exact ⟨_, _, Nat.le_max_left _ _, plain⟩
  · exact ⟨_, _, Nat.le_max_left _ _, plain⟩

/-- Reading a token in any mode. It begins where a piece does, and none is left at the end. -/
theorem next (along : lexer.Along text place reach) :
    ∃ place' reach', reach ≤ reach' ∧ lexer.next.2.Along text place' reach' ∧
      (∀ token ∈ lexer.next.1, ∃ first ≤ reach',
        token.span.start = (afterPieces text first).offset) ∧
      (lexer.next.1 = none → lexer.next.2.rest = []) := by
  fun_induction Lexer.next lexer generalizing place reach with
  | case1 lexer ended => exact ⟨place, reach, Nat.le_refl _, along, by simp, fun _ => ended⟩
  | case2 lexer c rest front found lexeme start stop after =>
    rename_i skipped ih
    obtain ⟨place', reach', more, passed⟩ := along.passIn front
    obtain ⟨place'', reach'', more', later⟩ := ih passed
    exact ⟨place'', reach'', Nat.le_trans more more', later⟩
  | case3 lexer c rest front found lexeme start stop after =>
    obtain ⟨place', reach', more, passed⟩ := along.passIn front
    refine ⟨place', reach', more, ⟨passed.ahead, passed.offset, passed.rest, passed.errors⟩, ?_,
      fun ended => absurd ended (Option.some_ne_none _)⟩
    intro token here
    obtain rfl := Option.some.inj here
    exact ⟨place, Nat.le_trans along.ahead more, along.offset⟩

theorem drain (along : lexer.Along text place reach) :
    ∃ place' reach', lexer.drain.2.Along text place' reach' ∧ lexer.drain.2.rest = [] := by
  fun_induction Lexer.drain lexer generalizing place reach with
  | case1 lexer after read =>
    obtain ⟨place', reach', _, passed, _, ended⟩ := along.next
    rw [read] at passed ended
    exact ⟨place', reach', passed, ended rfl⟩
  | case2 lexer token after read tokens last drained ih =>
    obtain ⟨_, _, _, passed, _⟩ := along.next
    rw [read] at passed
    obtain ⟨place', reach', later⟩ := ih passed
    rw [drained] at later
    exact ⟨place', reach', later⟩

/-- A lexer at the end of a text knows all errors of the text, and any other lexer the first of
them. -/
theorem errors_suffix {last : Lexer} {place' reach' : Nat} (along : lexer.Along text place reach)
    (whole : last.Along text place' reach') (ended : last.rest = []) :
    lexer.errors <:+ last.errors := by
  rw [along.errors, whole.errors]
  rcases Nat.le_total reach reach' with less | more
  · exact errors_afterPieces text less
  · rw [whole.rest] at ended
    have alike := afterPieces_of_ended ended (Nat.le_trans whole.ahead more)
    exact (afterPieces_of_ended ended whole.ahead).trans alike.symm ▸ List.suffix_rfl

end Along

theorem ofText_along (text : List Char) : (ofText text).Along text 0 0 :=
  ⟨Nat.le_refl 0, rfl, rfl, rfl⟩

end Lexer

/-- What a lexer along a source has found is the first of what the source has, and at the end it
is all of it. -/
theorem tokenize_errors_of_along {source : String} {lexer : Lexer} {place reach : Nat}
    (along : lexer.Along source.toList place reach) :
    lexer.takeErrors.1 <+: (tokenize source).2 ∧
      (lexer.rest = [] → lexer.takeErrors.1 = (tokenize source).2) := by
  obtain ⟨_, _, whole, atEnd⟩ := (Lexer.ofText_along source.toList).drain
  have before := along.errors_suffix whole atEnd
  refine ⟨List.reverse_prefix.mpr before, fun ended => ?_⟩
  have after := whole.errors_suffix along ended
  exact congrArg List.reverse (before.eq_of_length (Nat.le_antisymm before.length_le after.length_le))

end OpenCLTree
