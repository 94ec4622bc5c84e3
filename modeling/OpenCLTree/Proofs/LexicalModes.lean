import OpenCLTree.Proofs.Accessors
import OpenCLTree.Proofs.Lexical.Kinds
import OpenCLTree.Proofs.Lexical.Onward
import OpenCLTree.Proofs.LexicalCoverage

/-!
What suffix mode reads is what normal mode reads, with each dot and the component names right after
it put together. The errors are the same.
-/

namespace OpenCLTree

namespace Token

instance (dot name : Token) : Decidable (dot.Selects name) :=
  inferInstanceAs (Decidable (_ ∧ _))

/-- Puts each dot together with the component names right after it. -/
def fuse : List Token → List Token
  | dot :: name :: rest =>
    if dot.kind = .punct .dot ∧ name.kind = .identifier ∧ dot.Selects name then
      dot.joined name :: fuse rest
    else dot :: fuse (name :: rest)
  | tokens => tokens

variable {dot name token : Token} {rest : List Token}

theorem fuse_joined (isDot : dot.kind = .punct .dot) (isName : name.kind = .identifier)
    (selects : dot.Selects name) : fuse (dot :: name :: rest) = dot.joined name :: fuse rest := by
  rw [fuse, if_pos ⟨isDot, isName, selects⟩]

theorem fuse_cons (apart : ∀ name ∈ rest.head?, token.kind = .punct .dot →
    name.kind = .identifier → ¬ token.Selects name) : fuse (token :: rest) = token :: fuse rest := by
  cases rest with
  | nil => rfl
  | cons name rest =>
    have other := apart name rfl
    rw [fuse, if_neg fun all => other all.1 all.2.1 all.2.2]

end Token

variable {text name : List Char} {c : Char} {rest : List Char}

/-- A dot is read by itself. -/
theorem findingAt_dot (found : (findingAt text).1.tokenKind? = some (.punct .dot)) :
    findingAt text = (.token (.punct .dot), 1) := by
  have lexeme := take_of_findingAt_dot found
  have some : text ≠ [] := by
    rintro rfl
    rw [List.take_nil] at lexeme
    cases lexeme
  have plain : (findingAt text).1 = .token (.punct .dot) := by
    have suits := (findingAt_suits some).2
    cases finding : (findingAt text).1 with
    | trivia =>
      rw [finding] at found
      cases found
    | token kind =>
      rw [finding] at found
      exact congrArg Finding.token (Option.some.inj found)
    | malformed error kind =>
      rw [finding] at found suits
      obtain rfl : kind = .some (.punct .dot) := found
      cases suits with
      | literal _ isLiteral => cases isLiteral
  have within := findingAt_le (w := text) (plain ▸ rfl)
  have length := congrArg List.length lexeme
  rw [List.length_take_of_le within] at length
  exact Prod.ext plain length

theorem TokenRule.matches_word_append (word : TokenRule.word.Matches name)
    (wordChar : isWordChar c = true) : TokenRule.word.Matches (name ++ [c]) := by
  obtain ⟨first, others, rfl, start, tail⟩ := Pattern.matches_seq.mp word
  rw [List.append_assoc]
  refine Pattern.matches_seq.mpr ⟨first, others ++ [c], rfl, start, ?_⟩
  rw [Pattern.matches_many_one] at tail ⊢
  refine List.forall_mem_append.mpr ⟨tail, fun d member => ?_⟩
  rwa [List.mem_singleton.mp member]

/-- A word that is read goes on as long as there are characters for it. -/
theorem Munch.takeWhile_word {found : Recognized} (munch : Munch text name found)
    (word : TokenRule.word.Matches name) : text.takeWhile isWordChar = name := by
  obtain ⟨after, rfl⟩ := munch.leads
  refine (takeWhile_front (TokenRule.word_word word) fun d next => ?_).1
  obtain ⟨others, rfl⟩ : ∃ others, after = d :: others := List.head?_eq_some_iff.mp next
  by_contra wordChar
  rw [Bool.not_eq_false] at wordChar
  have listed : (⟨.token .identifier, TokenRule.word⟩ : TokenRule) ∈ TokenRule.all := by
    simp [TokenRule.all_split]
  have longer := munch.longest _ listed (name ++ [d]) ⟨others, by simp⟩
    (TokenRule.matches_word_append word wordChar)
  rw [List.length_append, List.length_singleton] at longer
  omega

theorem accessorName?_eq_some (named : accessorName? text = some name) :
    isSwizzle name = true ∧ text.take name.length = name := by
  unfold accessorName? at named
  dsimp only at named
  split at named
  case isFalse => cases named
  case isTrue components =>
    obtain rfl := Option.some.inj named
    exact ⟨components, (List.prefix_iff_eq_take.mp (List.takeWhile_prefix isWordChar)).symm⟩

/-- What is read as a name of components is found by looking at the characters themselves. -/
theorem accessorName?_of_findingAt (found : (findingAt text).1.tokenKind? = some .identifier)
    (components : isSwizzle (text.take (findingAt text).2) = true) :
    accessorName? text = some (text.take (findingAt text).2) := by
  rcases findingAt_eq text with irregular | ⟨recognized, count, longest, judged⟩ | same
  · rcases irregular?_cases irregular with ⟨_, _, same⟩ | ⟨_, rfl, same⟩ | ⟨broken, _⟩
    · rw [same] at found
      cases found
    · rw [same] at components
      cases components
    · rw [broken] at found
      cases found
  · rw [judged] at found components ⊢
    rcases tokenKind?_judge recognized count text with none | ⟨same, counted⟩
    · cases none.symm.trans found
    · rw [counted] at components ⊢
      have first := (TokenRule.longest?_eq_some.mp longest).first
      have word := Token.CutFrom.firstMatch?_identifier first (same.symm.trans found)
      rw [accessorName?, (TokenRule.munch_of_longest? longest).takeWhile_word word]
      exact if_pos components
  · rw [same] at found
    cases found

namespace Lexer

variable {lexer after : Lexer} {token : Token}

/-- A token that begins where the lexer stands is what is found there. -/
theorem next_adjacent (normal : lexer.mode = .normal) (settled : lexer.lastEnd ≤ lexer.offset)
    (read : lexer.next.1 = some token) (adjacent : token.span.start = lexer.offset) :
    (findingAt lexer.rest).1.tokenKind? = some token.kind ∧
      token.text.toList = lexer.rest.take (findingAt lexer.rest).2 := by
  cases front : lexer.rest with
  | nil =>
    rw [next_none front] at read
    cases read
  | cons c rest =>
    have plain : findingIn lexer.mode (c :: rest) = findingAt (c :: rest) := by
      rw [normal]
      rfl
    cases kind : (findingAt (c :: rest)).1.tokenKind? with
    | none =>
      rw [next_skip front (plain ▸ kind), plain] at read
      have within : (lexer.pass (findingAt (c :: rest)) c rest).Within _ :=
        ⟨normal, Nat.le_add_right_of_le settled, rfl⟩
      have start := (next_read within (Prod.ext read rfl)).start
      have positive := byteLength_pos c (rest.take ((findingAt (c :: rest)).2 - 1))
      simp only [Lexer.pass, adjacent] at start
      omega
    | some found =>
      have positive := (findingAt_suits (List.cons_ne_nil c rest)).1
      rw [next_take front (plain ▸ kind), plain] at read
      cases read
      refine ⟨rfl, ?_⟩
      rw [String.toList_ofList, lexeme_eq_take, Nat.max_eq_right positive]

theorem findingIn_suffix_dot (dot : findingAt text = (.token (.punct .dot), 1)) :
    findingIn .suffix text = (accessorName? (text.drop 1)).elim (.token (.punct .dot), 1)
      fun name => (.token .swizzle, 1 + name.length) := by
  unfold findingIn
  rw [dot]
  dsimp only
  cases accessorName? (text.drop 1) <;> rfl

/-- The token that a lexeme at the place of a lexer makes. -/
def tokenHere (lexer : Lexer) (kind : TokenKind) (lexeme : List Char) : Token :=
  ⟨kind, String.ofList lexeme, ⟨lexer.offset, lexer.offset + byteLength lexeme⟩,
    (lexer.gap? lexer.offset).any breaksLine⟩

theorem joined_tokenHere {lexeme : List Char} (behind : after.offset = lexer.offset + byteLength [c]) :
    (lexer.tokenHere (.punct .dot) [c]).joined (after.tokenHere .identifier lexeme) =
      lexer.tokenHere .swizzle (c :: lexeme) := by
  simp only [Token.joined, tokenHere, behind, byteLength, ← String.ofList_append, List.cons_append,
    List.nil_append, Nat.add_zero, Nat.add_assoc]

/-- Behind an accessor the lexer stands where it stands behind the dot and the name. -/
theorem settle_accessor (lexer : Lexer) (c d : Char) (others : List Char) (count : Nat) :
    (lexer.pass (.token .swizzle, 1 + (count + 1)) c (d :: others)).settle =
      ((lexer.pass (.token (.punct .dot), 1) c (d :: others)).settle.pass
        (.token .identifier, count + 1) d others).settle := by
  simp [Lexer.pass, settle, record, Finding.error?, byteLength, Nat.add_assoc]

theorem drain_take {found : Finding × Nat} {kind : TokenKind} (front : lexer.rest = c :: rest)
    (here : findingIn lexer.mode (c :: rest) = found) (taken : found.1.tokenKind? = some kind) :
    lexer.drain = (lexer.tokenHere kind (c :: rest.take (found.2 - 1)) ::
        (lexer.pass found c rest).settle.drain.1,
      (lexer.pass found c rest).settle.drain.2) := by
  subst here
  exact drain_some (next_take front taken)

/-- Whether suffix mode reads what is left of a text as normal mode does, but for the accessors. -/
def Fuses (lexer : Lexer) : Prop :=
  (lexer.turned .suffix).drain = (Token.fuse lexer.drain.1, lexer.drain.2.turned .suffix)

namespace Fuses

theorem skip (front : lexer.rest = c :: rest)
    (skipped : (findingAt (c :: rest)).1.tokenKind? = none)
    (later : (lexer.pass (findingAt (c :: rest)) c rest).Fuses) : lexer.Fuses := by
  have skips : lexer.Skips (lexer.pass (findingAt (c :: rest)) c rest) := .pass front skipped (.refl _)
  rw [Fuses, (skips.turned .suffix).drain, skips.drain]
  exact later

theorem take {kind : TokenKind} (normal : lexer.mode = .normal) (front : lexer.rest = c :: rest)
    (taken : (findingAt (c :: rest)).1.tokenKind? = some kind) (other : kind ≠ .punct .dot)
    (later : (lexer.pass (findingAt (c :: rest)) c rest).settle.Fuses) : lexer.Fuses := by
  have either : kind.dependsOnMode = false := by
    have noSwizzle : kind ≠ .swizzle := by
      rintro rfl
      exact findingAt_ne_swizzle _ taken
    simp [TokenKind.dependsOnMode, other, noSwizzle]
  have here : findingIn lexer.mode (c :: rest) = findingAt (c :: rest) := by
    rw [normal]
    rfl
  have front' : (lexer.turned .suffix).rest = c :: rest := front
  have here' : findingIn .suffix (c :: rest) = findingAt (c :: rest) := by
    rw [← findingIn_normal] at taken ⊢
    exact findingIn_of_kind taken either .suffix
  have plain := drain_take front here taken
  have turned := drain_take front' here' taken
  rw [Fuses, turned, plain, Token.fuse_cons fun _ _ isDot => absurd isDot other]
  exact congrArg (fun read : List Token × Lexer => (_ :: read.1, read.2)) later

/-- A dot stands alone if no component names come right after it. -/
theorem dot (normal : lexer.mode = .normal) (front : lexer.rest = c :: rest)
    (found : findingAt (c :: rest) = (.token (.punct .dot), 1)) (alone : accessorName? rest = none)
    (later : (lexer.pass (.token (.punct .dot), 1) c rest).settle.Fuses) : lexer.Fuses := by
  have here : findingIn lexer.mode (c :: rest) = (.token (.punct .dot), 1) := by rwa [normal]
  have front' : (lexer.turned .suffix).rest = c :: rest := front
  have here' : findingIn .suffix (c :: rest) = (.token (.punct .dot), 1) := by
    rw [findingIn_suffix_dot found, List.drop_succ_cons, List.drop_zero, alone]
    rfl
  have plain := drain_take front here rfl
  have turned := drain_take front' here' rfl
  rw [Fuses, turned, plain, Token.fuse_cons]
  · exact congrArg (fun read : List Token × Lexer => (_ :: read.1, read.2)) later
  intro name first _ isName selects
  rw [head?_drain] at first
  obtain ⟨kind, text⟩ := next_adjacent (by exact normal) (Nat.le_refl _) first selects.1
  rw [isName] at kind
  have components := text ▸ selects.2
  have accessor := accessorName?_of_findingAt kind components
  cases alone.symm.trans accessor

/-- A dot and the component names right after it are read one after the other, or together. -/
theorem accessor {name : List Char} {d : Char} {others : List Char} (normal : lexer.mode = .normal)
    (front : lexer.rest = c :: d :: others)
    (found : findingAt (c :: d :: others) = (.token (.punct .dot), 1))
    (named : accessorName? (d :: others) = some name)
    (later : ((lexer.pass (.token (.punct .dot), 1) c (d :: others)).settle.pass
      (.token .identifier, name.length) d others).settle.Fuses) : lexer.Fuses := by
  have named' := findingAt_accessor named
  have here : findingIn lexer.mode (c :: d :: others) = (.token (.punct .dot), 1) := by rwa [normal]
  have front' : (lexer.turned .suffix).rest = c :: d :: others := front
  have here' : findingIn .suffix (c :: d :: others) = (.token .swizzle, 1 + name.length) := by
    rw [findingIn_suffix_dot found, List.drop_succ_cons, List.drop_zero, named]
    rfl
  obtain ⟨components, taken⟩ := accessorName?_eq_some named
  obtain ⟨tail, rfl⟩ : ∃ tail, name = d :: tail := by
    cases name with
    | nil => cases components
    | cons e tail =>
      rw [List.length_cons, List.take_succ_cons] at taken
      exact ⟨tail, congrArg (· :: tail) (List.cons.inj taken).1.symm⟩
  rw [List.length_cons, List.take_succ_cons, List.cons_inj_right] at taken
  have behind : (lexer.pass (.token (.punct .dot), 1) c (d :: others)).settle.rest = d :: others := rfl
  have atName : findingIn (lexer.pass (.token (.punct .dot), 1) c (d :: others)).settle.mode (d :: others) =
      (.token .identifier, (d :: tail).length) := by
    rw [← named', ← findingIn_normal, ← normal]
    rfl
  have plain := drain_take front here rfl
  have inner := drain_take behind atName rfl
  have turned := drain_take front' here' rfl
  simp only [List.length_cons, Nat.add_sub_cancel_left, Nat.add_sub_cancel, List.take_succ_cons, taken,
    Nat.sub_self, List.take_zero] at plain inner turned
  have selects : (lexer.tokenHere (.punct .dot) [c]).Selects
      ((lexer.pass (.token (.punct .dot), 1) c (d :: others)).settle.tokenHere .identifier (d :: tail)) :=
    ⟨rfl, by rwa [tokenHere, String.toList_ofList]⟩
  rw [Fuses, turned, plain, inner, Token.fuse_joined rfl rfl selects, joined_tokenHere rfl,
    settle_accessor]
  exact congrArg (fun read : List Token × Lexer => (_ :: read.1, read.2)) later

end Fuses

/-- What is left of a text in suffix mode, as normal mode reads it. -/
theorem fuses (normal : lexer.mode = .normal) : lexer.Fuses := by
  -- An accessor takes the text of two tokens, so the induction is on the text that is left.
  induction size : lexer.rest.length using Nat.strong_induction_on generalizing lexer with
  | _ size ih =>
  subst size
  cases front : lexer.rest with
  | nil =>
    have front' : (lexer.turned .suffix).rest = [] := front
    rw [Fuses, drain_none front, drain_none front']
    rfl
  | cons c rest =>
    have shorter (found : Finding × Nat) :
        (lexer.pass found c rest).rest.length < lexer.rest.length := by
      rw [front, Lexer.pass, List.length_drop, List.length_cons]
      omega
    cases taken : (findingAt (c :: rest)).1.tokenKind? with
    | none => exact .skip front taken (ih _ (shorter _) normal rfl)
    | some kind =>
      by_cases isDot : kind = .punct .dot
      · subst isDot
        have found := findingAt_dot taken
        cases named : accessorName? rest with
        | none => exact .dot normal front found named (ih _ (shorter _) normal rfl)
        | some name =>
          cases rest with
          | nil => cases named
          | cons d others =>
            refine .accessor normal front found named (ih _ ?_ normal rfl)
            rw [front]
            simp only [Lexer.pass, settle, List.length_drop, List.length_cons]
            omega
      · exact .take normal front taken isDot (ih _ (shorter _) normal rfl)

end Lexer

/-- Suffix mode reads the tokens that normal mode does, but for the accessors, and complains about
the same. -/
theorem tokenizeIn_suffix (source : String) :
    tokenizeIn .suffix source = (Token.fuse (tokenize source).1, (tokenize source).2) := by
  have drained : (Lexer.ofText source.toList).Fuses := Lexer.fuses rfl
  rw [Lexer.Fuses, Lexer.turned] at drained
  rw [tokenizeIn, tokenize, drained]
  rfl

end OpenCLTree
