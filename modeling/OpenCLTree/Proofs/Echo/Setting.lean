import OpenCLTree.Proofs.Echo.Brackets
import OpenCLTree.Proofs.Grammar.Reads
import OpenCLTree.Proofs.Tree.MapTokens
import Mathlib.Data.List.Forall2

namespace OpenCLTree

theorem tail_suffix_tail {α : Type} {words later : List α} (suffix : later <:+ words) :
    later.tail <:+ words.tail := by
  obtain ⟨front, rfl⟩ := suffix
  cases front with
  | nil => exact List.suffix_rfl
  | cons _ front => exact (List.tail_suffix later).trans (List.suffix_append front later)

/-- How a second run of the grammar stands to a first one. It meets each token of the first run
in a changed form; it has taken tokens before them, made reports and left names behind, and
there are words to come after them. -/
structure Echo where
  token : Token → Token
  place : Span → Span
  kind : ∀ leaf, (token leaf).kind = leaf.kind
  text : ∀ leaf, (token leaf).text = leaf.text
  span : ∀ leaf, (token leaf).span = place leaf.span
  floor : Nat
  above : ∀ leaf, floor ≤ (token leaf).span.start
  before : List Token
  after : List Word
  reports : List ParseError
  foreign : String → Prop
  flat : Bool
  newline : flat = false → ∀ word ∈ after.head?, word.token.newlineBefore = true

attribute [simp] Echo.kind Echo.text

/-- The brackets around a place, as many as are counted; `none` where they do not matter. -/
abbrev Guard := Option Nat

/-- The guard inside of one more bracket. -/
def Guard.up (guard : Guard) : Guard :=
  guard.map (· + 1)

@[simp]
theorem Guard.up_eq_none {guard : Guard} : guard.up = none ↔ guard = none :=
  Option.map_eq_none_iff

/-- Whether brackets matter at one guard if they do at another. -/
class Guard.Covers (guard other : Guard) : Prop where
  loose : guard = none → other = none

namespace Guard.Covers

variable {guard other : Guard}

instance : guard.Covers guard := ⟨id⟩

instance : guard.Covers none := ⟨fun _ => rfl⟩

instance {brackets : Nat} : Guard.Covers (some brackets) other := ⟨fun loose => nomatch loose⟩

instance [covers : guard.Covers other] : guard.up.Covers other :=
  ⟨fun loose => covers.loose (up_eq_none.mp loose)⟩

instance [covers : guard.Covers other] : guard.Covers other.up :=
  ⟨fun loose => up_eq_none.mpr (covers.loose loose)⟩

end Guard.Covers

/-- Whether a rule that takes `gain` words and leaves `margin` may look at `near` words, be it
that it fails. -/
class Seen (near margin gain : Nat) : Prop where
  room : near ≤ margin + gain
  near : near ≤ 1

namespace Seen

instance {margin gain : Nat} : Seen 0 margin gain := ⟨Nat.zero_le _, Nat.zero_le 1⟩

instance {gain : Nat} : Seen 1 1 gain := ⟨Nat.le_add_right 1 gain, Nat.le_refl 1⟩

instance {margin gain : Nat} : Seen 1 margin (gain + 1) := ⟨by omega, Nat.le_refl 1⟩

end Seen

/-- How the state of the grammar develops while a rule runs. It takes at least `gain` words. -/
structure GrammarState.Trails (gain : Nat) (first last : GrammarState) : Prop where
  words : last.cursor.taken = first.cursor.taken ∧ last.cursor.rest = first.cursor.rest ∨
    last.cursor.taken ≠ [] ∧ last.cursor.rest <:+ first.cursor.rest.tail
  fewer : last.remaining + gain ≤ first.remaining
  mode : last.cursor.mode = first.cursor.mode
  nesting : last.nesting = first.nesting
  reports : first.reports <+: last.reports
  scopes : first.scopes.Since last.scopes

namespace GrammarState.Trails

variable {gain more : Nat} {first middle last : GrammarState}

theorem refl (state : GrammarState) : state.Trails 0 state where
  words := .inl ⟨rfl, rfl⟩
  fewer := Nat.le_refl _
  mode := rfl
  nesting := rfl
  reports := List.prefix_rfl
  scopes := .refl _

theorem rest (trails : first.Trails gain last) : last.cursor.rest <:+ first.cursor.rest := by
  rcases trails.words with ⟨_, same⟩ | ⟨_, suffix⟩
  · exact same ▸ List.suffix_rfl
  · exact suffix.trans (List.tail_suffix _)

theorem trans (front : first.Trails gain middle) (back : middle.Trails more last) :
    first.Trails (gain + more) last where
  words := by
    rcases back.words with ⟨taken, same⟩ | ⟨taken, suffix⟩
    · rw [taken, same]
      exact front.words
    · right
      refine ⟨taken, suffix.trans ?_⟩
      exact tail_suffix_tail front.rest
  fewer := by
    have early := front.fewer
    have late := back.fewer
    omega
  mode := back.mode.trans front.mode
  nesting := back.nesting.trans front.nesting
  reports := front.reports.trans back.reports
  scopes := front.scopes.trans back.scopes

theorem weaken (trails : first.Trails gain last) (less : more ≤ gain) : first.Trails more last :=
  { trails with fewer := Nat.le_trans (Nat.add_le_add_left less _) trails.fewer }

theorem pass {word : Word} {rest : List Word} (words : first.cursor.rest = word :: rest) :
    first.Trails 1 (first.pass word.token rest) where
  words := by
    right
    refine ⟨List.cons_ne_nil _ _, ?_⟩
    rw [words]
    exact List.suffix_rfl
  fewer := by
    rw [remaining, remaining, words]
    exact Nat.le_refl _
  mode := rfl
  nesting := rfl
  reports := List.prefix_rfl
  scopes := .refl _

theorem report (error : ParseError) (state : GrammarState) : state.Trails 0 (state.report error) :=
  { refl state with reports := List.prefix_append _ _ }

/-- Going back to where a rule began leaves no trace of it. -/
theorem restore (trails : first.Trails gain last) :
    { last with
      cursor := first.cursor
      reports := last.reports.take first.reports.length
      scopes := last.scopes.undoTo first.scopes.mark } = first := by
  obtain ⟨added, reports⟩ := trails.reports
  rw [← reports, List.take_left', trails.scopes.undoTo_mark, trails.nesting]
  rfl

end GrammarState.Trails

/-- The error about a token that is not the expected one. -/
def GrammarState.unexpected (state : GrammarState) (expected : Expected) :
    ParseError :=
  match state.cursor.peek? 0 with
  | some token => .unexpectedToken expected token.description token.span
  | none => .unexpectedEnd expected ⟨state.cursor.place, state.cursor.place⟩

/-- Whether the words that have an accessor are dots in front of names. -/
def Word.Joined (words : List Word) : Prop :=
  ∀ word rest, word :: rest <:+ words → ∀ accessor ∈ word.accessor,
    word.token.kind = .punct .dot ∧ accessor.kind = .swizzle ∧
      ∃ name others, rest = name :: others ∧ name.token.kind = .identifier

theorem Word.read?_normal (word : Word) (rest : List Word) :
    read? .normal (word :: rest) = some (word.token, rest) := by
  unfold read?
  cases word.accessor <;> rfl

/-- In normal mode every word is read as its own token. -/
theorem Cursor.peek?_normal {cursor : Cursor} (normal : cursor.mode = .normal)
    (ahead : Nat) : cursor.peek? ahead = cursor.rest[ahead]?.map (·.token) := by
  obtain ⟨mode, taken, rest⟩ := cursor
  dsimp only at normal
  subst normal
  unfold Cursor.peek?
  dsimp only
  induction ahead generalizing rest with
  | zero => cases rest <;> rfl
  | succ ahead ih =>
    cases rest with
    | nil => rfl
    | cons word rest => exact ih rest

theorem Cursor.rest_eq_nil {cursor : Cursor} (normal : cursor.mode = .normal)
    (ended : cursor.peek? 0 = none) : cursor.rest = [] := by
  rw [peek?_normal normal, Option.map_eq_none_iff, List.getElem?_eq_none_iff] at ended
  exact List.eq_nil_of_length_eq_zero (Nat.le_zero.mp ended)

namespace Echo

variable (e : Echo)

def word (word : Word) : Word :=
  ⟨e.token word.token, word.accessor.map e.token⟩

/-- Whether an error, if it is one of the source, lies where the tokens of the second run lie. An
empty span stands for the end. -/
def Late (error : ParseError) : Prop :=
  error.kind ≠ .ambiguousCast → error.span.start < error.span.stop → e.floor ≤ error.span.start

/-- Whether some words are told the same about the lines in both runs. -/
def Steady (words : List Word) : Prop :=
  ∀ word ∈ words, (e.token word.token).newlineBefore = word.token.newlineBefore

/-- What holds of the states of the first run. -/
structure Sound (state : GrammarState) : Prop where
  mode : state.cursor.mode = .normal
  joined : Word.Joined state.cursor.rest
  names : ∀ word ∈ state.cursor.rest, word.token.kind = .identifier → ¬ e.foreign word.token.text
  flat : e.flat = true → ∀ word ∈ state.cursor.rest,
    word.token.kind ≠ .punct .leftBrace ∧ word.token.kind.turn ≠ .marks
  steadyTail : e.Steady state.cursor.rest.tail
  steady : state.cursor.taken ≠ [] → e.Steady state.cursor.rest

/-- Whether a state of the second run agrees with a state of the first. -/
structure Agrees (state other : GrammarState) : Prop where
  mode : other.cursor.mode = state.cursor.mode
  taken : other.cursor.taken = state.cursor.taken.map e.token ++ e.before
  rest : other.cursor.rest = state.cursor.rest.map e.word ++ e.after
  layers : List.Forall₂ (fun scope scope' : Scope => ∀ name, ¬ e.foreign name →
    scope' name = scope name) state.scopes.layers other.scopes.layers
  reports : ∃ late, other.reports = e.reports ++ late ∧ late.length = state.reports.length ∧
    ∀ error ∈ late, e.Late error
  nesting : other.nesting = state.nesting

/-- Whether a rule inside the brackets of a guard is sure to stop before it has read some words.
Nothing needs to be sure when no words follow. -/
def Guards (guard : Guard) (depth : Nat) (words : List Word) : Prop :=
  e.after = [] ∨ ∃ brackets, guard = some brackets ∧
    Word.closes e.flat false (depth + brackets) words = true

/-- Whether some words are left, or none follow anyway. -/
def Reaches (margin : Nat) (state : GrammarState) : Prop :=
  e.after = [] ∨ margin ≤ state.remaining

variable {e} {state other after : GrammarState} {guard : Guard} {depth gain margin : Nat}
  {word : Word} {rest words : List Word}

theorem Sound.trail (sound : e.Sound state) (trails : state.Trails gain after) : e.Sound after where
  mode := trails.mode.trans sound.mode
  joined word rest suffix := sound.joined word rest (suffix.trans trails.rest)
  names word member := sound.names word (trails.rest.subset member)
  flat isFlat word member := sound.flat isFlat word (trails.rest.subset member)
  steadyTail word member := sound.steadyTail word ((tail_suffix_tail trails.rest).subset member)
  steady taken word member := by
    rcases trails.words with ⟨same, rest⟩ | ⟨_, suffix⟩
    · rw [same] at taken
      rw [rest] at member
      exact sound.steady taken word member
    · exact sound.steadyTail word (suffix.subset member)

theorem Sound.ofCursor (sound : e.Sound state) (same : other.cursor = state.cursor) : e.Sound other where
  mode := same ▸ sound.mode
  joined := same ▸ sound.joined
  names := same ▸ sound.names
  flat := same ▸ sound.flat
  steadyTail := same ▸ sound.steadyTail
  steady := same ▸ sound.steady

theorem Guards.reaches (guards : e.Guards guard depth state.cursor.rest) (near : margin ≤ 1) :
    e.Reaches margin state := by
  refine guards.imp_right fun ⟨brackets, _, closes⟩ => ?_
  unfold GrammarState.remaining
  cases words : state.cursor.rest with
  | nil =>
    rw [words] at closes
    cases closes
  | cons word rest =>
    rw [List.length_cons]
    omega

/-- What closes some brackets closes fewer as well. -/
theorem Guards.base (guards : e.Guards guard depth words) : e.Guards (some 0) 0 words := by
  refine guards.imp_right fun ⟨brackets, _, closes⟩ => ⟨0, rfl, ?_⟩
  rw [Nat.zero_add]
  generalize depth + brackets = count at closes
  induction count with
  | zero => exact closes
  | succ count ih => exact ih (Word.closes_mono closes)

theorem guards_none : e.Guards none depth words ↔ e.after = [] := by
  simp [Guards]

theorem guards_stays (stays : word.token.kind.turn = .stays) :
    e.Guards guard depth (word :: rest) ↔ e.Guards guard depth rest := by
  simp only [Guards, Word.closes_stays stays]

theorem guards_opens (opens : word.token.kind.turn = .opens) :
    e.Guards guard depth (word :: rest) ↔ e.Guards guard.up depth rest := by
  cases guard with
  | none => simp [Guards, Guard.up]
  | some brackets => simp [Guards, Guard.up, Word.closes_opens opens, Nat.add_assoc]

theorem guards_closes (closing : word.token.kind.turn = .closes) :
    e.Guards guard.up depth (word :: rest) ↔ e.Guards guard depth rest := by
  cases guard with
  | none => simp [Guards, Guard.up]
  | some brackets =>
    simp only [Guards, Guard.up, Option.map_some, Option.some.injEq, exists_eq_left',
      ← Nat.add_assoc, Word.closes_closes closing]

theorem guards_ends (ends : word.token.kind.turn = .ends) (plain : e.flat = false ∨ guard = none) :
    e.Guards guard depth (word :: rest) ↔ e.Guards guard depth rest := by
  rcases plain with plain | rfl
  · simp only [Guards, Word.closes_ends ends, plain, Bool.false_or]
  · simp [Guards]

theorem guards_single (opens : word.token.kind.turn = .opens) :
    e.Guards guard depth [word] ↔ e.after = [] := by
  simp [Guards, Word.closes_single opens]

/-- Whatever closes a bracket, a single opening one does not. -/
theorem Guards.reaches_two (guards : e.Guards guard depth state.cursor.rest)
    (words : state.cursor.rest = word :: rest) (opens : word.token.kind.turn = .opens) :
    e.Reaches 2 state := by
  unfold Reaches GrammarState.remaining
  rw [words] at guards ⊢
  cases rest with
  | nil => exact .inl ((guards_single opens).mp guards)
  | cons next rest => exact .inr (by simp)

/-- Whether a token is no name on which the scopes of the two runs may differ. -/
def Knows (e : Echo) (token : Token) : Prop :=
  token.kind = .identifier → ¬ e.foreign token.text

namespace Agrees

variable {token : Token}

theorem lookup (agrees : e.Agrees state other) {name : String} (known : ¬ e.foreign name) :
    other.scopes.lookup name = state.scopes.lookup name := by
  unfold Scopes.lookup
  have layers := agrees.layers
  generalize state.scopes.layers = inner at layers
  generalize other.scopes.layers = inner' at layers
  induction layers with
  | nil => rfl
  | cons same _ ih => rw [List.findSome?_cons, List.findSome?_cons, same name known, ih]

theorem isType (agrees : e.Agrees state other) {name : String} (known : ¬ e.foreign name) :
    other.scopes.isType name = state.scopes.isType name := by
  rw [Scopes.isType, agrees.lookup known, Scopes.isType]

theorem isOrdinary (agrees : e.Agrees state other) {name : String} (known : ¬ e.foreign name) :
    other.scopes.isOrdinary name = state.scopes.isOrdinary name := by
  rw [Scopes.isOrdinary, agrees.lookup known, Scopes.isOrdinary]

theorem startsType (agrees : e.Agrees state other) (knows : e.Knows token) :
    other.scopes.startsType (e.token token) = state.scopes.startsType token := by
  unfold Scopes.startsType
  rw [e.kind, e.text]
  split
  · exact agrees.isType (knows ‹_›)
  · rfl
  · rfl

theorem startsDeclaration (agrees : e.Agrees state other) (knows : e.Knows token) :
    other.scopes.startsDeclaration (e.token token) = state.scopes.startsDeclaration token := by
  unfold Scopes.startsDeclaration
  rw [e.kind, agrees.startsType knows]

theorem startsTypeName (agrees : e.Agrees state other) (knows : e.Knows token) :
    other.scopes.startsTypeName (e.token token) = state.scopes.startsTypeName token := by
  unfold Scopes.startsTypeName
  rw [e.kind, agrees.startsType knows]

end Agrees

namespace Agrees

theorem declare (agrees : e.Agrees state other) (name : String) (sort : NameSort) :
    e.Agrees { state with scopes := state.scopes.declare name sort }
      { other with scopes := other.scopes.declare name sort } := by
  refine { agrees with layers := ?_ }
  have layers := agrees.layers
  dsimp only
  rw [Scopes.layers_declare, Scopes.layers_declare]
  generalize state.scopes.layers = inner at layers ⊢
  generalize other.scopes.layers = inner' at layers ⊢
  cases layers with
  | nil => exact .nil
  | cons here outside =>
    refine .cons (fun name' known => ?_) outside
    simp only [Scope.assign, here name' known]

theorem report (agrees : e.Agrees state other) (error : ParseError) {error' : ParseError}
    (late : e.Late error') : e.Agrees (state.report error) (other.report error') := by
  refine { agrees with reports := ?_ }
  obtain ⟨earlier, reports, count, earlierLate⟩ := agrees.reports
  refine ⟨earlier ++ [error'], ?_, ?_, ?_⟩
  · rw [GrammarState.report, reports, List.append_assoc]
  · rw [GrammarState.length_reports_report, List.length_append, count, List.length_singleton]
  · intro other member
    rcases List.mem_append.mp member with member | member
    · exact earlierLate other member
    · exact List.mem_singleton.mp member ▸ late

end Agrees

theorem word_token (e : Echo) (word : Word) : (e.word word).token = e.token word.token := rfl

theorem Sound.knows (sound : e.Sound state) {ahead : Nat} {token : Token}
    (found : state.cursor.peek? ahead = some token) : e.Knows token := by
  rw [Cursor.peek?_normal sound.mode] at found
  obtain ⟨word, here, rfl⟩ := Option.map_eq_some_iff.mp found
  exact sound.names word (List.mem_of_getElem? here)

/-- The second run sees the same words ahead, as far as the first one has some. -/
theorem Agrees.peek? (agrees : e.Agrees state other) (sound : e.Sound state) {ahead : Nat}
    (reaches : e.Reaches (ahead + 1) state) :
    other.cursor.peek? ahead = (state.cursor.peek? ahead).map e.token := by
  rw [Cursor.peek?_normal sound.mode, Cursor.peek?_normal (agrees.mode.trans sound.mode),
    agrees.rest]
  have here : (state.cursor.rest.map e.word ++ e.after)[ahead]? =
      (state.cursor.rest[ahead]?).map e.word := by
    rcases reaches with none | enough
    · rw [none, List.append_nil, List.getElem?_map]
    · have inside : ahead < state.cursor.rest.length := enough
      rw [List.getElem?_append_left (by rwa [List.length_map]), List.getElem?_map]
  rw [here]
  cases state.cursor.rest[ahead]? <;> rfl

/-- What the second run does not expect lies among its own tokens. -/
theorem Agrees.late (agrees : e.Agrees state other) (sound : e.Sound state)
    (reaches : e.Reaches 1 state) (expected : Expected) : e.Late (other.unexpected expected) := by
  unfold Late GrammarState.unexpected
  rw [agrees.peek? sound reaches]
  cases state.cursor.peek? 0 with
  | none => exact fun _ nonempty => absurd nonempty (Nat.lt_irrefl _)
  | some token => exact fun _ _ => e.above token

theorem Agrees.words_eq (agrees : e.Agrees state other) (here : state.cursor.rest = word :: rest) :
    other.cursor.rest = e.word word :: (rest.map e.word ++ e.after) := by
  rw [agrees.rest, here, List.map_cons, List.cons_append]

theorem Agrees.pass (agrees : e.Agrees state other) (word : Word) (rest : List Word) :
    e.Agrees (state.pass word.token rest)
      (other.pass (e.word word).token (rest.map e.word ++ e.after)) where
  mode := agrees.mode
  taken := by
    rw [GrammarState.pass, GrammarState.pass, agrees.taken]
    rfl
  rest := rfl
  layers := agrees.layers
  reports := agrees.reports
  nesting := agrees.nesting

end Echo

end OpenCLTree
