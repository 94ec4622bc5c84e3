import OpenCLTree.Proofs.Lexical.Boundary
import OpenCLTree.Proofs.Lexical.LineFeed
import OpenCLTree.Proofs.Lexical.Space

namespace OpenCLTree

def Span.shift (distance : Nat) (span : Span) : Span :=
  ⟨span.start + distance, span.stop + distance⟩

def Token.shift (distance : Nat) (token : Token) : Token :=
  { token with span := token.span.shift distance }

def LexError.shift (distance : Nat) (error : LexError) : LexError :=
  { error with offset := error.offset + distance }

/-- The first of some tokens is told whether a line ends in front of it. -/
def Token.follow (newline : Bool) : List Token → List Token
  | [] => []
  | token :: rest => { token with newlineBefore := newline } :: rest

/-- A line feed ends a line unless a backslash, or a backslash and a carriage return, stands
right in front of it. -/
theorem breaksLine_feed {text gap : List Char} (plain : ¬ ['\\'] <:+ text)
    (noReturn : ¬ ['\\', '\r'] <:+ text) : breaksLine (text ++ '\n' :: gap) = true := by
  have tail (front : List Char) {back ending : List Char} (none : ¬ ending <:+ front ++ back) :
      ¬ ending <:+ back := fun ends => none (ends.trans (List.suffix_append front back))
  fun_induction breaksLine text with
  | case1 rest ih =>
    have later := ih (tail ['\\', '\n'] plain) (tail ['\\', '\n'] noReturn)
    rwa [List.cons_append, List.cons_append, breaksLine]
  | case2 rest ih =>
    have later := ih (tail ['\\', '\r', '\n'] plain)
      (tail ['\\', '\r', '\n'] noReturn)
    rwa [List.cons_append, List.cons_append, List.cons_append, breaksLine]
  | case3 rest => rfl
  | case4 c rest noFeed noReturnFeed other ih =>
    have later := ih (tail [c] plain) (tail [c] noReturn)
    rw [List.cons_append]
    unfold breaksLine
    split
    · rename_i same
      obtain ⟨rfl, next⟩ := List.cons.inj same
      cases rest with
      | nil => exact absurd List.suffix_rfl plain
      | cons d rest =>
        obtain ⟨rfl, _⟩ := List.cons.inj next
        exact (noFeed rest rfl rfl).elim
    · rename_i same
      obtain ⟨rfl, next⟩ := List.cons.inj same
      cases rest with
      | nil => cases next
      | cons d rest =>
        obtain ⟨rfl, last⟩ := List.cons.inj next
        cases rest with
        | nil => exact absurd List.suffix_rfl noReturn
        | cons e rest =>
          obtain ⟨rfl, _⟩ := List.cons.inj last
          exact (noReturnFeed rest rfl rfl).elim
    · rfl
    · rename_i same
      obtain ⟨rfl, rfl⟩ := List.cons.inj same
      exact later
    · rename_i same
      cases same
  | case5 => rfl

namespace Lexer

variable {one two lexer : Lexer} {gap front text rest v : List Char} {c : Char} {distance : Nat}

/-- Whether the text since the last token is a gap up to the place of a lexer. -/
structure Trails (gap : List Char) (lexer : Lexer) : Prop where
  normal : lexer.mode = .normal
  since : lexer.since = some (gap ++ lexer.rest)
  offset : lexer.lastEnd + byteLength gap = lexer.offset

theorem ofText_trails (text : List Char) : (ofText text).Trails [] :=
  ⟨rfl, rfl, rfl⟩

namespace Trails

theorem gap?_eq (trails : lexer.Trails gap) : lexer.gap? lexer.offset = some gap := by
  have offset := trails.offset
  unfold gap?
  by_cases earlier : lexer.lastEnd < lexer.offset
  · have length : lexer.offset - lexer.lastEnd = byteLength gap := by omega
    rw [if_pos earlier, trails.since, Option.bind_some, length, takeBytes?_append]
  · rw [if_neg earlier]
    cases gap with
    | nil => rfl
    | cons c gap =>
      have := byteLength_pos c gap
      omega

theorem settle (trails : lexer.Trails gap) : lexer.settle.Trails [] :=
  ⟨trails.normal, rfl, rfl⟩

theorem pass (trails : lexer.Trails gap) (found : Finding × Nat) (front : lexer.rest = c :: rest) :
    (lexer.pass found c rest).Trails (gap ++ c :: rest.take (found.2 - 1)) where
  normal := trails.normal
  since := by
    have split : lexer.rest = (c :: rest.take (found.2 - 1)) ++ rest.drop (found.2 - 1) := by
      rw [front, List.cons_append, List.take_append_drop]
    rw [Lexer.pass, trails.since, split, List.append_assoc]
  offset := by
    rw [byteLength_append, ← Nat.add_assoc]
    exact congrArg (· + _) trails.offset

theorem pastSpaces (trails : lexer.Trails gap) :
    lexer.pastSpaces.Trails (gap ++ lexer.rest.takeWhile isSpace) where
  normal := trails.normal
  since := by
    have split := List.takeWhile_append_dropWhile (p := isSpace) (l := lexer.rest)
    rw [Lexer.pastSpaces, List.append_assoc, split]
    exact trails.since
  offset := by
    rw [byteLength_append, ← Nat.add_assoc]
    exact congrArg (· + _) trails.offset

end Trails

theorem insertInto_shift (distance : Nat) (error : LexError) (errors : List LexError) :
    (error.shift distance).insertInto (errors.map (·.shift distance)) =
      (error.insertInto errors).map (·.shift distance) := by
  induction errors with
  | nil => rfl
  | cons other rest ih =>
    unfold LexError.insertInto
    have less : (other.shift distance).offset < (error.shift distance).offset ↔
        other.offset < error.offset := Nat.add_lt_add_iff_right
    have same : (error.shift distance).offset = (other.shift distance).offset ↔
        error.offset = other.offset := Nat.add_right_cancel_iff
    simp only [List.map_cons, less, same]
    split
    · rfl
    split
    · rfl
    · rw [List.map_cons, ← ih]

/-- Whether two lexers stand in front of the same text, the second one `distance` bytes later.
Its gap may have something more in front. -/
structure Apart (distance : Nat) (front : List Char) (one two : Lexer) : Prop where
  rest : two.rest = one.rest
  offset : two.offset = one.offset + distance
  errors : two.errors = one.errors.map (·.shift distance)
  gap : ∃ gap, one.Trails gap ∧ two.Trails (front ++ gap)

namespace Apart

theorem record (apart : Apart distance front one two) (found : Finding) (lexeme : List Char) :
    two.record found lexeme = (one.record found lexeme).map (·.shift distance) := by
  unfold Lexer.record
  cases found.error? with
  | none => exact apart.errors
  | some kind =>
    rw [apart.errors, ← insertInto_shift]
    cases kind <;> simp only [LexError.shift, apart.offset, Nat.add_right_comm]

theorem pass (apart : Apart distance front one two) (found : Finding × Nat)
    (here : one.rest = c :: rest) :
    Apart distance front (one.pass found c rest) (two.pass found c rest) where
  rest := rfl
  offset := by
    simp only [Lexer.pass, apart.offset, Nat.add_right_comm]
  errors := apart.record _ _
  gap := by
    obtain ⟨gap, trails, trails'⟩ := apart.gap
    refine ⟨_, trails.pass found here, ?_⟩
    rw [← List.append_assoc]
    exact trails'.pass found (apart.rest.trans here)

theorem settle (apart : Apart distance front one two) : Apart distance [] one.settle two.settle where
  rest := apart.rest
  offset := apart.offset
  errors := apart.errors
  gap := by
    obtain ⟨gap, trails, trails'⟩ := apart.gap
    exact ⟨[], trails.settle, trails'.settle⟩

/-- Lexers in front of the same text read the same token. -/
theorem next (apart : Apart distance front one two) :
    match one.next with
    | (none, after) => ∃ after', two.next = (none, after') ∧ Apart distance front after after'
    | (some token, after) => ∃ gap after',
        token.newlineBefore = breaksLine gap ∧
        two.next = (some { token.shift distance with newlineBefore := breaksLine (front ++ gap) },
          after') ∧ Apart distance [] after after' := by
  fun_induction Lexer.next one generalizing two with
  | case1 lexer ended => exact ⟨two, next_none (apart.rest.trans ended), apart⟩
  | case2 =>
    rename_i lexer c rest here found lexeme start stop after skipped ih
    obtain ⟨gap, trails, trails'⟩ := apart.gap
    have same : findingIn two.mode (c :: rest) = found := by rw [trails'.normal, ← trails.normal]
    rw [next_skip (apart.rest.trans here) (by rw [same]; exact skipped), same]
    exact ih (apart.pass found here)
  | case3 =>
    rename_i lexer c rest here found lexeme start stop after kind read
    obtain ⟨gap, trails, trails'⟩ := apart.gap
    have same : findingIn two.mode (c :: rest) = found := by rw [trails'.normal, ← trails.normal]
    have passed := apart.pass found here
    refine ⟨gap, (two.pass found c rest).settle, ?_, ?_, passed.settle⟩
    · rw [trails.gap?_eq]
      rfl
    · rw [next_take (apart.rest.trans here) (by rw [same]; exact read), same, trails'.gap?_eq]
      have span : (⟨two.offset, (two.pass found c rest).offset⟩ : Span) =
          Span.shift distance ⟨start, stop⟩ := by
        rw [apart.offset, passed.offset]
        rfl
      rw [span]
      rfl

/-- Lexers with the same gap in front of the same text read the same tokens. -/
theorem drain_same (apart : Apart distance [] one two) :
    two.drain.1 = one.drain.1.map (·.shift distance) ∧
      two.drain.2.errors = one.drain.2.errors.map (·.shift distance) := by
  fun_induction Lexer.drain one generalizing two with
  | case1 lexer after read =>
    have step := apart.next
    rw [read] at step
    obtain ⟨after', read', apart⟩ := step
    rw [drain_eq, read']
    exact ⟨rfl, apart.errors⟩
  | case2 lexer token after read tokens last drained ih =>
    have step := apart.next
    rw [read] at step
    obtain ⟨gap, after', newline, read', apart⟩ := step
    have later := ih apart
    rw [drained] at later
    have same : ({ token.shift distance with newlineBefore := breaksLine ([] ++ gap) } : Token) =
        token.shift distance := by
      rw [List.nil_append, ← newline]
      rfl
    rw [drain_some read', later.1, same]
    exact ⟨rfl, later.2⟩

/-- A gap that begins otherwise is seen in the first token only. -/
theorem drain (apart : Apart distance front one two) :
    ∃ gap, two.drain.1 =
        Token.follow (breaksLine (front ++ gap)) (one.drain.1.map (·.shift distance)) ∧
      two.drain.2.errors = one.drain.2.errors.map (·.shift distance) := by
  have step := apart.next
  rw [drain_eq one]
  cases read : one.next with
  | mk token after =>
    rw [read] at step
    cases token with
    | none =>
      obtain ⟨after', read', apart⟩ := step
      rw [drain_eq two, read']
      exact ⟨[], rfl, apart.errors⟩
    | some token =>
      obtain ⟨gap, after', _, read', apart⟩ := step
      have later := apart.drain_same
      rw [drain_some read', later.1]
      exact ⟨gap, rfl, later.2⟩

end Apart

/-- A lexer whose text goes on behind a line feed. -/
def feed (v : List Char) (lexer : Lexer) : Lexer :=
  { lexer with
    source := lexer.source ++ '\n' :: v
    rest := lexer.rest ++ '\n' :: v
    since := lexer.since.map (· ++ '\n' :: v) }

theorem ofText_feed (text v : List Char) : ofText (text ++ '\n' :: v) = (ofText text).feed v := rfl

theorem Trails.feed (trails : lexer.Trails gap) : (lexer.feed v).Trails gap where
  normal := trails.normal
  since := by
    rw [Lexer.feed, trails.since, Option.map_some, List.append_assoc]
  offset := trails.offset

theorem insertInto_ne_nil (error : LexError) (errors : List LexError) :
    error.insertInto errors ≠ [] := by
  cases errors with
  | nil => nofun
  | cons other rest =>
    unfold LexError.insertInto
    split
    · nofun
    split <;> nofun

theorem record_eq_nil {found : Finding} {lexeme : List Char} :
    lexer.record found lexeme = [] ↔ lexer.errors = [] ∧ found.error? = none := by
  unfold record
  cases found.error? with
  | none => simp
  | some kind => simp [insertInto_ne_nil]

theorem errors_next (clean : lexer.next.2.errors = []) : lexer.errors = [] := by
  fun_induction next lexer with
  | case1 => exact clean
  | case2 =>
    rename_i ih
    exact (record_eq_nil.mp (ih clean)).1
  | case3 => exact (record_eq_nil.mp clean).1

theorem errors_drain (clean : lexer.drain.2.errors = []) : lexer.errors = [] := by
  fun_induction drain lexer with
  | case1 lexer after read =>
    refine errors_next ?_
    rw [read]
    exact clean
  | case2 lexer token after read tokens last drained ih =>
    rw [drained] at ih
    refine errors_next ?_
    rw [read]
    exact ih clean

theorem drain_skip (front : lexer.rest = c :: rest)
    (skipped : (findingIn lexer.mode (c :: rest)).1.tokenKind? = none) :
    lexer.drain = (lexer.pass (findingIn lexer.mode (c :: rest)) c rest).drain := by
  rw [drain_eq, next_skip front skipped, ← drain_eq]

theorem drain_pastSpaces (normal : lexer.mode = .normal) : lexer.pastSpaces.drain = lexer.drain := by
  rw [drain_eq, next_pastSpaces normal, ← drain_eq]

/-- Spaces end in front of the first other character, whatever comes later. -/
theorem spaces_append (other : text.dropWhile isSpace ≠ []) (after : List Char) :
    (text ++ after).takeWhile isSpace = text.takeWhile isSpace ∧
      (text ++ after).dropWhile isSpace = text.dropWhile isSpace ++ after := by
  induction text with
  | nil => exact absurd rfl other
  | cons c rest ih =>
    rw [List.cons_append]
    by_cases space : isSpace c = true
    · rw [List.dropWhile_cons_of_pos space] at other
      obtain ⟨run, left⟩ := ih other
      simp only [List.takeWhile_cons_of_pos space, List.dropWhile_cons_of_pos space, run, left,
        and_self]
    · simp only [List.takeWhile_cons_of_neg space, List.dropWhile_cons_of_neg space,
        List.cons_append, and_self]

theorem pastSpaces_feed (other : lexer.rest.dropWhile isSpace ≠ []) :
    (lexer.feed v).pastSpaces = lexer.pastSpaces.feed v := by
  obtain ⟨run, left⟩ := spaces_append other ('\n' :: v)
  simp only [pastSpaces, feed, run, left]

/-- Passing a piece and going on behind a line feed do not disturb each other. -/
theorem pass_feed {found : Finding × Nat} (within : found.2 ≤ (c :: rest).length) (sound : found.1.error? = none) :
    (lexer.feed v).pass found c (rest ++ '\n' :: v) = (lexer.pass found c rest).feed v := by
  have inside : found.2 - 1 ≤ rest.length := by
    rw [List.length_cons] at within
    omega
  simp only [pass, feed, List.take_append_of_le_length inside,
    List.drop_append_of_le_length inside, record, sound]

/-- Where a lexer stands that has read all tokens in front of a line feed. -/
structure Passed (v text : List Char) (stop : Nat) (last : Lexer) : Prop where
  rest : last.rest = v.dropWhile isSpace
  offset : last.offset = stop + 1 + byteLength (v.takeWhile isSpace)
  errors : last.errors = []
  gap : ∃ tail, tail <:+ text ∧ last.Trails (tail ++ '\n' :: v.takeWhile isSpace)

theorem Passed.weaken {stop : Nat} {longer : List Char} (passed : lexer.Passed v text stop)
    (suffix : text <:+ longer) : lexer.Passed v longer stop where
  rest := passed.rest
  offset := passed.offset
  errors := passed.errors
  gap := by
    obtain ⟨tail, within, trails⟩ := passed.gap
    exact ⟨tail, within.trans suffix, trails⟩

/-- A lexer with nothing but spaces left in front of a line feed. -/
theorem feed_passed (trails : lexer.Trails gap) (clean : lexer.errors = [])
    (ended : lexer.rest.dropWhile isSpace = []) :
    (lexer.feed v).pastSpaces.Passed v (gap ++ lexer.rest) (lexer.offset + byteLength lexer.rest) := by
  have spaced : ∀ d ∈ lexer.rest, isSpace d = true := List.dropWhile_eq_nil_iff.mp ended
  have feed : isSpace '\n' = true := rfl
  have run : (lexer.rest ++ '\n' :: v).takeWhile isSpace =
      lexer.rest ++ '\n' :: v.takeWhile isSpace := by
    rw [List.takeWhile_append_of_pos spaced, List.takeWhile_cons_of_pos feed]
  have left : (lexer.rest ++ '\n' :: v).dropWhile isSpace = v.dropWhile isSpace := by
    rw [List.dropWhile_append_of_pos spaced, List.dropWhile_cons_of_pos feed]
  have newline : byteLength ('\n' :: v.takeWhile isSpace) = 1 + byteLength (v.takeWhile isSpace) := rfl
  refine ⟨left, ?_, clean, gap ++ lexer.rest, List.suffix_rfl, ?_⟩
  · rw [pastSpaces]
    simp only [Lexer.feed, run, byteLength_append, newline]
    omega
  · have passed := (trails.feed (v := v)).pastSpaces
    rw [Lexer.feed, run, ← List.append_assoc] at passed
    exact passed

/-- Whether what follows a line feed is read after all that stands in front of it. -/
def FeedsInto (v gap : List Char) (lexer : Lexer) : Prop :=
  ∃ last : Lexer, (lexer.feed v).drain = (lexer.drain.1 ++ last.drain.1, last.drain.2) ∧
    last.Passed v (gap ++ lexer.rest) (lexer.offset + byteLength lexer.rest)

/-- One piece in front of a line feed is read as if the text ended there. -/
theorem feedsInto_cons (trails : lexer.Trails gap) (front : lexer.rest = c :: rest)
    (other : isSpace c = false) (clean : lexer.drain.2.errors = [])
    (later : ∀ (next : Lexer) (gap : List Char), next.rest.length < lexer.rest.length →
      next.Trails gap → next.drain.2.errors = [] → next.FeedsInto v gap) :
    lexer.FeedsInto v gap := by
  have normal : findingIn lexer.mode (c :: rest) = findingAt (c :: rest) := by
    rw [trails.normal]
    rfl
  have normal' : findingIn (lexer.feed v).mode (c :: (rest ++ '\n' :: v)) =
      findingAt (c :: rest ++ '\n' :: v) := by
    rw [trails.feed.normal]
    rfl
  have front' : (lexer.feed v).rest = c :: (rest ++ '\n' :: v) := by
    rw [feed, front, List.cons_append]
  generalize atFound : findingAt (c :: rest) = found at normal
  have lexeme : lexer.rest = (c :: rest.take (found.2 - 1)) ++ rest.drop (found.2 - 1) := by
    rw [front, List.cons_append, List.take_append_drop]
  have stop : (lexer.pass found c rest).offset + byteLength (rest.drop (found.2 - 1)) =
      lexer.offset + byteLength lexer.rest := by
    rw [lexeme, byteLength_append, ← Nat.add_assoc]
    rfl
  have shorter : (lexer.pass found c rest).rest.length < lexer.rest.length := by
    rw [front, pass, List.length_drop, List.length_cons]
    omega
  have trailed := trails.pass found front
  have same (sound : found.1.error? = none) :
      findingAt (c :: rest ++ '\n' :: v) = found ∧
        (lexer.feed v).pass found c (rest ++ '\n' :: v) = (lexer.pass found c rest).feed v ∧
        (rest ++ '\n' :: v).take (found.2 - 1) = rest.take (found.2 - 1) := by
    subst atFound
    have notBlank : TokenRule.blanks.starts c = false := by rw [TokenRule.starts_blanks, other]
    have within := findingAt_le sound
    refine ⟨findingAt_feed notBlank sound, pass_feed within sound, ?_⟩
    rw [List.length_cons] at within
    exact List.take_append_of_le_length (by omega)
  unfold FeedsInto
  cases kind : found.1.tokenKind? with
  | none =>
    rw [drain_skip front (by rw [normal]; exact kind), normal] at clean ⊢
    obtain ⟨sameFound, samePass, _⟩ := same (record_eq_nil.mp (errors_drain clean)).2
    obtain ⟨last, drained, passed⟩ := later _ _ shorter trailed clean
    refine ⟨last, ?_, ?_⟩
    · rw [drain_skip front' (by rw [normal', sameFound]; exact kind), normal', sameFound, samePass]
      exact drained
    · rw [← stop, lexeme, ← List.append_assoc]
      exact passed
  | some kind =>
    have read := next_take front (by rw [normal]; exact kind)
    rw [normal, trails.gap?_eq] at read
    rw [drain_some read] at clean ⊢
    obtain ⟨sameFound, samePass, sameText⟩ := same (record_eq_nil.mp (errors_drain clean)).2
    have read' := next_take front' (by rw [normal', sameFound]; exact kind)
    rw [normal', sameFound, trails.feed.gap?_eq, samePass, sameText] at read'
    obtain ⟨last, drained, passed⟩ := later (lexer.pass found c rest).settle [] shorter trailed.settle clean
    refine ⟨last, ?_, ?_⟩
    · rw [drain_some read']
      exact congrArg (fun read : List Token × Lexer => (_ :: read.1, read.2)) drained
    · rw [← stop]
      refine passed.weaken ?_
      rw [lexeme, ← List.append_assoc]
      exact List.suffix_append _ _

/-- All tokens in front of a line feed are read as if the text ended there, when nothing is
wrong with them, and what follows the line feed is read after them. -/
theorem drain_feed (trails : lexer.Trails gap) (clean : lexer.drain.2.errors = []) :
    lexer.FeedsInto v gap := by
  induction length : lexer.rest.length using Nat.strong_induction_on generalizing lexer gap with
  | _ length ih =>
  subst length
  have split := List.takeWhile_append_dropWhile (p := isSpace) (l := lexer.rest)
  cases front : lexer.rest.dropWhile isSpace with
  | nil =>
    have ended : lexer.pastSpaces.drain = ([], lexer.pastSpaces) := drain_none front
    rw [← drain_pastSpaces trails.normal, ended] at clean
    refine ⟨_, ?_, feed_passed trails clean front⟩
    rw [← drain_pastSpaces trails.normal, ended,
      drain_pastSpaces trails.feed.normal]
    rfl
  | cons c rest =>
    have other : isSpace c = false := by
      have none := List.head?_dropWhile_not isSpace lexer.rest
      rwa [front] at none
    have passed : lexer.pastSpaces.FeedsInto v (gap ++ lexer.rest.takeWhile isSpace) := by
      refine feedsInto_cons trails.pastSpaces front other ?_ fun next gap shorter trails clean => ?_
      · rwa [drain_pastSpaces trails.normal]
      · exact ih _ (Nat.lt_of_lt_of_le shorter (List.dropWhile_suffix isSpace).length_le) trails
          clean rfl
    obtain ⟨last, drained, reached⟩ := passed
    refine ⟨last, ?_, ?_⟩
    · rw [← drain_pastSpaces trails.feed.normal, pastSpaces_feed (by rw [front]; nofun), drained,
        drain_pastSpaces trails.normal]
    · rw [pastSpaces, List.append_assoc, split, Nat.add_assoc, ← byteLength_append, split] at reached
      exact reached

end Lexer

/-- A lexer behind a line feed stands in front of the same text as one at its start. -/
theorem Lexer.Passed.apart {v text : List Char} {stop : Nat} {last : Lexer}
    (passed : last.Passed v text stop) :
    ∃ tail, tail <:+ text ∧ Apart (stop + 1) (tail ++ ['\n']) (ofText v).pastSpaces last := by
  obtain ⟨tail, suffix, trails⟩ := passed.gap
  refine ⟨tail, suffix, passed.rest, ?_, passed.errors, v.takeWhile isSpace, ?_, ?_⟩
  · rw [passed.offset]
    simp only [pastSpaces, ofText]
    omega
  · exact (ofText_trails v).pastSpaces
  · rw [List.append_assoc]
    exact trails

/-- A text without lexical errors keeps its tokens when another text follows on a new line, and
the tokens and errors of the other text follow them. Whether a line ends in front of these
tokens is seen in the first of them. -/
theorem tokenize_joined {a : String} (b : String) (clean : (tokenize a).2 = []) :
    ∃ newline, (tokenize (a ++ "\n" ++ b)).1 = (tokenize a).1 ++
        Token.follow newline ((tokenize b).1.map (·.shift (byteLength a.toList + 1))) ∧
      (tokenize (a ++ "\n" ++ b)).2 = (tokenize b).2.map (·.shift (byteLength a.toList + 1)) ∧
      (¬ ['\\'] <:+ a.toList → ¬ ['\\', '\r'] <:+ a.toList → newline = true) := by
  have text : (a ++ "\n" ++ b).toList = a.toList ++ '\n' :: b.toList := by
    rw [String.toList_append, String.toList_append, List.append_assoc]
    rfl
  have sound : (Lexer.ofText a.toList).drain.2.errors = [] := List.reverse_eq_nil_iff.mp clean
  obtain ⟨last, drained, passed⟩ := Lexer.drain_feed (v := b.toList) (Lexer.ofText_trails a.toList) sound
  obtain ⟨tail, suffix, apart⟩ := passed.apart
  obtain ⟨gap, tokens, errors⟩ := apart.drain
  have stop : (Lexer.ofText a.toList).offset + byteLength (Lexer.ofText a.toList).rest =
      byteLength a.toList := Nat.zero_add _
  rw [Lexer.drain_pastSpaces rfl, stop] at tokens errors
  refine ⟨breaksLine ((tail ++ ['\n']) ++ gap), ?_, ?_, ?_⟩
  · rw [tokenize, text, Lexer.ofText_feed, drained, tokens]
    rfl
  · rw [tokenize, text, Lexer.ofText_feed, drained]
    simp only [Lexer.takeErrors, errors, ← List.map_reverse]
    rfl
  · intro plain noReturn
    rw [List.append_assoc]
    exact breaksLine_feed (fun ends => plain (ends.trans suffix)) fun ends =>
      noReturn (ends.trans suffix)

end OpenCLTree
