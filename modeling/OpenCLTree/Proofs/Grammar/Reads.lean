import OpenCLTree.Proofs.Grammar.Meets
import OpenCLTree.Proofs.Grammar.Scopes
import OpenCLTree.Proofs.Tree.DeclaratorForm
import OpenCLTree.Proofs.Tree.Leveled
import OpenCLTree.Grammar.Recovery

namespace OpenCLTree

namespace ParseError

/-- Whether an error is one that a rule of the grammar stops with. Ambiguous casts only send
the grammar back, and lexical errors are none of its own. -/
def IsGrammatical (error : ParseError) : Prop :=
  error.kind ≠ .ambiguousCast ∧ error.kind ≠ .lexical

end ParseError

namespace GrammarState

/-- The state after a token has been taken. -/
def pass (state : GrammarState) (token : Token) (rest : List Word) : GrammarState :=
  { state with cursor := { state.cursor with taken := token :: state.cursor.taken, rest } }

def report (state : GrammarState) (error : ParseError) : GrammarState :=
  { state with reports := state.reports ++ [error] }

def mapScopes (state : GrammarState) (change : Scopes → Scopes) : GrammarState :=
  { state with scopes := change state.scopes }

def deepen (state : GrammarState) : GrammarState :=
  { state with nesting := state.nesting + 1 }

def surface (state : GrammarState) : GrammarState :=
  { state with nesting := state.nesting - 1 }

/-- Whether a name has been read: it is the text of a token that has been taken. -/
def HasRead (state : GrammarState) (name : String) : Prop :=
  ∃ token ∈ state.cursor.taken, token.text = name

@[simp]
theorem length_reports_report (state : GrammarState) (error : ParseError) :
    (state.report error).reports.length = state.reports.length + 1 := by
  simp [report]

end GrammarState

/-- What the grammar takes care of whenever it makes a node of some children. What it has reported so
far tells which qualifiers do not count. -/
structure Composes (reports : List ParseError) (kind : NodeKind) (children : List Child) : Prop where
  nonempty : children ≠ []
  proper : kind ≠ .error
  name : kind = .identifier → ∃ token : Token, children = [token.toChild]
  qualifier : kind.isQualifier = true → ∃ (qualifier : Qualifier) (token : Token),
    token.kind = .qualifier qualifier ∧ kind = qualifier.nodeKind ∧ children = [token.toChild]
  leveled : (Node.make kind children).IsLeveled
  qualifies : kind.holdsQualifiers = true → ∃ set, Qualifies reports children set
  declarators : (Node.make kind children).HasDeclarators

namespace NodeKind

/-- Whether nodes of a kind may have any children. -/
def isOrdinary (kind : NodeKind) : Bool :=
  kind != .error && kind != .identifier && !kind.isQualifier

/-- Whether nodes of a kind have neither qualifiers nor declarators of their own. -/
def isBare (kind : NodeKind) : Bool :=
  !kind.holdsQualifiers && kind.declaratorModes.isEmpty

/-- Whether a kind asks nothing of the children of its nodes. -/
def isPlain (kind : NodeKind) : Bool :=
  kind.isOrdinary && !kind.bindsParts && kind.isBare

end NodeKind

namespace Composes

variable {reports : List ParseError} {kind : NodeKind} {children : List Child}

theorem ordinary (isOrdinary : kind.isOrdinary = true) (nonempty : children ≠ [])
    (leveled : (Node.make kind children).IsLeveled)
    (qualifies : kind.holdsQualifiers = true → ∃ set, Qualifies reports children set)
    (declarators : (Node.make kind children).HasDeclarators) : Composes reports kind children where
  nonempty := nonempty
  proper isError := by simp [isError, NodeKind.isOrdinary] at isOrdinary
  name isName := by simp [isName, NodeKind.isOrdinary] at isOrdinary
  qualifier isQualifier := by simp [isQualifier, NodeKind.isOrdinary] at isOrdinary
  leveled := leveled
  qualifies := qualifies
  declarators := declarators

/-- A declarator without qualifiers of its own. -/
theorem declaring (isOrdinary : kind.isOrdinary = true) (free : kind.holdsQualifiers = false)
    (nonempty : children ≠ []) (leveled : (Node.make kind children).IsLeveled)
    (declarators : (Node.make kind children).HasDeclarators) : Composes reports kind children := by
  refine .ordinary isOrdinary nonempty leveled (fun holds => ?_) declarators
  rw [free] at holds
  cases holds

/-- A node whose parts have to bind. -/
theorem binding (isOrdinary : kind.isOrdinary = true) (bare : kind.isBare = true)
    (nonempty : children ≠ []) (leveled : (Node.make kind children).IsLeveled) :
    Composes reports kind children := by
  simp only [NodeKind.isBare, Bool.and_eq_true, Bool.not_eq_true', List.isEmpty_iff] at bare
  exact .declaring isOrdinary bare.1 nonempty leveled (.ofOther bare.2)

theorem plain (isPlain : kind.isPlain = true) (nonempty : children ≠ []) :
    Composes reports kind children := by
  simp only [NodeKind.isPlain, Bool.and_eq_true, Bool.not_eq_true'] at isPlain
  obtain ⟨⟨isOrdinary, loose⟩, bare⟩ := isPlain
  exact .binding isOrdinary bare nonempty (.ofOther loose)

/-- A node with qualifiers of its own, and declarators. -/
theorem qualifying {set : QualifierSet} (isOrdinary : kind.isOrdinary = true)
    (loose : kind.bindsParts = false) (nonempty : children ≠ [])
    (qualifies : Qualifies reports children set)
    (declarators : (Node.make kind children).HasDeclarators) : Composes reports kind children :=
  .ordinary isOrdinary nonempty (.ofOther loose) (fun _ => ⟨set, qualifies⟩) declarators

theorem identifier (token : Token) : Composes reports .identifier [token.toChild] where
  nonempty := List.cons_ne_nil _ _
  proper := by decide
  name _ := ⟨token, rfl⟩
  qualifier isQualifier := absurd isQualifier (by decide)
  leveled := .ofOther rfl
  qualifies holds := absurd holds (by decide)
  declarators := .ofOther rfl

theorem qualified {token : Token} {qualifier : Qualifier}
    (kind : token.kind = .qualifier qualifier) :
    Composes reports qualifier.nodeKind [token.toChild] where
  nonempty := List.cons_ne_nil _ _
  proper := by cases qualifier <;> decide
  name isName := ⟨token, rfl⟩
  qualifier _ := ⟨qualifier, token, kind, rfl, rfl⟩
  leveled := .ofOther (by cases qualifier <;> rfl)
  qualifies holds := absurd holds (by cases qualifier <;> decide)
  declarators := .ofOther (by cases qualifier <;> rfl)

end Composes

/-- How the grammar gets from one state to another while it reads some children. Whatever a
rule does, up to its end or up to its failure, is made of these steps. Children stand here
without their fields. A remark is a report that leaves no error node behind. -/
inductive ReadsWith (remarks : Prop) : GrammarState → List Child → GrammarState → Prop
  | nothing (state : GrammarState) : ReadsWith remarks state [] state
  | join {first middle last : GrammarState} {front back : List Child} :
      ReadsWith remarks first front middle → ReadsWith remarks middle back last →
      ReadsWith remarks first (front ++ back) last
  | token {state : GrammarState} {mode : LexMode} {token : Token} {rest : List Word} :
      Word.read? mode state.cursor.rest = some (token, rest) →
      ReadsWith remarks state [token.toChild] (state.pass token rest)
  | node {first last : GrammarState} {kind : NodeKind} {children : List Child} :
      Composes last.reports kind children → ReadsWith remarks first (children.map Child.bare) last →
      ReadsWith remarks first [(Node.make kind children).toChild] last
  | duplicate {first last : GrammarState} {token : Token} {category : QualifierCategory}
      {earlier : Span} :
      ReadsWith remarks first [token.toChild] last →
      ReadsWith remarks first [(Node.ofToken .error token).toChild]
        (last.report (.duplicateQualifier category earlier token.span))
  | recovered {first failure last : GrammarState} {children : List Child}
      {skipped : List Token} {error : ParseError} :
      ReadsWith remarks first children failure → error.IsGrammatical →
      ReadsWith remarks (failure.report error) (skipped.map Token.toChild) last →
      Node.leavesOfChildren children ++ skipped ≠ [] →
      ReadsWith remarks first
        [(Node.make .error
          ((Node.leavesOfChildren children ++ skipped).map Token.toChild)).toChild] last
  | declared (state : GrammarState) {name : String} (sort : NameSort) :
      state.HasRead name → ReadsWith remarks state [] (state.mapScopes (·.declare name sort))
  | inScope {first last : GrammarState} {children : List Child} :
      ReadsWith remarks (first.mapScopes Scopes.enter) children last →
      ReadsWith remarks first children (last.mapScopes Scopes.leave)
  | deeper {first last : GrammarState} {children : List Child} :
      ReadsWith remarks first.deepen children last → ReadsWith remarks first children last.surface
  | remarked (allowed : remarks) (state : GrammarState) {error : ParseError} :
      error.IsGrammatical → ReadsWith remarks state [] (state.report error)

/-- The steps without remarks. -/
abbrev Reads := ReadsWith False

namespace Word

theorem read?_suffix {mode : LexMode} {words rest : List Word} {token : Token}
    (read : read? mode words = some (token, rest)) :
    rest <:+ words ∧ rest.length + 1 ≤ words.length := by
  unfold read? at read
  split at read
  · cases read
  · split at read
    · cases read
      exact ⟨(List.tail_suffix _).trans (List.suffix_cons _ _), by simp⟩
    · cases read
      exact ⟨List.suffix_cons _ _, by simp⟩

end Word

namespace ReadsWith

variable {remarks : Prop} {first middle last : GrammarState} {children front back : List Child}

theorem mode (reads : ReadsWith remarks first children last) :
    last.cursor.mode = first.cursor.mode := by
  induction reads with
  | nothing | token | declared | remarked => rfl
  | join _ _ ihFront ihBack => exact ihBack.trans ihFront
  | node _ _ ih | duplicate _ ih | inScope _ ih | deeper _ ih => exact ih
  | recovered _ _ _ _ ihTaken ihSkipped => exact ihSkipped.trans ihTaken

theorem nesting (reads : ReadsWith remarks first children last) : last.nesting = first.nesting := by
  induction reads with
  | nothing | token | declared | remarked => rfl
  | join _ _ ihFront ihBack => exact ihBack.trans ihFront
  | node _ _ ih | duplicate _ ih | inScope _ ih => exact ih
  | recovered _ _ _ _ ihTaken ihSkipped => exact ihSkipped.trans ihTaken
  | deeper _ ih => exact congrArg (· - 1) ih

theorem wrap {kind : NodeKind} (reads : ReadsWith remarks first front last)
    (same : front = children.map Child.bare) (composes : Composes last.reports kind children) :
    ReadsWith remarks first [(Node.make kind children).toChild] last :=
  .node composes (same ▸ reads)

theorem leaf {kind : NodeKind} {token : Token} (reads : ReadsWith remarks first [token.toChild] last)
    (composes : Composes last.reports kind [token.toChild]) :
    ReadsWith remarks first [(Node.ofToken kind token).toChild] last :=
  .node composes reads

/-- A token among the children may as well stand in a node of its own. -/
theorem leafAt {kind : NodeKind} {token : Token} (reads : ReadsWith remarks first children last)
    (front : List Child) {back : List Child} (found : children = front ++ token.toChild :: back)
    (composes : ∀ reports, Composes reports kind [token.toChild]) :
    ReadsWith remarks first (front ++ (Node.ofToken kind token).toChild :: back) last := by
  induction reads generalizing front back with
  | nothing | declared | remarked => simp at found
  | join readsFront readsBack ihFront ihBack =>
    rcases List.append_eq_append_iff.mp found with ⟨middle, atFront, atBack⟩ | ⟨middle, atFront, atBack⟩
    · rw [atFront, List.append_assoc]
      exact readsFront.join (ihBack middle atBack)
    · cases middle with
      | nil =>
        simp only [List.append_nil] at atFront
        rw [← atFront]
        exact readsFront.join (ihBack [] atBack.symm)
      | cons found rest =>
        obtain ⟨rfl, rfl⟩ := List.cons.inj atBack
        have wrapped := (ihFront front atFront).join readsBack
        rwa [List.append_assoc] at wrapped
  | token read =>
    simp only [List.singleton_eq_append_iff, List.cons.injEq, reduceCtorEq, and_false,
      or_false, Token.toChild, Child.token.injEq, true_and] at found
    obtain ⟨rfl, rfl, rfl⟩ := found
    exact .leaf (.token read) (composes _)
  | node | duplicate | recovered =>
    simp [List.singleton_eq_append_iff, Node.toChild, Token.toChild] at found
  | inScope _ ih => exact (ih front found).inScope
  | deeper _ ih => exact (ih front found).deeper

/-- A name is a node around its token, which has been read as such. -/
theorem unwrap {node : Node} (reads : ReadsWith remarks first children last)
    (single : children = [node.toChild]) (name : node.kind = .identifier) :
    ∃ token, node = .ofToken .identifier token ∧ ReadsWith remarks first [token.toChild] last := by
  induction reads with
  | nothing | declared | remarked => simp at single
  | join readsFront readsBack ihFront ihBack =>
    rcases List.append_eq_singleton_iff.mp single with ⟨rfl, atBack⟩ | ⟨atFront, rfl⟩
    · obtain ⟨token, same, reads⟩ := ihBack atBack
      exact ⟨token, same, readsFront.join reads⟩
    · obtain ⟨token, same, reads⟩ := ihFront atFront
      exact ⟨token, same, by simpa using reads.join readsBack⟩
  | token => simp [Node.toChild, Token.toChild] at single
  | node composes reads =>
    simp only [Node.toChild, List.cons.injEq, Child.node.injEq, and_true, true_and] at single
    subst single
    obtain ⟨token, rfl⟩ := composes.name name
    cases name
    exact ⟨token, rfl, reads⟩
  | duplicate | recovered =>
    simp only [Node.toChild, List.cons.injEq, Child.node.injEq, and_true, true_and] at single
    subst single
    cases name
  | inScope _ ih =>
    obtain ⟨token, same, reads⟩ := ih single
    exact ⟨token, same, reads.inScope⟩
  | deeper _ ih =>
    obtain ⟨token, same, reads⟩ := ih single
    exact ⟨token, same, reads.deeper⟩

/-- The tokens taken on the way are the leaves of the children, in order. -/
theorem taken (reads : ReadsWith remarks first children last) :
    last.cursor.taken = (Node.leavesOfChildren children).reverse ++ first.cursor.taken := by
  induction reads with
  | nothing => simp
  | join _ _ ihFront ihBack => simp [ihBack, ihFront]
  | token => simp [GrammarState.pass, Token.toChild]
  | node _ _ ih => simpa [Node.toChild] using ih
  | duplicate _ ih => simpa [GrammarState.report, Node.toChild, Node.ofToken] using ih
  | recovered _ _ _ _ ihTaken ihSkipped =>
    simpa [ihTaken, GrammarState.report, Node.toChild] using ihSkipped
  | declared => simp [GrammarState.mapScopes]
  | inScope _ ih | deeper _ ih => exact ih
  | remarked => simp [GrammarState.report]

theorem hasRead (reads : ReadsWith remarks first children last) {leaf : Token}
    (member : leaf ∈ Node.leavesOfChildren children) : last.HasRead leaf.text :=
  ⟨leaf, reads.taken ▸ List.mem_append_left _ (List.mem_reverse.mpr member), rfl⟩

/-- What was reported before stays in front, and every new report is an error of the grammar. -/
theorem reports (reads : ReadsWith remarks first children last) :
    ∃ added, last.reports = first.reports ++ added ∧ ∀ error ∈ added, error.IsGrammatical := by
  induction reads with
  | nothing => exact ⟨[], by simp⟩
  | join _ _ ihFront ihBack =>
    obtain ⟨before, atMiddle, ofBefore⟩ := ihFront
    obtain ⟨after, atLast, ofAfter⟩ := ihBack
    refine ⟨before ++ after, by rw [atLast, atMiddle, List.append_assoc], ?_⟩
    intro error member
    exact (List.mem_append.mp member).elim (ofBefore error) (ofAfter error)
  | token => exact ⟨[], by simp [GrammarState.pass]⟩
  | node _ _ ih => exact ih
  | duplicate _ ih =>
    obtain ⟨added, atLast, ofAdded⟩ := ih
    refine ⟨added ++ [_], by rw [GrammarState.report, atLast, List.append_assoc], ?_⟩
    intro error member
    rcases List.mem_append.mp member with old | new
    · exact ofAdded error old
    · rw [List.mem_singleton.mp new]
      exact ⟨by simp [ParseError.kind], by simp [ParseError.kind]⟩
  | @recovered first failure last children skipped error _ grammatical _ _ ihTaken ihSkipped =>
    obtain ⟨before, atFailure, ofBefore⟩ := ihTaken
    obtain ⟨after, atLast, ofAfter⟩ := ihSkipped
    refine ⟨before ++ [error] ++ after, ?_, ?_⟩
    · simp [atLast, GrammarState.report, atFailure]
    · intro other member
      simp only [List.mem_append, List.mem_singleton] at member
      rcases member with (old | rfl) | new
      · exact ofBefore other old
      · exact grammatical
      · exact ofAfter other new
  | declared => exact ⟨[], by simp [GrammarState.mapScopes]⟩
  | inScope _ ih | deeper _ ih => exact ih
  | remarked _ _ grammatical => exact ⟨[_], rfl, by simpa using grammatical⟩

theorem reports_subset (reads : ReadsWith remarks first children last) :
    first.reports ⊆ last.reports := by
  obtain ⟨added, atLast, _⟩ := reads.reports
  rw [atLast]
  exact List.subset_append_left _ _

theorem scopes (reads : ReadsWith remarks first children last) : first.scopes.Since last.scopes := by
  induction reads with
  | nothing state => exact .refl state.scopes
  | join _ _ ihFront ihBack => exact ihFront.trans ihBack
  | token | remarked => exact .refl _
  | node _ _ ih | duplicate _ ih | deeper _ ih => exact ih
  | recovered _ _ _ _ ihTaken ihSkipped => exact ihTaken.trans ihSkipped
  | @declared state name sort _ => exact state.scopes.since_declare name sort
  | inScope _ ih => exact ((Scopes.since_enter _).trans ih).trans (Scopes.since_leave _)

theorem hasRead_mono (reads : ReadsWith remarks first children last) {name : String}
    (read : first.HasRead name) : last.HasRead name := by
  obtain ⟨token, member, text⟩ := read
  exact ⟨token, reads.taken ▸ List.mem_append_right _ member, text⟩

/-- There are as many scopes open as before, and they differ at most in names that have been
read. -/
theorem layers (reads : ReadsWith remarks first children last) {known : String → Prop}
    (read : ∀ name, last.HasRead name → known name) (some : first.scopes.layers ≠ []) :
    Scopes.SameBut known first.scopes.layers last.scopes.layers := by
  induction reads with
  | nothing | token | remarked => exact .refl known _
  | join _ later ihFront ihBack =>
    have front := ihFront (fun name here => read name (later.hasRead_mono here)) some
    exact front.trans (ihBack read (front.ne_nil some))
  | node _ _ ih | duplicate _ ih | deeper _ ih => exact ih read some
  | recovered _ _ later _ ihTaken ihSkipped =>
    have front := ihTaken (fun name here => read name (later.hasRead_mono here)) some
    exact front.trans (ihSkipped read (front.ne_nil some))
  | declared state sort here => exact Scopes.sameBut_declare (read _ here) _ sort
  | inScope _ ih => exact Scopes.sameBut_leave some (ih read (List.cons_ne_nil _ _))

/-- Whatever has been read, going back to a snapshot leaves no trace of it. -/
theorem restore (reads : ReadsWith remarks first children last) :
    { last with
      cursor := first.cursor
      reports := last.reports.take first.reports.length
      scopes := last.scopes.undoTo first.scopes.mark } = first := by
  obtain ⟨added, atLast, _⟩ := reads.reports
  rw [atLast, List.take_left', reads.scopes.undoTo_mark, reads.nesting]
  rfl

/-- The words that remain are the last of those there were, and at least one word has been
passed for every leaf. -/
theorem rest (reads : ReadsWith remarks first children last) :
    last.cursor.rest <:+ first.cursor.rest ∧
      last.remaining + (Node.leavesOfChildren children).length ≤ first.remaining := by
  induction reads with
  | nothing state => exact ⟨List.suffix_refl _, by simp⟩
  | join _ _ ihFront ihBack =>
    refine ⟨ihBack.1.trans ihFront.1, ?_⟩
    have front := ihFront.2
    have back := ihBack.2
    simp only [Node.leavesOfChildren_append, List.length_append]
    omega
  | @token state mode token rest read =>
    have suffix := Word.read?_suffix read
    exact ⟨suffix.1, suffix.2⟩
  | node _ _ ih => simpa [Node.toChild] using ih
  | duplicate _ ih => exact ih
  | @recovered first failure last _ _ _ _ _ _ _ ihTaken ihSkipped =>
    refine ⟨ihSkipped.1.trans ihTaken.1, ?_⟩
    have taken := ihTaken.2
    have skipped := ihSkipped.2
    simp only [Node.leavesOfChildren_tokens, Node.toChild, Node.leavesOfChildren_node,
      Node.leavesOfChildren_nil, Node.leaves_make, List.append_nil, List.length_append] at skipped ⊢
    change last.remaining + _ ≤ failure.remaining at skipped
    omega
  | declared => exact ⟨List.suffix_refl _, by simp [GrammarState.mapScopes, GrammarState.remaining]⟩
  | inScope _ ih | deeper _ ih => exact ih
  | remarked => exact ⟨List.suffix_refl _, by simp [GrammarState.report, GrammarState.remaining]⟩

/-- There are no children without leaves. -/
theorem length_le (reads : ReadsWith remarks first children last) :
    children.length ≤ (Node.leavesOfChildren children).length := by
  induction reads with
  | nothing => simp
  | join _ _ ihFront ihBack =>
    simp only [Node.leavesOfChildren_append, List.length_append]
    omega
  | token => simp [Token.toChild]
  | node composes _ ih =>
    have nonempty := List.length_pos_iff.mpr composes.nonempty
    simp only [List.length_map, Node.leavesOfChildren_bare] at ih
    simp only [Node.toChild, Node.leavesOfChildren_node, Node.leaves_make,
      Node.leavesOfChildren_nil, List.append_nil, List.length_singleton]
    omega
  | duplicate => simp [Node.toChild, Node.ofToken, Token.toChild]
  | recovered _ _ _ nonempty =>
    simpa [Node.toChild, Nat.succ_le_iff] using List.length_pos_iff.mpr nonempty
  | declared | remarked => simp
  | inScope _ ih | deeper _ ih => exact ih

/-- Without a leaf the cursor has not moved. -/
theorem cursor_eq (reads : ReadsWith remarks first children last)
    (none : Node.leavesOfChildren children = []) : last.cursor = first.cursor := by
  induction reads with
  | nothing | declared | remarked => rfl
  | join _ _ ihFront ihBack =>
    rw [Node.leavesOfChildren_append, List.append_eq_nil_iff] at none
    exact (ihBack none.2).trans (ihFront none.1)
  | token => simp [Token.toChild] at none
  | node _ _ ih => exact ih (by simpa [Node.toChild] using none)
  | duplicate => simp [Node.toChild, Node.ofToken, Token.toChild] at none
  | recovered _ _ _ nonempty => simp [Node.toChild] at none; simp [none] at nonempty
  | inScope _ ih | deeper _ ih => exact ih none

/-- Steps without remarks are steps whether there may be remarks or not. -/
theorem allow (reads : Reads first children last) : ReadsWith remarks first children last := by
  induction reads with
  | nothing state => exact .nothing state
  | join _ _ ihFront ihBack => exact ihFront.join ihBack
  | token read => exact .token read
  | node composes _ ih => exact .node composes ih
  | duplicate _ ih => exact ih.duplicate
  | recovered _ grammatical _ nonempty ihTaken ihSkipped =>
    exact .recovered ihTaken grammatical ihSkipped nonempty
  | declared state sort read => exact .declared state sort read
  | inScope _ ih => exact ih.inScope
  | deeper _ ih => exact ih.deeper
  | remarked allowed => exact allowed.elim

theorem remaining_le (reads : ReadsWith remarks first children last) : last.remaining ≤ first.remaining :=
  Nat.le_trans (Nat.le_add_right _ _) reads.rest.2

theorem remaining_lt (reads : ReadsWith remarks first children last) (nonempty : children ≠ []) :
    last.remaining < first.remaining := by
  have positive := List.length_pos_iff.mpr nonempty
  have leaves := reads.length_le
  have rest := reads.rest.2
  omega

end ReadsWith

end OpenCLTree
