import OpenCLTree.Proofs.Grammar.Kernel
import OpenCLTree.Proofs.Grammar.Statement

namespace OpenCLTree

/-- What becomes of a kernel: its definition, or a declaration with a remark. -/
def KernelOutcome (first : GrammarState) (node : Node) (last : GrammarState) : Prop :=
  Reads first [node.toChild] last ∧ node.kind = .kernelFunctionDefinition ∨
    ReadsWith True first [node.toChild] last ∧ node.kind = .declaration ∧
      first.reports.length < last.reports.length

/-- What becomes of a top-level item: it is read without a remark, and then only a definition
has a kernel qualifier; or something is reported, and it is an error or a declaration with a
kernel qualifier. -/
def ItemOutcome (first : GrammarState) (node : Node) (last : GrammarState) : Prop :=
  Reads first [node.toChild] last ∧
      (Child.HasKernel node.children → node.kind = .kernelFunctionDefinition) ∨
    ReadsWith True first [node.toChild] last ∧ first.reports.length < last.reports.length ∧
      (node.kind = .error ∨ node.kind = .declaration ∧ Child.HasKernel node.children)

namespace Rule

variable {sub : Grammar} {room : Nat} {remarks : Prop} {first state : GrammarState}
  {specifiers : Specifiers}

theorem declareParameters_builds {names : List String} (read : ∀ name ∈ names, state.HasRead name) :
    (mapScopes fun scopes => names.foldl (·.declare · .ordinary) scopes).Builds state := by
  unfold mapScopes Builds
  rw [meets_modify]
  induction names generalizing state with
  | nil => exact .nothing state
  | cons name rest ih =>
    obtain ⟨here, later⟩ := List.forall_mem_cons.mp read
    have later : ∀ name' ∈ rest, (state.mapScopes (·.declare name .ordinary)).HasRead name' := later
    exact (ReadsWith.declared state .ordinary here).join (ih later)

theorem definitionAfter_reads {kind : NodeKind} {declared : Declared} (serves : sub.Serves room)
    (fits : state.Fits (room + 1)) (definition : kind = .functionDefinition ∨ kind = .kernelFunctionDefinition)
    (lack : Child.LackDeclarators specifiers.children) (proper : declared.Proper)
    (qualifies : Qualifies state.reports specifiers.children specifiers.qualifiers)
    (sofar : Reads first (pieces specifiers ++ pieces declared) state) :
    (definitionAfter sub kind specifiers declared).Meets state
      (fun node after => Reads first [node.toChild] after ∧ node.kind = kind)
      (Stops False first) := by
  have declarator : declared.declarator.leaves ⊆
      Node.leavesOfChildren (pieces specifiers ++ pieces declared) := by
    rw [Node.leavesOfChildren_append, pieces_declared, Node.toChild, Node.leavesOfChildren_node]
    exact fun leaf member => List.mem_append_right _ (List.mem_append_left _ member)
  refine sofar.step (declareName_builds .ordinary sofar ?_) fun _ s1 readNothing sofar => ?_
  · rw [Node.leavesOfChildren_append]
    exact List.subset_append_right _ _
  refine sofar.stepWith (Meets.gives (inScope_builds (?_ : Builds _ _)) definitionBody_gives)
    fun body s2 isBody readBody sofar => ?_
  · have fits1 := (readNothing.fits fits).mapScopes Scopes.enter
    have read (name : String) (member : name ∈ declared.declarator.parameterNames) :
        (s1.mapScopes Scopes.enter).HasRead name := by
      obtain ⟨leaf, inside, rfl⟩ := Node.mem_leaves_of_parameterNames member
      exact sofar.hasRead (by simpa using declarator inside)
    refine (ReadsWith.nothing _).step (declareParameters_builds read) fun _ s2 readNames sofar => ?_
    refine (compoundStatement_builds serves (readNames.fits fits1)).mono ?_ fun _ _ stops =>
      sofar.stops stops
    exact fun _ _ reads => sofar.join reads
  · have atBody : Child.Declarators .named [body.as .body] :=
      Child.declarators_of_lack (Child.apart_node.mpr ⟨by rw [isBody]; rfl, Child.apart_nil⟩)
        (List.forall_mem_singleton.mpr fun other => by cases other)
    have kept := qualifies.mono (readNothing.join readBody).reports_subset
    have qualifies := (kept.append proper.apart).append atBody.apart
    have names := (lack.names.append proper.declarators.names).append atBody.names
    refine ⟨sofar.wrap (by simp [Declared.children]) (.qualifying ?_ ?_ (by simp) qualifies
      (.ofFields ?_ ?_ names)), rfl⟩
    all_goals rcases definition with rfl | rfl <;> first | rfl | exact List.mem_singleton_self _

theorem reports_lt {error : ParseError} (passed : Passes first state) :
    first.reports.length < (state.report error).reports.length := by
  have grown := passed.reports_le
  rw [GrammarState.length_reports_report]
  omega

theorem kernelAsDeclaration_reads {middle : GrammarState} {declared : Declared}
    (serves : sub.Serves room) (nonempty : specifiers.children ≠ []) (fits : middle.Fits room)
    (lack : Child.LackDeclarators specifiers.children) (proper : declared.Proper)
    (qualifies : Qualifies state.reports specifiers.children specifiers.qualifiers)
    (before : Reads first (pieces specifiers) middle)
    (sofar : ReadsWith True middle (pieces declared) state)
    (reported : first.reports.length < state.reports.length) :
    (kernelAfter.asDeclaration sub specifiers declared).Meets state
      (KernelOutcome first) (Stops True first) := by
  unfold kernelAfter.asDeclaration
  rw [meets_bind]
  refine ((declarationRest_reads serves fits proper sofar).gives
    (declarationRest_gives serves.declarators proper)).mono ?_ fun _ _ stops =>
      before.allow.stops stops
  rintro rest after ⟨declarators, reads, passed⟩
  refine .inr ⟨?_, rfl, Nat.lt_of_lt_of_le reported passed.reports_le⟩
  have qualifies := (qualifies.mono passed.reports_subset).append declarators.apart
  exact (before.allow.join reads).wrap (by simp) (.qualifying rfl rfl (by simp [nonempty]) qualifies
    (.ofFields (List.mem_singleton_self _) rfl (lack.names.append declarators.names)))

theorem kernelAfter_reads (serves : sub.Serves room) (fits : first.Fits (room + 1))
    (nonempty : specifiers.children ≠ []) (lack : Child.LackDeclarators specifiers.children)
    (qualifies : Qualifies state.reports specifiers.children specifiers.qualifiers)
    (before : Reads first (pieces specifiers) state) :
    (kernelAfter sub specifiers).Meets state (KernelOutcome first) (Stops True first) := by
  have fits1 := before.fits_pred fits (by simpa using nonempty)
  refine before.allow.stepWith (Meets.gives (requiredDeclarator_builds serves fits1)
    (requiredDeclarator_gives serves.declarators)) fun declarator s1 known readDeclarator sofar => ?_
  have fits2 := readDeclarator.fits fits1
  have passed := before.passes.trans readDeclarator.passes
  have qualifies := qualifies.mono readDeclarator.reports_subset
  split
  · refine sofar.stepWith (Meets.gives (attributes_builds serves fits2.weaken) attributes_gives)
      fun attributes s2 areAttributes readAttributes sofar => ?_
    have qualifies := qualifies.mono readAttributes.reports_subset
    have proper : Declared.Proper ⟨declarator, attributes⟩ := ⟨known, areAttributes⟩
    have declared : Reads state (pieces (⟨declarator, attributes⟩ : Declared)) s2 := by
      simpa using readDeclarator.join readAttributes
    rw [meets_bind, meets_check]
    split
    · refine (definitionAfter_reads serves (declared.fits fits1).weaken (.inr rfl) lack proper qualifies
        (before.join declared)).mono (fun _ _ reads => .inl reads) fun _ _ stops => stops.allow
    · dsimp only
      rw [meets_bind, meets_report]
      have remark : ReadsWith True s2 [] (s2.report (.missingBody
          ((declarator.declaratorName?.map (·.text)).getD "") declarator.span)) :=
        .remarked trivial s2 ⟨by simp [ParseError.kind], by simp [ParseError.kind]⟩
      refine kernelAsDeclaration_reads serves nonempty fits1 lack proper
        (qualifies.mono remark.reports_subset) before ?_
        (reports_lt (passed.trans readAttributes.passes))
      simpa using declared.allow.join remark
  · rw [meets_bind, meets_report]
    have remark : ReadsWith True s1 [] (s1.report (.unexpectedToken .functionDeclarator
        declarator.kind.name declarator.span)) :=
      .remarked trivial s1 ⟨by simp [ParseError.kind], by simp [ParseError.kind]⟩
    have sofar := readDeclarator.allow.join remark
    rw [meets_bind]
    refine (Meets.gives (attributes_builds serves ?_) attributes_gives).mono ?_ fun _ _ stops =>
      (before.allow.join sofar).stops stops.allow
    · exact (sofar.fits fits1).weaken
    · rintro attributes s2 ⟨areAttributes, readAttributes⟩
      refine kernelAsDeclaration_reads serves nonempty fits1 lack ⟨known, areAttributes⟩
        (qualifies.mono (remark.join readAttributes.allow).reports_subset) before ?_
        (Nat.lt_of_lt_of_le (reports_lt passed) readAttributes.passes.reports_le)
      simpa using sofar.join readAttributes.allow

theorem externalDeclaration_reads (serves : sub.Serves room) (fits : state.Fits (room + 1)) :
    (externalDeclaration sub).Meets state (ItemOutcome state) (Stops True state) := by
  have readsDeclarators := serves.declarators
  unfold externalDeclaration
  rw [meets_bind]
  refine ((declarationSpecifiers_reads serves fits).gives declarationSpecifiers_gives).mono ?_
    fun _ _ stops => stops.allow
  rintro specifiers s1 ⟨specifies, nonempty, qualifies, before⟩
  have lack := specifies.lackDeclarators
  split
  · rename_i isKernel
    refine ((kernelAfter_reads serves fits nonempty lack qualifies before).gives
      (kernelAfter_gives readsDeclarators)).mono ?_ fun _ _ stops => stops
    rintro node after ⟨kernelOf, ⟨reads, kind⟩ | ⟨reads, kind, reported⟩⟩
    · exact .inl ⟨reads, fun _ => kind⟩
    · exact .inr ⟨reads, reported, .inr ⟨kind, kernelOf.mpr (qualifies.isKernel_iff.mp isKernel)⟩⟩
  · rename_i other
    refine ((declarationAfter_reads serves fits nonempty lack qualifies before ?_).gives
      (declarationAfter_gives readsDeclarators ?_)).mono ?_ fun _ _ stops => stops.allow
    · intro declared body after found proper qualifies sofar
      split at found
      · obtain rfl := Option.some.inj found
        refine (definitionAfter_reads serves (sofar.fits fits) (.inl rfl) lack proper qualifies sofar).mono
          (fun _ _ reads => reads.1) fun _ _ stops => stops
      · cases found
    · intro declared body found proper
      split at found
      · obtain rfl := Option.some.inj found
        exact definitionAfter_gives proper
      · cases found
    · rintro node after ⟨kernelOf, reads⟩
      exact .inl ⟨reads, fun kernel =>
        absurd (qualifies.isKernel_iff.mpr (kernelOf.mp kernel)) other⟩

/-- The lines of the preprocessor have no qualifiers. -/
theorem pragmaNode_withoutKernel (marker : Token) (line : List Token) :
    ¬ Child.HasKernel (pragmaNode marker line).children := by
  have otherLine : ¬ Child.HasKernel (pragmaNode.otherLine marker line).children := by
    simp [pragmaNode.otherLine, Child.HasKernel, Child.nodes, Token.toChild]
  unfold pragmaNode
  split
  · split
    · simp [Child.HasKernel, Child.nodes, Token.toChild, Node.as, Node.ofToken]
    · exact otherLine
  · split
    · simp [Child.HasKernel, Child.nodes, Token.toChild, Node.as, Node.ofToken]
    · exact otherLine
  · exact otherLine

theorem topLevelItem_reads (serves : sub.Serves room) (fits : state.Fits (room + 1)) :
    (topLevelItem sub).Meets state (ItemOutcome state) (Stops True state) := by
  have line {rule : Rule Node} (builds : rule.Builds state)
      (gives : rule.Gives fun node => ¬ Child.HasKernel node.children) :
      rule.Meets state (ItemOutcome state) (Stops True state) :=
    (Meets.gives builds gives).mono
      (fun node _ outcome => .inl ⟨outcome.2, fun kernel => absurd kernel outcome.1⟩)
      fun _ _ stops => stops.allow
  unfold topLevelItem
  rw [meets_bind, meets_currentKind]
  split
  · refine line (pragmaLine_builds fits) (gives_bind fun marker => gives_bind fun line => ?_)
    exact gives_pure (pragmaNode_withoutKernel marker line)
  · refine line (directiveLine_builds fits) (gives_bind fun marker => gives_bind fun line => ?_)
    refine gives_pure ?_
    simp [Child.HasKernel, Child.nodes, Token.as]
  · exact externalDeclaration_reads serves fits

theorem pragmaNode_proper (marker : Token) (line : List Token) :
    (pragmaNode marker line).kind ≠ .error := by
  have otherLine : (pragmaNode.otherLine marker line).kind ≠ .error := by
    simp [pragmaNode.otherLine]
  unfold pragmaNode
  split
  · split
    · simp
    · exact otherLine
  · split
    · simp
    · exact otherLine
  · exact otherLine

/-- Only recovery makes an error node of an item. -/
theorem topLevelItem_proper : (topLevelItem sub).Gives fun node => node.kind ≠ .error := by
  have definition {kind : NodeKind} {specifiers : Specifiers} {declared : Declared}
      (proper : kind ≠ .error) :
      (definitionAfter sub kind specifiers declared).Gives fun node => node.kind ≠ .error :=
    gives_bind fun _ => gives_bind fun _ => gives_pure proper
  have declaration {specifiers : Specifiers} {declared : Declared} :
      (kernelAfter.asDeclaration sub specifiers declared).Gives fun node => node.kind ≠ .error :=
    gives_bind fun _ => gives_pure (by simp)
  refine gives_bind fun kind => ?_
  split
  · exact gives_bind fun _ => gives_bind fun _ => gives_pure (pragmaNode_proper _ _)
  · exact gives_bind fun _ => gives_bind fun _ => gives_pure (by simp)
  · refine gives_bind fun specifiers => ?_
    split
    · refine gives_bind fun declarator => ?_
      split
      · refine gives_bind fun attributes => gives_bind fun here => ?_
        split
        · exact definition (by decide)
        · exact gives_bind fun _ => declaration
      · exact gives_bind fun _ => gives_bind fun _ => declaration
    · refine gives_bind fun found => ?_
      have plain : (if specifiers.qualifiers.isTypedef then NodeKind.typeDefinition
          else .declaration) ≠ .error := by split <;> decide
      split
      · exact gives_pure plain
      · refine gives_bind fun first => gives_bind fun here => ?_
        split
        · rename_i body atBody
          split at atBody
          · cases atBody
          · dsimp only at atBody
            split at atBody <;> cases atBody
            exact definition (by decide)
        · exact gives_bind fun _ => gives_pure plain

theorem recoveringItem_reads (serves : sub.Serves room) (fits : state.Fits (room + 1))
    (here : state.cursor.peek? 0 ≠ none) :
    (recovering .topLevel (topLevelItem sub)).Meets state (ItemOutcome state)
      fun _ _ => False := by
  unfold recovering snapshot
  rw [meets_bind, meets_bind, meets_get, meets_pure, meets_bind, meets_attempt]
  refine (topLevelItem_reads serves fits).mono (fun _ _ outcome => outcome) ?_
  rintro error failure ⟨grammatical, children, reads⟩
  refine (recover_reads rfl fits.lawful here reads grammatical).mono ?_ fun _ _ never => never
  rintro node after ⟨recovered, kind, grown⟩
  obtain ⟨added, atFailure, _⟩ := reads.reports
  refine .inr ⟨recovered, ?_, .inl kind⟩
  exact Nat.lt_of_le_of_lt (by simp [atFailure]) grown

end Rule

/-- The items read from one state to another. -/
inductive ReadsItems (first : GrammarState) : List Node → GrammarState → Prop
  | nothing : ReadsItems first [] first
  | item {items : List Node} {node : Node} {middle last : GrammarState} :
      ReadsItems first items middle → ItemOutcome middle node last →
      ReadsItems first (items ++ [node]) last

theorem ItemOutcome.reads {first last : GrammarState} {node : Node}
    (outcome : ItemOutcome first node last) : ReadsWith True first [node.toChild] last :=
  outcome.elim (fun reads => reads.1.allow) And.left

theorem ReadsItems.reads {first last : GrammarState} {items : List Node}
    (read : ReadsItems first items last) :
    ReadsWith True first (items.map Node.toChild) last := by
  induction read with
  | nothing => exact .nothing first
  | item _ outcome ih => simpa using ih.join outcome.reads

namespace Rule

variable {sub : Grammar} {room : Nat} {first : GrammarState}

/-- The items reach from the start to the end of the source, without a failure. -/
theorem sourceItems_reads (serves : sub.Serves room) (fits : first.Fits (room + 1)) :
    (sourceItems sub).Meets first
      (fun items last => ReadsItems first items last ∧ last.cursor.peek? 0 = none)
      fun _ _ => False := by
  unfold sourceItems many
  refine Meets.loop (fun items state => ReadsItems first items state) ?_ .nothing
  intro items state read
  rw [meets_bind, meets_bind, meets_atEnd]
  split
  · rename_i ended
    exact ⟨read, by simpa using ended⟩
  · rename_i goesOn
    rw [meets_bind]
    refine (recoveringItem_reads serves (read.reads.fits fits) (by simpa using goesOn)).mono ?_
      fun _ _ never => never
    intro node after outcome
    exact ⟨read.item outcome, outcome.reads.remaining_lt (by simp)⟩

end Rule

namespace Grammar

theorem exhausted_serves : exhausted.Serves 0 where
  expressionBinds _ _ fits := absurd fits.fewer (Nat.not_lt_zero _)
  castBinds fits := absurd fits.fewer (Nat.not_lt_zero _)
  unaryBinds fits := absurd fits.fewer (Nat.not_lt_zero _)
  initializerBinds fits := absurd fits.fewer (Nat.not_lt_zero _)
  typeSpecifier fits := absurd fits.fewer (Nat.not_lt_zero _)
  declarationSpecifiers fits := absurd fits.fewer (Nat.not_lt_zero _)
  declarator _ _ fits := absurd fits.fewer (Nat.not_lt_zero _)
  specifierFields _ _ _ run := by cases run
  declarators _ _ _ _ run := by cases run
  statement fits := absurd fits.fewer (Nat.not_lt_zero _)

theorem Serves.calling {sub : Grammar} {room : Nat} (serves : sub.Serves room) :
    sub.calling.Serves (room + 1) where
  expressionBinds _ _ fits := Rule.expression_builds serves fits
  castBinds fits := Rule.castExpression_builds serves fits
  unaryBinds fits := Rule.unaryExpression_builds serves fits
  initializerBinds fits := Rule.initializer_builds serves fits
  typeSpecifier fits := Rule.typeSpecifier_builds serves fits
  declarationSpecifiers fits := Rule.declarationSpecifiers_reads serves fits
  declarator _ _ fits := Rule.declarator_builds serves fits
  specifierFields := Rule.declarationSpecifiers_gives.mono fun _ proper => proper.lackDeclarators
  declarators _ := Rule.declarator_gives serves.declarators
  statement fits := Rule.statement_builds serves fits

/-- With room for as many calls inside each other as there are tokens, no rule is exhausted. -/
theorem ofDepth_serves (depth : Nat) : (ofDepth depth).Serves depth := by
  induction depth with
  | zero => exact exhausted_serves
  | succ depth ih => exact ih.calling

end Grammar

end OpenCLTree
