import OpenCLTree.Proofs.Grammar.Expression
import OpenCLTree.Proofs.Grammar.Specified
import OpenCLTree.Proofs.Grammar.TypeSpecifier
import OpenCLTree.Proofs.Tree.Declarator

namespace OpenCLTree

namespace Rule

variable {sub : Grammar} {room : Nat} {remarks : Prop} {first state : GrammarState}
  {front : List Child}

/-- The name of a declarator can be declared once the declarator has been read. -/
theorem declareName_builds {declared : Declared} (sort : NameSort)
    (reads : ReadsWith remarks first front state)
    (among : Node.leavesOfChildren (pieces declared) ⊆ Node.leavesOfChildren front) :
    (declareName declared.declarator sort).Builds state := by
  unfold declareName
  split
  · rename_i name found
    refine declare_builds sort (reads.hasRead (among ?_))
    rw [pieces_declared, Node.toChild, Node.leavesOfChildren_node]
    exact List.mem_append_left _ (Node.mem_leaves_of_declaratorName? found)
  · exact ReadsWith.nothing state

theorem declared_builds (serves : sub.Serves room) (fits : state.Fits room) :
    (declared sub).Builds state := by
  refine (ReadsWith.nothing state).step (requiredDeclarator_builds serves fits)
    fun declarator s1 _ sofar => ?_
  refine sofar.step (attributes_builds serves (sofar.fits fits).weaken)
    fun attributes s2 _ sofar => ?_
  simpa using sofar

theorem initDeclarator_reads {sort : NameSort} {declared : Declared} (serves : sub.Serves room)
    (fits : first.Fits room) (proper : declared.Proper)
    (sofar : ReadsWith remarks first (pieces declared) state) :
    (initDeclarator sub sort declared).Meets state
      (fun children after => ReadsWith remarks first (pieces children) after ∧ Passes state after)
      (Stops remarks first) := by
  refine sofar.step (declareName_builds sort sofar (List.Subset.refl _)) fun _ s1 readNothing sofar => ?_
  refine sofar.step (accept_builds _ _) fun found s2 readAssign sofar => ?_
  have passed := readNothing.join readAssign
  cases found with
  | none => exact ⟨by simpa [Declared.children] using sofar, passed.passes⟩
  | some assign =>
    refine sofar.stepWith (serves.initializerBinds (sofar.fits fits))
      fun value s3 tight readValue sofar => ?_
    have front : ∀ child ∈ declared.children, child.Binds .initDeclarator := by
      refine List.forall_mem_cons.mpr ⟨Level.comma_le _, Child.binds_of_fields fun child member => ?_⟩
      obtain ⟨node, rfl, _⟩ := proper.attributes child member
      rfl
    refine ⟨sofar.wrap (by simp [Declared.children]) (.declaring rfl rfl (by simp) (.ofParts rfl rfl ?_)
      (proper.isCompound_init assign value).declarators), (passed.join readValue).passes⟩
    exact List.forall_mem_append.mpr ⟨front, by simp [NodeKind.partLevel, tight]⟩

/-- The declarators up to the semicolon. The first of them may have drawn a remark. -/
theorem declarationRest_reads {sort : NameSort} {declared : Declared} (serves : sub.Serves room)
    (fits : first.Fits room) (proper : declared.Proper)
    (sofar : ReadsWith remarks first (pieces declared) state) :
    (declarationRest sub sort declared).Meets state
      (fun children after => ReadsWith remarks first (pieces children) after ∧ Passes state after)
      (Stops remarks first) := by
  unfold declarationRest
  rw [meets_bind]
  refine Meets.mono (?declarators : Meets _ _ (fun children after =>
    ReadsWith remarks first (pieces children) after ∧ Passes state after) (Stops remarks first)) ?_
    fun _ _ stops => stops
  case declarators =>
    refine Meets.loop (fun current after => current.2.Proper ∧ Passes state after ∧ ∃ middle,
      ReadsWith remarks first (pieces current.1) middle ∧
        ReadsWith remarks middle (pieces current.2) after) ?_
      ⟨proper, .refl state, first, .nothing first, sofar⟩
    rintro ⟨children, next⟩ s1 ⟨proper, passed, middle, before, sofar⟩
    rw [meets_bind]
    refine (initDeclarator_reads serves (before.fits fits) proper sofar).mono ?_ fun _ _ stops =>
      before.stops stops
    rintro declarator s2 ⟨reads, passes⟩
    have sofar := before.join reads
    have passed := passed.trans passes
    refine sofar.step (accept_builds _ _) fun found s3 readComma sofar => ?_
    cases found with
    | none => exact ⟨by simpa using sofar, passed.trans readComma.passes⟩
    | some comma =>
      refine sofar.stepWith (Meets.gives (declared_builds serves (sofar.fits fits))
        (declared_gives serves.declarators)) fun later s4 proper readLater _ => ?_
      have more := readComma.join readLater
      refine ⟨⟨proper, passed.trans more.passes, s3, by simpa using sofar, readLater.allow⟩, ?_⟩
      exact Nat.lt_of_lt_of_le (more.remaining_lt (by simp)) passes.remaining_le
  rintro children s1 ⟨sofar, passed⟩
  refine sofar.step (expect_builds _ _) fun semicolon s2 readSemicolon sofar => ?_
  exact ⟨by simpa using sofar, passed.trans readSemicolon.passes⟩

theorem declarationAfter_reads {specifiers : Specifiers}
    {definition : Declared → Option (Rule Node)} (serves : sub.Serves room)
    (fits : first.Fits (room + 1)) (nonempty : specifiers.children ≠ [])
    (lack : Child.LackDeclarators specifiers.children)
    (qualifies : Qualifies state.reports specifiers.children specifiers.qualifiers)
    (sofar : Reads first (pieces specifiers) state)
    (bodied : ∀ declared body after, definition declared = some body → declared.Proper →
      Qualifies after.reports specifiers.children specifiers.qualifiers →
      Reads first (pieces specifiers ++ pieces declared) after →
      body.Meets after (fun node last => Reads first [node.toChild] last) (Stops False first)) :
    (declarationAfter sub specifiers definition).Meets state
      (fun node last => Reads first [node.toChild] last) (Stops False first) := by
  unfold declarationAfter
  have fits1 := sofar.fits_pred fits (by simpa using nonempty)
  have composes {reports : List ParseError} {rest : List Child}
      (qualifies : Qualifies reports specifiers.children specifiers.qualifiers)
      (declarators : Child.Declarators .named rest) :
      Composes reports (if specifiers.qualifiers.isTypedef then .typeDefinition else .declaration)
        (specifiers.children ++ rest) := by
    refine .qualifying ?_ ?_ (by simp [nonempty]) (qualifies.append declarators.apart)
      (.ofFields ?_ ?_ (lack.names.append declarators.names)) <;> split
    all_goals first | rfl | exact List.mem_singleton_self _
  refine sofar.step (accept_builds _ _) fun found s1 readSemicolon sofar => ?_
  have qualifies := qualifies.mono readSemicolon.reports_subset
  cases found with
  | some semicolon =>
    exact sofar.wrap (by simp) (composes qualifies (Child.declarators_token semicolon))
  | none =>
    have before : Reads first (pieces specifiers) s1 := by simpa using sofar
    refine sofar.stepWith (Meets.gives (declared_builds serves (readSemicolon.fits fits1))
      (declared_gives serves.declarators)) fun declared s2 proper readDeclared sofar => ?_
    have qualifies := qualifies.mono readDeclared.reports_subset
    dsimp only
    rw [meets_bind, meets_check]
    split
    · rename_i body atBody _
      split at atBody
      · cases atBody
      · exact bodied declared body s2 atBody proper qualifies (before.join readDeclared)
    · rw [meets_bind]
      refine ((declarationRest_reads serves (before.fits_pred fits (by simpa using nonempty))
        proper readDeclared).gives (declarationRest_gives serves.declarators proper)).mono ?_
        fun _ _ stops => before.stops stops
      rintro rest s3 ⟨declarators, reads, passed⟩
      exact (before.join reads).wrap (by simp) (composes (qualifies.mono passed.reports_subset) declarators)

theorem localDeclaration_builds (serves : sub.Serves room) (fits : state.Fits (room + 1)) :
    (localDeclaration sub).Builds state := by
  unfold localDeclaration Builds
  rw [meets_bind]
  refine ((declarationSpecifiers_reads serves fits).gives declarationSpecifiers_gives).mono ?_
    fun _ _ stops => stops
  rintro specifiers s1 ⟨proper, nonempty, qualifies, sofar⟩
  refine declarationAfter_reads serves fits nonempty proper.lackDeclarators qualifies sofar ?_
  intro declared body after none
  cases none

end Rule

end OpenCLTree
