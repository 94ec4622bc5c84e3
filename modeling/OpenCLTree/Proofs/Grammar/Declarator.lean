import OpenCLTree.Proofs.Grammar.Specifiers
import OpenCLTree.Grammar.SourceFile

namespace OpenCLTree

namespace Rule

variable {sub : Grammar} {room : Nat} {first state : GrammarState} {mode : DeclaratorMode}

@[simp]
theorem declaratorChild_bare (inner : Option Node) :
    (declaratorChild inner).map Child.bare = pieces inner := by
  cases inner <;> simp [declaratorChild]

theorem requiredDeclarator_builds (serves : sub.Serves room) (fits : state.Fits room) :
    (requiredDeclarator sub mode).Builds state := by
  refine (ReadsWith.nothing state).step
    (nested_builds (serves.declarator mode fits.deepen)) fun found _ _ sofar => ?_
  cases found with
  | none => exact failExpecting_stops sofar _
  | some declarator => exact sofar

theorem declaratorChild_declarators {found : Option Node}
    (known : ∀ node ∈ found, node.IsDeclarator mode) : Child.Declarators mode (declaratorChild found) := by
  cases found with
  | none => exact Child.declarators_nil
  | some node => exact (known node rfl).declarators

/-- The qualifiers of a pointer make up a set of their own. -/
theorem pointerQualifiers_builds (state : GrammarState) :
    pointerQualifiers.BuildsWith
      (fun qualifiers after => ∃ set, Qualifies after.reports qualifiers set) state := by
  unfold pointerQualifiers BuildsWith
  rw [meets_bind]
  refine Meets.loop (fun soFar after => Qualifies after.reports soFar.children soFar.qualifiers ∧
    Reads state (pieces soFar) after) ?_ ⟨.nothing, .nothing state⟩
  rintro soFar s1 ⟨qualifies, sofar⟩
  rw [meets_bind, meets_current]
  cases current : s1.cursor.peek? 0 with
  | none => exact ⟨⟨_, qualifies⟩, by simpa using sofar⟩
  | some token =>
    simp only
    split
    · rename_i qualifier kind
      split
      · refine sofar.step (advance_meets current) fun _ s2 readToken _ => ?_
        rw [meets_bind]
        refine (qualifierNode_reads readToken kind (qualifies.mono readToken.reports_subset)).mono ?_
          fun _ _ stops => sofar.stops stops
        rintro result after ⟨qualifies, readNode⟩
        exact ⟨⟨qualifies, by simpa using sofar.join readNode⟩, readNode.remaining_lt (by simp)⟩
      · exact ⟨⟨_, qualifies⟩, by simpa using sofar⟩
    · exact ⟨⟨_, qualifies⟩, by simpa using sofar⟩

theorem parenOpensDeclarator_meets {done : Bool → GrammarState → Prop}
    {failed : ParseError → GrammarState → Prop} (either : ∀ opens, done opens state) :
    (parenOpensDeclarator mode).Meets state done failed := by
  unfold parenOpensDeclarator
  split
  · exact either true
  · rw [meets_bind, meets_peek]
    split
    · exact either false
    · split <;> exact either _

theorem parenthesizedDeclarator_builds (serves : sub.Serves room) (fits : state.Fits (room + 1)) :
    (parenthesizedDeclarator sub mode).Builds state := by
  refine (ReadsWith.nothing state).step (expect_builds _ _) fun opener _ _ sofar => ?_
  refine sofar.stepWith (Meets.gives (requiredDeclarator_builds serves (sofar.fits_pred fits (by simp)))
    (requiredDeclarator_gives serves.declarators)) fun inner _ known _ sofar => ?_
  refine sofar.step (expect_builds _ _) fun closer _ _ sofar => ?_
  refine sofar.wrap (by simp) (.declaring ?_ ?_ (by simp) (.ofOther ?_)
    (Node.IsCompound.parenthesized known.toNames).declarators) <;> split <;> rfl

theorem parameterDeclaration_builds (serves : sub.Serves room) (fits : state.Fits room) :
    (parameterDeclaration sub).Builds state := by
  unfold parameterDeclaration Builds
  rw [meets_bind]
  refine ((serves.declarationSpecifiers fits).gives serves.specifierFields).mono ?_ fun _ _ stops => stops
  intro specifiers s1 ⟨lack, nonempty, qualifies, sofar⟩
  have fits1 := sofar.fits fits
  refine sofar.stepWith ((serves.declarator .either fits1).gives (serves.declarators .either))
    fun declarator s2 known readDeclarator sofar => ?_
  refine sofar.stepWith (Meets.gives (attributes_builds serves (sofar.fits fits).weaken)
    attributes_gives) fun attributes s3 areAttributes readAttributes sofar => ?_
  have qualifies := qualifies.mono (readDeclarator.join readAttributes).reports_subset
  have declarators := declaratorChild_declarators known
  have qualifies := (qualifies.append declarators.apart).append areAttributes.apart
  have names := (lack.names.append declarators.names).append areAttributes.declarators.names
  exact sofar.wrap (by simp) (.qualifying rfl rfl (by simp [nonempty]) qualifies
    (.ofFields (List.mem_singleton_self _) rfl names))

theorem parameters_builds (serves : sub.Serves room) (fits : state.Fits room) :
    (parameters sub).Builds state := by
  unfold parameters Builds
  refine Meets.loop (fun soFar after => Reads state (pieces soFar) after) ?_ (.nothing state)
  intro soFar s1 sofar
  rw [meets_bind, meets_check]
  split
  · exact sofar
  · refine sofar.step (accept_builds _ _) fun found s2 readEllipsis withEllipsis => ?_
    cases found with
    | some ellipsis =>
      have variadic : Reads s1 [(Node.ofToken .variadicParameter ellipsis).toChild] s2 :=
        readEllipsis.leaf (.plain rfl (by simp))
      simpa using sofar.join variadic
    | none =>
      refine withEllipsis.step (parameterDeclaration_builds serves (withEllipsis.fits fits))
        fun parameter s3 readParameter sofar => ?_
      refine sofar.step (accept_builds _ _) fun found s4 readComma sofar => ?_
      have fewer := (readEllipsis.join (readParameter.join readComma)).remaining_lt (by simp)
      cases found with
      | none => simpa using sofar
      | some comma => exact ⟨by simpa using sofar, fewer⟩

theorem parameterList_builds (serves : sub.Serves room) (fits : state.Fits (room + 1)) :
    (parameterList sub).Builds state := by
  refine (ReadsWith.nothing state).step (expect_builds _ _) fun opener _ _ sofar => ?_
  refine sofar.step (parameters_builds serves (sofar.fits_pred fits (by simp)))
    fun entries _ _ sofar => ?_
  refine sofar.step (expect_builds _ _) fun closer _ _ sofar => ?_
  exact sofar.wrap (by simp) (.plain rfl (by simp))

theorem declaratorCore_builds (serves : sub.Serves room) (fits : state.Fits (room + 1)) :
    (declaratorCore sub mode).Builds state := by
  unfold declaratorCore Builds
  rw [meets_bind, meets_current]
  cases current : state.cursor.peek? 0 with
  | none => exact .nothing state
  | some token =>
    simp only
    split
    · split
      · refine (ReadsWith.nothing state).step (advance_meets current) fun _ _ readName _ => ?_
        refine readName.leaf ?_
        split
        · exact .plain rfl (by simp)
        · exact .identifier token
      · exact .nothing state
    · rw [meets_bind]
      refine parenOpensDeclarator_meets fun opens => ?_
      split
      · refine (ReadsWith.nothing state).step
          (nested_builds (parenthesizedDeclarator_builds serves fits.deepen))
          fun inner _ _ sofar => ?_
        exact sofar
      · exact .nothing state
    · exact .nothing state

/-- The size of an array binds more tightly than commas. -/
theorem array_isLeveled {inner : Option Node} {opener closer : Token} {size : List Child}
    (tight : ∀ node ∈ Child.nodes size, .assignment ≤ node.level) :
    (Node.make (if suffixIsAbstract inner then .abstractArrayDeclarator else .arrayDeclarator)
      (declaratorChild inner ++ [opener.toChild] ++ size ++ [closer.toChild])).IsLeveled := by
  have kinds {kind : NodeKind} (isArray : kind = .abstractArrayDeclarator ∨ kind = .arrayDeclarator) :
      (Node.make kind
        (declaratorChild inner ++ [opener.toChild] ++ size ++ [closer.toChild])).IsLeveled := by
    have within (field : Option Field) : kind.partLevel field ≤ .assignment := by
      rcases isArray with rfl | rfl <;> rcases field with _ | field
      any_goals exact Level.comma_le _
      all_goals cases field <;> first | exact Level.le_refl _ | exact Level.comma_le _
    have front : ∀ child ∈ declaratorChild inner, child.Binds kind := by
      rcases isArray with rfl | rfl <;> cases inner <;> simp [declaratorChild, NodeKind.partLevel]
    refine .ofParts ?_ ?_ ?_
    · rcases isArray with rfl | rfl <;> rfl
    · rcases isArray with rfl | rfl <;> rfl
    · simp only [List.forall_mem_append, List.forall_mem_singleton, Child.binds_token, and_true]
      exact ⟨front, Child.binds_of_nodes within tight⟩
  split
  · exact kinds (.inl rfl)
  · exact kinds (.inr rfl)

theorem arraySuffix_reads {inner : Option Node} (serves : sub.Serves room)
    (fits : state.Fits (room + 1)) (admits : mode.Admits inner) (sofar : Reads first (pieces inner) state) :
    (arraySuffix sub inner).Meets state
      (fun node after => Reads first (pieces node) after ∧ after.remaining < state.remaining)
      (Stops False first) := by
  refine sofar.step (expect_builds _ _) fun opener s1 readOpener sofar => ?_
  have fits1 := readOpener.fits_pred fits (by simp)
  refine sofar.stepWith (BuildsWith.gives (unlessAt_only_buildsWith (serves.expressionLevel .assignment
    fits1) fun _ => rfl) size_gives) fun size s2 ⟨lack, tight⟩ readSize sofar => ?_
  refine sofar.step (expect_builds _ _) fun closer s3 readCloser sofar => ?_
  refine ⟨sofar.wrap (by simp) (.declaring ?_ ?_ (by simp) (array_isLeveled tight)
    (Node.IsCompound.array admits lack).declarators), ?_⟩
  · split <;> rfl
  · split <;> rfl
  · exact ((readOpener.join readSize).join readCloser).remaining_lt (by simp)

theorem functionSuffix_reads {inner : Option Node} (serves : sub.Serves room)
    (fits : state.Fits (room + 1)) (admits : mode.Admits inner) (sofar : Reads first (pieces inner) state) :
    (functionSuffix sub inner).Meets state
      (fun node after => Reads first (pieces node) after ∧ after.remaining < state.remaining)
      (Stops False first) := by
  refine sofar.step (parameterList_builds serves fits) fun list _ readList sofar => ?_
  refine ⟨sofar.wrap (by simp) (.declaring ?_ ?_ (by simp) (.ofOther ?_)
    (Node.IsCompound.function admits).declarators), readList.remaining_lt (by simp)⟩ <;> split <;> rfl

theorem directDeclarator_builds (serves : sub.Serves room) (fits : state.Fits (room + 1)) :
    (directDeclarator sub mode).Builds state := by
  refine (ReadsWith.nothing state).stepWith (Meets.gives (declaratorCore_builds serves fits)
    (declaratorCore_gives serves.declarators)) fun core s1 known _ sofar => ?_
  split
  · exact failExpecting_stops sofar _
  · rename_i goesOn
    refine Meets.loop (fun inner after => mode.Admits inner ∧ Reads state (pieces inner) after) ?_
      ⟨admits_of_core known goesOn, sofar⟩
    rintro inner s2 ⟨admits, sofar⟩
    rw [meets_bind, meets_currentKind]
    split
    · rw [meets_bind]
      refine ((arraySuffix_reads serves (sofar.fits fits) admits sofar).gives (arraySuffix_gives admits)).mono
        ?_ fun _ _ stops => stops
      exact fun node after ⟨known, reads, fewer⟩ => ⟨⟨.some known.1 known.2, reads⟩, fewer⟩
    · rw [meets_bind]
      refine ((functionSuffix_reads serves (sofar.fits fits) admits sofar).gives
        (functionSuffix_gives admits)).mono ?_ fun _ _ stops => stops
      exact fun node after ⟨known, reads, fewer⟩ => ⟨⟨.some known.1 known.2, reads⟩, fewer⟩
    · exact sofar

theorem declarator_builds (serves : sub.Serves room) (fits : state.Fits (room + 1)) :
    (declarator sub mode).Builds state := by
  refine (ReadsWith.nothing state).step (accept_builds _ _) fun found s1 readStar sofar => ?_
  cases found with
  | none =>
    refine (directDeclarator_builds serves (readStar.fits fits)).mono ?_ fun _ _ stops =>
      sofar.stops stops
    exact fun _ _ reads => sofar.join reads
  | some star =>
    have fits1 := sofar.fits_pred fits (by simp)
    refine sofar.stepWith ((pointerQualifiers_builds s1).gives pointerQualifiers_gives)
      fun qualifiers s2 ⟨lack, set, qualifies⟩ readQualifiers sofar => ?_
    refine sofar.stepWith ((serves.declarator mode (readQualifiers.fits fits1)).gives
      (serves.declarators mode)) fun inner s3 known readInner sofar => ?_
    have qualifies := (qualifies.mono readInner.reports_subset).behind
      (show Child.Apart [star.toChild] from Child.apart_nil)
    cases inner with
    | some inner =>
      have isDeclarator := known inner rfl
      refine sofar.wrap (by simp) (.qualifying ?_ ?_ (by simp)
        (qualifies.append isDeclarator.declarators.apart)
        (Node.IsCompound.pointer lack isDeclarator.toNames).declarators)
      · split <;> rfl
      · split <;> rfl
    | none =>
      dsimp only
      split
      · exact failExpecting_stops sofar _
      · rename_i free
        exact sofar.wrap (by simp) (.qualifying rfl rfl (by simp) qualifies
          (Node.IsCompound.hollowPointer lack (by simpa using free)).declarators)

end Rule

end OpenCLTree
