import OpenCLTree.Proofs.Grammar.Apart

namespace OpenCLTree

namespace Rule

variable {sub : Grammar} {room : Nat} {first state : GrammarState}

/-- The node of a qualifier stands for its token and goes with the set. -/
theorem qualifierNode_reads {qualifier : Qualifier} {token : Token} {children : List Child}
    {set : QualifierSet} (reads : Reads first [token.toChild] state)
    (kind : token.kind = .qualifier qualifier) (qualifies : Qualifies state.reports children set) :
    (qualifierNode qualifier token set).Meets state
      (fun result after => Qualifies after.reports (children ++ [result.1.toChild]) result.2 ∧
        Reads first [result.1.toChild] after)
      (Stops False first) := by
  unfold qualifierNode
  split
  · rename_i inserted
    exact ⟨qualifies.qualifier kind inserted, reads.leaf (.qualified kind)⟩
  · rename_i inserted
    refine ⟨?_, reads.duplicate⟩
    exact (qualifies.mono (List.subset_append_left _ _)).duplicate kind inserted
      (List.mem_append_right _ (List.mem_singleton_self _))

theorem typeDescriptor_builds (serves : sub.Serves room) (fits : state.Fits room) :
    (typeDescriptor sub).Builds state := by
  unfold typeDescriptor Builds
  rw [meets_bind]
  refine ((serves.declarationSpecifiers fits).gives serves.specifierFields).mono ?_ fun _ _ stops => stops
  intro specifiers after ⟨lack, nonempty, qualifies, sofar⟩
  refine sofar.stepWith ((serves.declarator .unnamed (sofar.fits fits)).gives
    (serves.declarators .unnamed)) fun found last known readDeclarator sofar => ?_
  have qualifies := qualifies.mono readDeclarator.reports_subset
  cases found with
  | none =>
    refine sofar.wrap (by simp) (.qualifying rfl rfl nonempty qualifies ?_)
    exact .ofFields (List.mem_singleton_self _) rfl lack.names
  | some declarator =>
    have declarators := (known declarator rfl).declarators
    refine sofar.wrap (by simp) (.qualifying rfl rfl (by simp) (qualifies.append declarators.apart) ?_)
    exact .ofFields (List.mem_singleton_self _) rfl (lack.names.append declarators.names)

theorem typeDescriptor_gives :
    (typeDescriptor sub).Gives fun node => node.kind = .typeDescriptor := by
  refine gives_bind fun specifiers => gives_bind fun found => ?_
  split <;> exact gives_pure rfl

/-- The arguments of an attribute are types or expressions without commas. -/
theorem attributeArguments_builds (serves : sub.Serves room) (fits : state.Fits room) :
    (commaSeparated (.punct .rightParen) do
      if ← startsTypeNameAt 0 then typeDescriptor sub else sub.expression .assignment).BuildsWith
      (fun children _ => ∀ node ∈ Child.nodes children, .assignment ≤ node.level) state := by
  refine commaSeparated_buildsWith fits fun state fits => ?_
  unfold BuildsWith
  rw [meets_bind, meets_startsTypeNameAt]
  split
  · refine Meets.gives (typeDescriptor_builds serves fits) (typeDescriptor_gives.mono ?_)
    intro node kind
    rw [Node.level, kind]
    exact Level.le_suffix _
  · exact serves.expressionLevel .assignment fits

theorem attributeEntry_builds (serves : sub.Serves room) (fits : state.Fits room) :
    (attributeEntry sub).Builds state := by
  unfold attributeEntry Builds
  rw [meets_bind, meets_current]
  cases current : state.cursor.peek? 0 with
  | none => exact failExpecting_stops (.nothing state) _
  | some token =>
    simp only
    split
    · refine (ReadsWith.nothing state).step (advance_meets current) fun _ s1 readName sofar => ?_
      have name := readName.leaf (.identifier token)
      rw [meets_bind, meets_check]
      split
      · refine sofar.step (expect_builds _ _) fun opener s2 readOpener sofar => ?_
        refine sofar.stepWith (attributeArguments_builds serves (sofar.fits fits))
          fun arguments s3 tight readArguments sofar => ?_
        refine sofar.step (expect_builds _ _) fun closer s4 readCloser _ => ?_
        have list : Reads s1 [(Node.make .argumentList
            (opener.toChild :: arguments ++ [closer.toChild])).toChild] s4 :=
          ((readOpener.join readArguments).join readCloser).wrap (by simp)
            (.binding rfl rfl (by simp) (.list (.inl rfl) tight))
        exact (name.join list).wrap (by simp) (.plain rfl (by simp))
      · exact name.wrap (by simp) (.plain rfl (by simp))
    · exact failExpecting_stops (.nothing state) _

theorem attributeSpecifier_builds (serves : sub.Serves room) (fits : state.Fits (room + 1)) :
    (attributeSpecifier sub).Builds state := by
  refine (ReadsWith.nothing state).step (expect_builds _ _) fun word _ _ sofar => ?_
  refine sofar.step (expect_builds _ _) fun outer _ _ sofar => ?_
  refine sofar.step (expect_builds _ _) fun inner s3 _ sofar => ?_
  have fits := sofar.fits_pred fits (by simp)
  refine sofar.step (commaSeparated_builds fits fun _ fits => attributeEntry_builds serves fits)
    fun entries _ _ sofar => ?_
  refine sofar.step (expect_builds _ _) fun innerEnd _ _ sofar => ?_
  refine sofar.step (expect_builds _ _) fun outerEnd _ _ sofar => ?_
  exact sofar.wrap (by simp) (.plain rfl (by simp))

theorem attributes_builds (serves : sub.Serves room) (fits : state.Fits (room + 1)) :
    (attributes sub).Builds state := by
  refine many_builds fits (by simp) fun state fits => ?_
  unfold Builds
  rw [meets_bind, meets_check]
  split
  · refine (ReadsWith.nothing state).step (attributeSpecifier_builds serves fits)
      fun node _ _ sofar => ?_
    simpa using sofar
  · exact .nothing state

/-- Qualifiers and attributes are added behind the specifiers there are. -/
theorem qualifiers_reads {specifiers : Specifiers} (serves : sub.Serves room)
    (fits : first.Fits (room + 1)) (sofar : Reads first (pieces specifiers) state)
    (qualifies : Qualifies state.reports specifiers.children specifiers.qualifiers) :
    (qualifiers sub specifiers).Meets state
      (fun result after => Reads first (pieces result) after ∧
        specifiers.children <+: result.children ∧
        Qualifies after.reports result.children result.qualifiers)
      (Stops False first) := by
  unfold qualifiers
  refine Meets.loop (fun soFar state => Reads first (pieces soFar) state ∧
    specifiers.children <+: soFar.children ∧
    Qualifies state.reports soFar.children soFar.qualifiers) ?_ ⟨sofar, List.prefix_rfl, qualifies⟩
  rintro soFar state ⟨sofar, grown, qualifies⟩
  rw [meets_bind, meets_current]
  cases current : state.cursor.peek? 0 with
  | none => exact ⟨sofar, grown, qualifies⟩
  | some token =>
    simp only
    split
    · rename_i qualifier kind
      refine sofar.step (advance_meets current) fun _ s1 readToken _ => ?_
      rw [meets_bind]
      refine (qualifierNode_reads readToken kind (qualifies.mono readToken.reports_subset)).mono ?_
        fun _ _ stops => sofar.stops stops
      rintro result after ⟨qualifies, readNode⟩
      refine ⟨⟨by simpa using sofar.join readNode, ?_, qualifies⟩, readNode.remaining_lt (by simp)⟩
      exact grown.trans (List.prefix_append _ _)
    · refine sofar.stepWith (Meets.gives (attributeSpecifier_builds serves (sofar.fits fits))
        attributeSpecifier_gives) fun node after kind readNode sofar => ?_
      have apart : Child.Apart [node.toChild] :=
        Child.apart_node.mpr ⟨by rw [kind]; rfl, Child.apart_nil⟩
      refine ⟨⟨by simpa using sofar, grown.trans (List.prefix_append _ _), ?_⟩,
        readNode.remaining_lt (by simp)⟩
      exact (qualifies.mono readNode.reports_subset).append apart
    · exact ⟨sofar, grown, qualifies⟩

end Rule

end OpenCLTree
