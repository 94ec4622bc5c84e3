import OpenCLTree.Proofs.Derivation.Derives
import OpenCLTree.Proofs.Grammar.Specifiers

namespace OpenCLTree

namespace Derivation

variable {tokens line : List Token} {first last : GrammarState} {marker : Token}

/-- A marker and tokens behind it are a line if the next token begins another one. -/
theorem isLine (sofar : Derivation tokens first (marker.toChild :: line.map Token.toChild) last)
    (within : ∀ leaf ∈ line, leaf.newlineBefore = false)
    (ends : ∀ next, tokens[last.cursor.place]? = some next → next.newlineBefore = true) :
    IsLine tokens marker line where
  covers := by
    have covers := sofar.covers (by simp [Token.toChild, Child.nodes, Node.errors_nil])
    rw [← List.map_cons, Node.leavesOfChildren_tokens] at covers
    exact ⟨_, _, covers, ends⟩
  plain := by
    have plain := sofar.plain
    rwa [← List.map_cons, Child.tokens_tokens] at plain
  within := within

/-- A node around a marker and the line behind it. -/
theorem wrapLine {kind : NodeKind} {front children : List Child}
    (sofar : Derivation tokens first front last) (same : front = children.map Child.tagged)
    (isLine : kind.isLine = true) (taken : IsLine tokens marker line)
    (form : (Node.make kind children).OfLine marker line) :
    Derivation tokens first [(Node.make kind children).toChild] last := by
  have plain : ∀ leaf ∈ Child.tokens children, leaf.kind ≠ .swizzle := by
    rw [← Child.tokens_tagged, ← same]
    exact sofar.plain
  have inert : kind.isInert = true := by
    cases kind <;> first | rfl | cases isLine
  have unused : kind.usesNames = false := by
    cases kind <;> first | rfl | cases isLine
  exact sofar.inertNode same (Node.shaped_of_line plain isLine taken form) inert
    fun _ => Node.usesNames_of_other unused

/-- The node of a pragma holds the marker and the line, whatever it makes of them. -/
theorem pragmaNode (sofar : Derivation tokens first (marker.toChild :: line.map Token.toChild) last)
    (isMarker : marker.kind = .pragma) (taken : IsLine tokens marker line) :
    Derivation tokens first [(pragmaNode marker line).toChild] last := by
  have form : (OpenCLTree.pragmaNode marker line).OfLine marker line := .pragma isMarker
  generalize made : OpenCLTree.pragmaNode marker line = node at form ⊢
  unfold OpenCLTree.pragmaNode at made
  split at made
  · rename_i vendor word name colon behavior
    split at made
    · subst made
      have named := sofar.leafAt [marker.toChild, vendor.toChild, word.toChild] .identifier rfl
      have told := named.leafAt [marker.toChild, vendor.toChild, word.toChild, _, colon.toChild]
        .identifier rfl
      exact told.wrapLine rfl rfl taken form
    · subst made
      exact sofar.wrapLine rfl rfl taken form
  · rename_i vendor version
    split at made
    · subst made
      have numbered := sofar.leafAt [marker.toChild, vendor.toChild] .numberLiteral rfl
      exact numbered.wrapLine rfl rfl taken form
    · subst made
      exact sofar.wrapLine rfl rfl taken form
  · subst made
    exact sofar.wrapLine (by simp) rfl taken form

end Derivation

namespace Rule

variable {tokens : List Token} {sub : Grammar} {first state : GrammarState} {specifiers : Specifiers}

/-- What is left of a line is read up to where the next line begins. -/
theorem restOfLine_leads (ready : state.Ready tokens) :
    restOfLine.Leads state
      (fun line after => ((∀ leaf ∈ line, leaf.newlineBefore = false) ∧
        ∀ next, tokens[after.cursor.place]? = some next → next.newlineBefore = true) ∧
        Derivation tokens state (line.map Token.toChild) after)
      (Onward tokens state) := by
  unfold restOfLine many
  refine Leads.loop (fun line after => (∀ leaf ∈ line, leaf.newlineBefore = false) ∧
    Derivation tokens state (line.map Token.toChild) after) ?_ ⟨List.forall_mem_nil _, .nothing ready⟩
  rintro line s1 ⟨within, sofar⟩
  rw [leads_bind, leads_bind, leads_current]
  cases current : s1.cursor.peek? 0 with
  | none =>
    refine ⟨⟨within, fun next atNext => ?_⟩, sofar⟩
    rw [sofar.ready.current_none current] at atNext
    cases atNext
  | some token =>
    dsimp only
    split
    · rename_i newline
      obtain ⟨found, listed, rfl⟩ := sofar.ready.current current
      refine ⟨⟨within, fun next atNext => ?_⟩, sofar⟩
      rw [listed] at atNext
      cases atNext
      exact newline
    · rename_i noNewline
      refine sofar.stepAt (advance_leads sofar.ready current) fun _ _ _ sofar => ?_
      refine ⟨List.forall_mem_append.mpr ⟨within, ?_⟩, by simpa using sofar⟩
      exact List.forall_mem_singleton.mpr (Bool.eq_false_iff.mpr noNewline)

theorem pragmaLine_derives : pragmaLine.Derives tokens := by
  intro state ready
  refine (Derivation.nothing ready).stepWith (expect_leads ready) fun marker _ known _ sofar => ?_
  refine sofar.stepWith (restOfLine_leads sofar.ready) fun line _ whole _ sofar => ?_
  exact sofar.pragmaNode known.2 (sofar.isLine whole.1 whole.2)

theorem directiveLine_derives : directiveLine.Derives tokens := by
  intro state ready
  refine (Derivation.nothing ready).stepWith (expect_leads ready) fun marker _ known _ sofar => ?_
  refine sofar.stepWith (restOfLine_leads sofar.ready) fun line _ whole _ sofar => ?_
  exact sofar.wrapLine (by simp) rfl (sofar.isLine whole.1 whole.2) (.directive known.2)

/-- The node around a qualifier is an error node if the qualifier does not count. -/
theorem qualifierNode_leads {qualifier : Qualifier} {token : Token} {set : QualifierSet}
    (sofar : Derivation tokens first [token.toChild] state) (kind : token.kind = .qualifier qualifier) :
    (qualifierNode qualifier token set).Leads state
      (fun result after => Derivation tokens first [result.1.toChild] after)
      (Onward tokens first) := by
  unfold qualifierNode
  split
  · exact sofar.leaf _ (by cases qualifier <;> rfl)
  · rw [leads_bind]
    refine Derivation.error [token] (sofar.toOnward.report _) fun _ leaf _ => .inl ?_
    simp [Node.leaves_make, Token.toChild, braceDepth, braceChange, kind]

theorem typeDescriptor_derives (derives : sub.Derives tokens) : (typeDescriptor sub).Derives tokens := by
  intro state ready
  refine (Derivation.nothing ready).step derives.declarationSpecifiers fun specifiers _ _ sofar => ?_
  refine sofar.step (derives.declarator .unnamed) fun found _ _ sofar => ?_
  cases found with
  | none => exact sofar.wrap (by simp) rfl
  | some declarator => exact sofar.wrap (by simp) rfl

theorem attributeEntry_derives (derives : sub.Derives tokens) : (attributeEntry sub).Derives tokens := by
  intro state ready
  unfold attributeEntry
  rw [leads_bind, leads_current]
  cases current : state.cursor.peek? 0 with
  | none => exact (Derivation.nothing ready).fails _
  | some token =>
    dsimp only
    split
    · refine (Derivation.nothing ready).stepAt (advance_leads ready current) fun _ s1 readName sofar => ?_
      have name := (readName.leaf .identifier rfl).named
      rw [leads_bind, leads_check]
      split
      · refine sofar.step expect_derives fun opener s2 readOpener sofar => ?_
        refine sofar.step (commaSeparated_derives fun {state} ready => ?_)
          fun arguments s3 readArguments sofar => ?_
        · rw [leads_bind, leads_startsTypeNameAt]
          split
          · exact typeDescriptor_derives derives ready
          · exact derives.expression _ ready
        · refine sofar.step expect_derives fun closer s4 readCloser _ => ?_
          have list : Derivation tokens s1 [(Node.make .argumentList
              (opener.toChild :: arguments ++ [closer.toChild])).toChild] s4 :=
            ((readOpener.join readArguments).join readCloser).wrap (by simp) rfl
          exact (name.join list).wrap (by simp) rfl
      · exact name.wrap (by simp) rfl
    · exact (Derivation.nothing ready).fails _

theorem attributeSpecifier_derives (derives : sub.Derives tokens) :
    (attributeSpecifier sub).Derives tokens := by
  intro state ready
  refine (Derivation.nothing ready).step expect_derives fun word _ _ sofar => ?_
  refine sofar.step expect_derives fun outer _ _ sofar => ?_
  refine sofar.step expect_derives fun inner _ _ sofar => ?_
  refine sofar.step (commaSeparated_derives (attributeEntry_derives derives)) fun entries _ _ sofar => ?_
  refine sofar.step expect_derives fun innerEnd _ _ sofar => ?_
  refine sofar.step expect_derives fun outerEnd _ _ sofar => ?_
  exact sofar.wrap (by simp) rfl

theorem attributes_derives (derives : sub.Derives tokens) : (attributes sub).Derives tokens := by
  refine many_derives fun {state} ready => ?_
  rw [leads_bind, leads_check]
  split
  · refine (Derivation.nothing ready).step (attributeSpecifier_derives derives) fun node _ _ sofar => ?_
    simpa using sofar
  · exact .nothing ready

/-- Qualifiers and attributes are added behind the specifiers there are. -/
theorem qualifiers_leads (derives : sub.Derives tokens)
    (sofar : Derivation tokens first (parts specifiers) state) :
    (qualifiers sub specifiers).Leads state
      (fun result after => Derivation tokens first (parts result) after) (Onward tokens first) := by
  unfold qualifiers
  refine Leads.loop (fun soFar state => Derivation tokens first (parts soFar) state) ?_ sofar
  intro soFar state sofar
  rw [leads_bind, leads_current]
  cases current : state.cursor.peek? 0 with
  | none => exact sofar
  | some token =>
    dsimp only
    split
    · rename_i qualifier kind
      refine sofar.stepAt (advance_leads sofar.ready current) fun _ s1 readToken _ => ?_
      rw [leads_bind]
      refine (qualifierNode_leads readToken kind).mono (fun result after readNode => ?_)
        fun _ keeps => sofar.toOnward.trans keeps
      simpa using sofar.join readNode
    · refine sofar.step (attributeSpecifier_derives derives) fun node _ _ sofar => ?_
      simpa using sofar
    · exact sofar

/-- The qualifiers of a pointer. -/
theorem pointerQualifiers_derives : pointerQualifiers.Derives tokens := by
  intro state ready
  unfold pointerQualifiers
  rw [leads_bind]
  refine Leads.loop (fun soFar after => Derivation tokens state (parts soFar) after) ?_ (.nothing ready)
  intro soFar s1 sofar
  rw [leads_bind, leads_current]
  cases current : s1.cursor.peek? 0 with
  | none => simpa using sofar
  | some token =>
    dsimp only
    split
    · rename_i qualifier kind
      split
      · refine sofar.stepAt (advance_leads sofar.ready current) fun _ s1 readToken _ => ?_
        rw [leads_bind]
        refine (qualifierNode_leads readToken kind).mono (fun result after readNode => ?_)
          fun _ keeps => sofar.toOnward.trans keeps
        simpa using sofar.join readNode
      · simpa using sofar
    · simpa using sofar

end Rule

end OpenCLTree
