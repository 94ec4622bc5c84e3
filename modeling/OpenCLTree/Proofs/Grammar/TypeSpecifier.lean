import OpenCLTree.Proofs.Grammar.Declarator
import OpenCLTree.Proofs.Grammar.Directive

namespace OpenCLTree

namespace Rule

variable {sub : Grammar} {room : Nat} {first state : GrammarState}

theorem typeToken_builds {token : Token} {kind : NodeKind} (plain : kind.isPlain = true)
    (current : state.cursor.peek? 0 = some token) : (typeToken kind token).Builds state := by
  refine (ReadsWith.nothing state).step (advance_meets current) fun _ _ readToken _ => ?_
  exact readToken.leaf (.plain plain (by simp))

/-- Where a size modifier stands, at least that one is read. -/
theorem sizeModifiers_reads {token : Token} (current : state.cursor.peek? 0 = some token)
    (modifier : isSizeModifier token.kind = true) :
    (many do
      match ← Rule.current with
      | some token =>
        if isSizeModifier token.kind then
          advance
          pure (some token.toChild)
        else pure none
      | none => pure none).Meets state
      (fun modifiers after => modifiers ≠ [] ∧ Reads state (pieces modifiers) after)
      (Stops False state) := by
  unfold many
  refine Meets.loop (fun modifiers after => Reads state (pieces modifiers) after ∧
    (modifiers = [] → after.cursor.peek? 0 = some token)) ?_ ⟨.nothing state, fun _ => current⟩
  rintro modifiers s1 ⟨sofar, atFirst⟩
  rw [meets_bind, meets_bind, meets_current]
  cases next : s1.cursor.peek? 0 with
  | none => exact ⟨fun empty => by simp [next] at atFirst; exact atFirst empty, sofar⟩
  | some other =>
    dsimp only
    split
    · refine sofar.step (advance_meets next) fun _ s2 readToken sofar => ?_
      exact ⟨⟨by simpa using sofar, by simp⟩, readToken.remaining_lt (by simp)⟩
    · rename_i isOther
      refine ⟨fun empty => ?_, sofar⟩
      obtain rfl : other = token := Option.some.inj (next.symm.trans (atFirst empty))
      exact isOther modifier

theorem sizedTypeSpecifier_builds {token : Token} (current : state.cursor.peek? 0 = some token)
    (modifier : isSizeModifier token.kind = true) : sizedTypeSpecifier.Builds state := by
  unfold sizedTypeSpecifier Builds
  rw [meets_bind]
  refine (sizeModifiers_reads current modifier).mono ?_ fun _ _ stops => stops
  intro modifiers s1 ⟨nonempty, sofar⟩
  rw [meets_bind, meets_current]
  cases base : s1.cursor.peek? 0 with
  | none => exact sofar.wrap (by simp) (.plain rfl nonempty)
  | some token =>
    dsimp only
    split
    case h_5 => exact sofar.wrap (by simp) (.plain rfl nonempty)
    all_goals
      refine sofar.step (advance_meets base) fun _ s2 readBase _ => ?_
      have primitive : Reads s1 [(Node.ofToken .primitiveType token).toChild] s2 :=
        readBase.leaf (.plain rfl (by simp))
      exact (sofar.join primitive).wrap (by simp) (.plain rfl (by simp))

theorem pipeType_builds (serves : sub.Serves room) (fits : state.Fits (room + 1)) :
    (pipeType sub).Builds state := by
  refine (ReadsWith.nothing state).step (expect_builds _ _) fun word _ _ sofar => ?_
  refine sofar.step (serves.typeSpecifier (sofar.fits_pred fits (by simp)))
    fun element _ _ sofar => ?_
  exact sofar.wrap (by simp) (.plain rfl (by simp))

theorem typeTag_builds (state : GrammarState) : typeTag.Builds state := by
  refine (ReadsWith.nothing state).step (accept_builds _ _) fun found _ readName sofar => ?_
  cases found with
  | none => exact sofar
  | some name => exact readName.leaf (.plain rfl (by simp))

theorem bitfieldWidth_builds (serves : sub.Serves room) (fits : state.Fits (room + 1)) :
    (bitfieldWidth sub).Builds state := by
  refine (ReadsWith.nothing state).step (accept_builds _ _) fun found _ _ sofar => ?_
  cases found with
  | none => simpa using sofar
  | some colon =>
    refine sofar.stepWith (serves.expressionLevel .conditional (sofar.fits_pred fits (by simp)))
      fun value after tight _ sofar => ?_
    have clause : Reads state [(Node.make .bitfieldClause [colon, value]).toChild] after :=
      sofar.wrap (by simp) (.binding rfl rfl (by simp)
        (.ofParts rfl rfl (by simp [NodeKind.partLevel, tight])))
    simpa using clause

theorem fieldDeclarators_builds (serves : sub.Serves room) (fits : state.Fits room) :
    (fieldDeclarators sub).Builds state := by
  unfold fieldDeclarators Builds
  refine Meets.loop (fun soFar after => Reads state (pieces soFar) after) ?_ (.nothing state)
  intro soFar s1 sofar
  have fits1 := sofar.fits fits
  refine sofar.step (unlessAt_builds (only_builds (requiredDeclarator_builds serves fits1)
    fun _ => rfl)) fun declarator s2 readDeclarator sofar => ?_
  refine sofar.step (bitfieldWidth_builds serves (sofar.fits fits).weaken)
    fun width s3 readWidth sofar => ?_
  refine sofar.step (attributes_builds serves (sofar.fits fits).weaken)
    fun attributes s4 readAttributes sofar => ?_
  refine sofar.step (accept_builds _ _) fun found s5 readComma sofar => ?_
  cases found with
  | none => simpa using sofar
  | some comma =>
    refine ⟨by simpa using sofar, ?_⟩
    exact (readDeclarator.join (readWidth.join (readAttributes.join readComma))).remaining_lt
      (by simp)

theorem fieldDeclaration_builds (serves : sub.Serves room) (fits : state.Fits room) :
    (fieldDeclaration sub).Builds state := by
  unfold fieldDeclaration Builds
  rw [meets_bind]
  refine ((serves.declarationSpecifiers fits).gives serves.specifierFields).mono ?_ fun _ _ stops => stops
  intro specifiers s1 ⟨lack, _, qualifies, sofar⟩
  refine sofar.stepWith (Meets.gives
    (unlessAt_builds (fieldDeclarators_builds serves (sofar.fits fits)))
    (unlessAt_gives (fieldDeclarators_gives serves.declarators) Child.declarators_nil))
    fun members s2 known readMembers sofar => ?_
  refine sofar.step (expect_builds _ _) fun semicolon s3 readSemicolon sofar => ?_
  have rest := Child.declarators_append known (Child.declarators_token semicolon)
  have qualifies := (qualifies.mono (readMembers.join readSemicolon).reports_subset).append rest.apart
  rw [← List.append_assoc] at qualifies
  refine sofar.wrap (by simp) (.qualifying rfl rfl (by simp) qualifies ?_)
  rw [List.append_assoc]
  exact .ofFields (List.mem_singleton_self _) rfl (lack.names.append rest.names)

theorem fieldDeclarationList_builds (serves : sub.Serves room) (fits : state.Fits (room + 1)) :
    (fieldDeclarationList sub).Builds state := by
  refine (ReadsWith.nothing state).step (expect_builds _ _) fun opener s1 _ sofar => ?_
  refine sofar.step (many_builds (sofar.fits_pred fits (by simp)) (by simp) ?_)
    fun members s2 _ sofar => ?_
  · intro state fits
    unfold Builds
    rw [meets_bind, meets_currentKind]
    split
    · exact .nothing state
    · exact .nothing state
    · refine (ReadsWith.nothing state).step (pragmaLine_builds fits) fun node _ _ sofar => ?_
      exact sofar
    · refine (ReadsWith.nothing state).step (directiveLine_builds fits) fun node _ _ sofar => ?_
      exact sofar
    · refine (ReadsWith.nothing state).step (fieldDeclaration_builds serves fits)
        fun node _ _ sofar => ?_
      exact sofar
  · refine sofar.step (expect_builds _ _) fun closer _ _ sofar => ?_
    exact sofar.wrap (by simp) (.plain rfl (by simp))

theorem recordSpecifier_builds {keyword : Keyword} {kind : NodeKind} (serves : sub.Serves room)
    (fits : state.Fits (room + 1)) (plain : kind.isPlain = true) :
    (recordSpecifier sub keyword kind).Builds state := by
  refine (ReadsWith.nothing state).step (expect_builds _ _) fun word s1 _ sofar => ?_
  refine sofar.step (attributes_builds serves (sofar.fits fits)) fun before s2 _ sofar => ?_
  refine sofar.step (typeTag_builds s2) fun tag s3 _ sofar => ?_
  dsimp only
  rw [meets_bind, meets_check]
  split
  · have fits3 := sofar.fits fits
    refine sofar.step (nested_builds (fieldDeclarationList_builds serves
      fits3.deepen)) fun body s4 _ sofar => ?_
    refine sofar.step (attributes_builds serves (sofar.fits fits)) fun after s5 _ sofar => ?_
    exact sofar.wrap (by simp) (.plain plain (by simp))
  · split
    · exact failExpecting_stops sofar _
    · exact sofar.wrap (by simp) (.plain plain (by simp))

theorem enumerator_builds (serves : sub.Serves room) (fits : state.Fits (room + 1)) :
    (enumerator sub).Builds state := by
  refine (ReadsWith.nothing state).step (expect_builds _ _) fun name s1 readName _ => ?_
  have sofar := readName.leaf (.identifier name)
  refine sofar.step (declare_builds .ordinary (readName.hasRead (by simp [Token.toChild]))) fun _ s2 _ sofar => ?_
  refine sofar.step (accept_builds _ _) fun found s3 _ sofar => ?_
  cases found with
  | none =>
    exact sofar.wrap (by simp) (.binding rfl rfl (by simp)
      (.ofParts rfl rfl (by simp [NodeKind.partLevel])))
  | some assign =>
    refine sofar.stepWith (serves.expressionLevel .conditional (sofar.fits_pred fits (by simp)))
      fun value _ tight _ sofar => ?_
    exact sofar.wrap (by simp) (.binding rfl rfl (by simp)
      (.ofParts rfl rfl (by simp [NodeKind.partLevel, tight])))

theorem enumeratorList_builds (serves : sub.Serves room) (fits : state.Fits (room + 1)) :
    (enumeratorList sub).Builds state := by
  refine (ReadsWith.nothing state).step (expect_builds _ _) fun opener s1 _ sofar => ?_
  refine sofar.step (commaSeparated_builds (sofar.fits fits)
    fun _ fits => enumerator_builds serves fits) fun entries _ _ sofar => ?_
  refine sofar.step (expect_builds _ _) fun closer _ _ sofar => ?_
  exact sofar.wrap (by simp) (.plain rfl (by simp))

theorem enumSpecifier_builds (serves : sub.Serves room) (fits : state.Fits (room + 1)) :
    (enumSpecifier sub).Builds state := by
  refine (ReadsWith.nothing state).step (expect_builds _ _) fun word s1 _ sofar => ?_
  refine sofar.step (attributes_builds serves (sofar.fits fits)) fun before s2 _ sofar => ?_
  refine sofar.step (typeTag_builds s2) fun tag s3 _ sofar => ?_
  dsimp only
  rw [meets_bind, meets_check]
  split
  · refine sofar.step (enumeratorList_builds serves (sofar.fits fits)) fun body s4 _ sofar => ?_
    exact sofar.wrap (by simp) (.plain rfl (by simp))
  · split
    · exact failExpecting_stops sofar _
    · exact sofar.wrap (by simp) (.plain rfl (by simp))

theorem typeSpecifier_builds (serves : sub.Serves room) (fits : state.Fits (room + 1)) :
    (typeSpecifier sub).Builds state := by
  unfold typeSpecifier Builds
  rw [meets_bind, meets_current]
  cases current : state.cursor.peek? 0 with
  | none => exact failExpecting_stops (.nothing state) _
  | some token =>
    dsimp only
    split
    case h_1 kind | h_2 kind | h_3 kind | h_4 kind =>
      exact sizedTypeSpecifier_builds current (by rw [kind]; rfl)
    case h_15 => exact pipeType_builds serves fits
    case h_16 => exact recordSpecifier_builds serves fits rfl
    case h_17 => exact recordSpecifier_builds serves fits rfl
    case h_18 => exact enumSpecifier_builds serves fits
    case h_19 =>
      rw [meets_bind, meets_scopes]
      split
      · exact typeToken_builds rfl current
      · exact failExpecting_stops (.nothing state) _
    case h_20 => exact failExpecting_stops (.nothing state) _
    all_goals exact typeToken_builds rfl current

theorem declarationSpecifiers_reads (serves : sub.Serves room) (fits : state.Fits (room + 1)) :
    (declarationSpecifiers sub).Meets state
      (fun specifiers after => specifiers.children ≠ [] ∧
        Qualifies after.reports specifiers.children specifiers.qualifiers ∧
        Reads state (pieces specifiers) after)
      (Stops False state) := by
  unfold declarationSpecifiers
  rw [meets_bind]
  refine (qualifiers_reads serves fits (.nothing state) .nothing).mono ?_ fun _ _ stops => stops
  intro before s1 ⟨sofar, _, qualifies⟩
  rw [meets_bind, meets_current]
  cases current : s1.cursor.peek? 0 with
  | none => exact failExpecting_stops sofar _
  | some token =>
    dsimp only
    rw [meets_bind, meets_startsType]
    split
    · refine sofar.stepWith (Meets.gives (typeSpecifier_builds serves (sofar.fits fits))
        typeSpecifier_gives) fun type s2 apart readType sofar => ?_
      have withType : Reads state
          (pieces (⟨before.children ++ [type.as .type], before.qualifiers⟩ : Specifiers)) s2 := by
        simpa using sofar
      have qualifies := (qualifies.mono readType.reports_subset).append
        (show Child.Apart [type.as .type] from Child.apart_node.mpr ⟨apart, Child.apart_nil⟩)
      refine (qualifiers_reads serves fits withType qualifies).mono ?_ fun _ _ stops => stops
      rintro result s3 ⟨reads, grown, qualifies⟩
      refine ⟨?_, qualifies, reads⟩
      intro empty
      simp [empty] at grown
    · exact failExpecting_stops sofar _

end Rule

end OpenCLTree
