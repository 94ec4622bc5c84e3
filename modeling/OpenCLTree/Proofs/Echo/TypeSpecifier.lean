import OpenCLTree.Proofs.Echo.Declarator
import OpenCLTree.Proofs.Echo.Directive
import OpenCLTree.Grammar.TypeSpecifier

namespace OpenCLTree

namespace Rule

variable {e : Echo} {one two : Grammar} {guard : Guard} {state : GrammarState} {word : Word}
  {rest : List Word}

theorem turn_sizeModifier {kind : TokenKind} (modifier : isSizeModifier kind = true) :
    kind.turn = .stays := by
  unfold isSizeModifier at modifier
  split at modifier <;> trivial

/-- One word of a type such as `unsigned long int`. -/
def sizeModifier : Rule (Option Child) := do
  match ← current with
  | some token =>
    if isSizeModifier token.kind then
      advance
      pure (some token.toChild)
    else pure none
  | none => pure none

theorem sizeModifier_echoes : sizeModifier.EchoesAt e guard guard 1 0 sizeModifier state := by
  refine .current (fun _ => .ofValue (by simp)) fun word rest words => ?_
  dsimp only
  rw [e.kind]
  split
  · rename_i modifier
    exact .advance words (keeps_stays (turn_sizeModifier modifier)) (.ofValue (by simp))
  · exact .ofValue (by simp)

theorem sizeModifier_first (words : state.cursor.rest = word :: rest)
    (modifier : isSizeModifier word.token.kind = true) :
    sizeModifier.EchoesAt e guard guard 1 1 sizeModifier state := by
  refine .current (fun ended => nomatch words.symm.trans ended) fun word' rest' words' => ?_
  obtain ⟨rfl, _⟩ := List.cons.inj (words.symm.trans words')
  dsimp only
  rw [e.kind, if_pos modifier, if_pos modifier]
  exact .advance words' (keeps_stays (turn_sizeModifier modifier)) (.ofValue (by simp))

theorem sizedTypeSpecifier_echoes (words : state.cursor.rest = word :: rest)
    (modifier : isSizeModifier word.token.kind = true) :
    sizedTypeSpecifier.EchoesAt e guard guard 1 1 sizedTypeSpecifier state := by
  refine .bind (.manyFrom (fun s => sizeModifier_echoes) (sizeModifier_first words modifier))
    fun modifiers s1 _ => ?_
  refine .current (fun _ => .ofValue (by simp)) fun word rest words => ?_
  dsimp only
  rw [e.kind]
  split
  case h_5 => exact .ofValue (by simp)
  all_goals
    rename_i kind
    exact .advance words (keeps_stays (kind ▸ rfl)) (.ofValue (by simp))

theorem pipeType_echoes (echoes : one.Echoes e two) :
    (pipeType one).EchoesAt e guard guard 1 1 (pipeType two) state := by
  unfold pipeType
  refine .bind (.expectStays rfl) fun word s1 _ => ?_
  refine .bind (echoes.typeSpecifier guard s1) fun element s2 _ => ?_
  exact .ofValue (by simp)

theorem typeTag_echoes : typeTag.EchoesAt e guard guard 1 0 typeTag state :=
  .acceptStays rfl (fun word rest _ _ => .ofValue (by simp)) fun _ => .ofValue (by simp)

theorem bitfieldWidth_echoes (echoes : one.Echoes e two) :
    (bitfieldWidth one).EchoesAt e guard guard 1 0 (bitfieldWidth two) state := by
  unfold bitfieldWidth
  refine .acceptStays rfl (fun word rest _ _ => ?_) fun _ => .ofValue (by simp)
  refine .bind (echoes.expression guard _ .conditional) fun value s1 _ => ?_
  exact .ofValue (by simp)

theorem fieldDeclarators_echoes (echoes : one.Echoes e two) :
    (fieldDeclarators one).EchoesAt e guard guard 1 0 (fieldDeclarators two) state := by
  refine .repeated fun soFar s => ?_
  refine .bind (.unlessAt (.only (requiredDeclarator_echoes echoes) fun _ => rfl))
    fun declarator s1 _ => ?_
  refine .bind (bitfieldWidth_echoes echoes) fun width s2 _ => ?_
  refine .bind (attributes_echoes echoes) fun attributes s3 _ => ?_
  exact .acceptStays rfl (fun word rest _ _ => .ofValue (by simp)) fun _ => .ofValue (by simp)

theorem fieldDeclaration_echoes (echoes : one.Echoes e two) (folded : e.flat = false) :
    (fieldDeclaration one).EchoesAt e guard guard 1 0 (fieldDeclaration two) state := by
  unfold fieldDeclaration
  refine .bind (echoes.declarationSpecifiers guard state) fun specifiers s1 _ => ?_
  refine .bind (.unlessAt (fieldDeclarators_echoes echoes)) fun members s2 _ => ?_
  refine .bind (.expectEnds (.inl folded)) fun semicolon s3 _ => ?_
  exact .ofValue (by simp)

theorem fieldDeclarationList_echoes (echoes : one.Echoes e two) :
    (fieldDeclarationList one).EchoesAt e guard guard 1 1 (fieldDeclarationList two) state := by
  refine .expectBrace fun folded opener rest _ => ?_
  refine .bind (.many fun s => ?_) fun members s2 _ => ?_
  · refine .currentKind (fun _ => .ofValue (by simp)) fun word rest _ => ?_
    split
    · exact .ofValue (by simp)
    · exact .ofValue (by simp)
    · exact .bind pragmaLine_echoes fun node s3 _ => .ofValue (by simp)
    · exact .bind directiveLine_echoes fun node s3 _ => .ofValue (by simp)
    · exact .bind (fieldDeclaration_echoes echoes folded) fun node s3 _ => .ofValue (by simp)
  · exact .bind (.expectCloses rfl) fun closer s3 _ => .ofValue (by simp)

theorem recordSpecifier_echoes (echoes : one.Echoes e two) (keyword : Keyword) (kind : NodeKind) :
    (recordSpecifier one keyword kind).EchoesAt e guard guard 1 1
      (recordSpecifier two keyword kind) state := by
  unfold recordSpecifier
  refine .bind (.expectStays rfl) fun word s1 _ => ?_
  refine .bind (attributes_echoes echoes) fun before s2 _ => ?_
  refine .bind typeTag_echoes fun tag s3 _ => ?_
  refine .check (fun _ _ _ _ => ?_) fun _ => ?_
  · refine .bind (.nested (fieldDeclarationList_echoes echoes)) fun body s4 _ => ?_
    refine .bind (attributes_echoes echoes) fun after s5 _ => ?_
    exact .ofValue (by simp)
  · rw [if_neg Bool.false_ne_true, if_neg Bool.false_ne_true, e.isEmpty_image]
    split
    · exact .failExpecting _ _
    · exact .ofValue (by simp)

theorem enumerator_echoes (echoes : one.Echoes e two) :
    (enumerator one).EchoesAt e guard guard 1 0 (enumerator two) state := by
  unfold enumerator
  refine .bind (.expectStays rfl) fun name s1 _ => ?_
  rw [e.image_token, e.text]
  refine .bind (.declare name.text .ordinary) fun _ s2 _ => ?_
  refine .acceptStays rfl (fun word rest _ _ => ?_) fun _ => .ofValue (by simp)
  refine .bind (echoes.expression guard _ .conditional) fun value s3 _ => ?_
  exact .ofValue (by simp)

theorem enumeratorList_echoes (echoes : one.Echoes e two) :
    (enumeratorList one).EchoesAt e guard guard 1 1 (enumeratorList two) state := by
  unfold enumeratorList
  refine .bind (.expectOpens rfl) fun opener s1 _ => ?_
  refine .bind (.commaSeparated fun s => enumerator_echoes echoes) fun entries s2 _ => ?_
  refine .bind (.expectCloses rfl) fun closer s3 _ => ?_
  exact .ofValue (by simp)

theorem enumSpecifier_echoes (echoes : one.Echoes e two) :
    (enumSpecifier one).EchoesAt e guard guard 1 1 (enumSpecifier two) state := by
  unfold enumSpecifier
  refine .bind (.expectStays rfl) fun word s1 _ => ?_
  refine .bind (attributes_echoes echoes) fun before s2 _ => ?_
  refine .bind typeTag_echoes fun tag s3 _ => ?_
  refine .check (fun _ _ _ _ => ?_) fun _ => ?_
  · refine .bind (enumeratorList_echoes echoes) fun body s4 _ => ?_
    exact .ofValue (by simp)
  · rw [if_neg Bool.false_ne_true, if_neg Bool.false_ne_true, e.isEmpty_image]
    split
    · exact .failExpecting _ _
    · exact .ofValue (by simp)

theorem typeToken_echoes (kind : NodeKind) (words : state.cursor.rest = word :: rest)
    (stays : word.token.kind.turn = .stays) :
    (typeToken kind word.token).EchoesAt e guard guard 1 1 (typeToken kind (e.token word.token))
      state :=
  .advance words (keeps_stays stays) (.ofValue (by simp))

theorem typeSpecifier_echoes (echoes : one.Echoes e two) :
    (typeSpecifier one).EchoesAt e guard guard 1 1 (typeSpecifier two) state := by
  unfold typeSpecifier
  refine .current (fun _ => .failExpecting _ _) fun word rest words => ?_
  dsimp only
  rw [e.kind]
  split
  case h_1 kind | h_2 kind | h_3 kind | h_4 kind =>
    exact sizedTypeSpecifier_echoes words (kind ▸ rfl)
  case h_15 => exact pipeType_echoes echoes
  case h_16 => exact recordSpecifier_echoes echoes .struct .structSpecifier
  case h_17 => exact recordSpecifier_echoes echoes .union .unionSpecifier
  case h_18 => exact enumSpecifier_echoes echoes
  case h_19 isName =>
    have asked : (if state.scopes.isType word.token.text then typeToken .typeIdentifier word.token
        else failExpecting .typeSpecifier).EchoesAt e guard guard 1 1
        (if state.scopes.isType word.token.text then
          typeToken .typeIdentifier (e.token word.token) else failExpecting .typeSpecifier)
        state := by
      split
      · exact typeToken_echoes .typeIdentifier words (isName ▸ rfl)
      · exact .failExpecting _ _
    refine asked.congr (fun _ => rfl) fun other sound agrees => ?_
    have known := sound.names word (words ▸ List.mem_cons_self) isName
    rw [← agrees.isType known, e.text]
    rfl
  case h_20 => exact .failExpecting _ _
  all_goals
    rename_i kind
    exact typeToken_echoes _ words (kind ▸ rfl)

theorem declarationSpecifiers_echoes (echoes : one.Echoes e two) :
    (declarationSpecifiers one).EchoesAt e guard guard 1 1 (declarationSpecifiers two) state := by
  unfold declarationSpecifiers
  refine .bind (qualifiers_echoes echoes ⟨[], .empty⟩) fun before s1 _ => ?_
  refine .current (fun _ => .failExpecting _ _) fun word rest words => ?_
  refine .startsType words ?_
  split
  · refine .bind (typeSpecifier_echoes echoes) fun type s2 _ => ?_
    have same : (⟨(e.image before).children ++ [(e.image type).as .type],
        (e.image before).qualifiers⟩ : Specifiers) =
        e.image ⟨before.children ++ [type.as .type], before.qualifiers⟩ := by simp
    rw [same]
    exact qualifiers_echoes echoes _
  · exact .failExpecting _ _

end Rule

end OpenCLTree
