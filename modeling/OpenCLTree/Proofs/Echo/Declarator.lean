import OpenCLTree.Proofs.Echo.Specifiers
import OpenCLTree.Grammar.Declarator

namespace OpenCLTree

namespace Echo

variable (e : Echo)

@[simp]
theorem declaratorChild_image (declarator : Option Node) :
    declaratorChild (e.image declarator) = e.image (declaratorChild declarator) := by
  cases declarator <;> simp [declaratorChild]

@[simp]
theorem suffixIsAbstract_image (inner : Option Node) :
    suffixIsAbstract (e.image inner) = suffixIsAbstract inner := by
  cases inner <;> simp [suffixIsAbstract]

end Echo

namespace Rule

variable {α : Type} [Echoed α] {e : Echo} {one two : Grammar} {guard post : Guard} {margin gain : Nat}
  {state : GrammarState} {mode : DeclaratorMode} {word : Word} {rest : List Word}

theorem requiredDeclarator_echoes (echoes : one.Echoes e two) :
    (requiredDeclarator one mode).EchoesAt e guard guard 1 0 (requiredDeclarator two mode) state := by
  unfold requiredDeclarator
  refine .bind (.nested (echoes.declarator guard _ mode)) fun found s1 _ => ?_
  cases found with
  | some declarator => exact .ofValue (by simp)
  | none => exact .failExpecting _ _

theorem pointerQualifiers_echoes :
    pointerQualifiers.EchoesAt e guard guard 1 0 pointerQualifiers state := by
  unfold pointerQualifiers
  refine .bind (.repeated fun soFar s => ?_) fun collected s1 _ => .ofValue (by simp)
  refine .current (fun _ => .ofValue (by simp)) fun word rest words => ?_
  dsimp only
  rw [e.kind]
  split
  · rename_i qualifier kind
    split
    · refine .advance words (keeps_stays (kind ▸ rfl)) ?_
      refine .bind (qualifierNode_echoes qualifier word.token soFar.qualifiers) fun found s2 _ => ?_
      exact .ofValue (by simp)
    · exact .ofValue (by simp)
  · exact .ofValue (by simp)

theorem parenthesizedDeclarator_echoes (echoes : one.Echoes e two) :
    (parenthesizedDeclarator one mode).EchoesAt e guard guard 1 1 (parenthesizedDeclarator two mode)
      state := by
  unfold parenthesizedDeclarator
  refine .bind (.expectOpens rfl) fun opener s1 _ => ?_
  refine .bind (requiredDeclarator_echoes echoes) fun inner s2 _ => ?_
  refine .bind (.expectCloses rfl) fun closer s3 _ => ?_
  refine .ofValue ?_
  simp only [Echo.image_node, Node.isAbstract_mapTokens]
  simp

theorem parameterDeclaration_echoes (echoes : one.Echoes e two) :
    (parameterDeclaration one).EchoesAt e guard guard 1 0 (parameterDeclaration two) state := by
  unfold parameterDeclaration
  refine .bind (echoes.declarationSpecifiers guard state) fun specifiers s1 _ => ?_
  refine .bind (echoes.declarator guard s1 .either) fun declarator s2 _ => ?_
  refine .bind (attributes_echoes echoes) fun attributes s3 _ => ?_
  exact .ofValue (by simp)

theorem parameters_echoes (echoes : one.Echoes e two) :
    (parameters one).EchoesAt e guard guard 1 0 (parameters two) state := by
  refine .repeated fun soFar s => ?_
  refine .check (fun _ _ _ _ => .ofValue (by simp)) fun _ => ?_
  refine .acceptStays rfl (fun word rest _ _ => .ofValue (by simp)) fun _ => ?_
  refine .bind (parameterDeclaration_echoes echoes) fun parameter s1 _ => ?_
  refine .acceptStays rfl (fun word rest _ _ => .ofValue (by simp)) fun _ => .ofValue (by simp)

theorem parameterList_echoes (echoes : one.Echoes e two) :
    (parameterList one).EchoesAt e guard guard 1 1 (parameterList two) state := by
  unfold parameterList
  refine .bind (.expectOpens rfl) fun opener s1 _ => ?_
  refine .bind (parameters_echoes echoes) fun entries s2 _ => ?_
  refine .bind (.expectCloses rfl) fun closer s3 _ => ?_
  exact .ofValue (by simp)

theorem arraySuffix_echoes (echoes : one.Echoes e two) (inner : Option Node) :
    (arraySuffix one inner).EchoesAt e guard guard 1 1 (arraySuffix two (e.image inner)) state := by
  unfold arraySuffix
  rw [e.suffixIsAbstract_image]
  refine .bind (.expectOpens rfl) fun opener s1 _ => ?_
  refine .bind (.unlessAt (.only (echoes.expression _ s1 _) fun _ => rfl)) fun size s2 _ => ?_
  refine .bind (.expectCloses rfl) fun closer s3 _ => ?_
  exact .ofValue (by simp)

theorem functionSuffix_echoes (echoes : one.Echoes e two) (inner : Option Node) :
    (functionSuffix one inner).EchoesAt e guard guard 1 1 (functionSuffix two (e.image inner))
      state := by
  unfold functionSuffix
  rw [e.suffixIsAbstract_image]
  refine .bind (parameterList_echoes echoes) fun list s1 _ => ?_
  exact .ofValue (by simp)

/-- One suffix of a declarator, or its end. -/
def declaratorSuffix (sub : Grammar) (inner : Option Node) : Rule (Option Node ⊕ Option Node) := do
  match ← currentKind with
  | some (.punct .leftBracket) => pure (.inl (some (← arraySuffix sub inner)))
  | some (.punct .leftParen) => pure (.inl (some (← functionSuffix sub inner)))
  | _ => pure (.inr inner)

theorem directDeclarator_eq (sub : Grammar) (mode : DeclaratorMode) :
    directDeclarator sub mode = declaratorCore sub mode >>= fun core =>
      if core.isNone && mode.requiresName then failExpecting (.token .identifier)
      else loop (declaratorSuffix sub) core := rfl

theorem declaratorSuffix_echoes (echoes : one.Echoes e two) (inner : Option Node) :
    (declaratorSuffix one inner).EchoesAt e guard guard 1 0 (declaratorSuffix two (e.image inner))
      state := by
  refine .currentKind (fun _ => .ofValue (by simp)) fun word rest words => ?_
  split
  · exact .bind (arraySuffix_echoes echoes inner) fun node s1 _ => .ofValue (by simp)
  · exact .bind (functionSuffix_echoes echoes inner) fun node s1 _ => .ofValue (by simp)
  · exact .ofValue (by simp)

/-- A parenthesis is a suffix, wherever a suffix may stand. -/
theorem declaratorSuffix_paren (echoes : one.Echoes e two) (inner : Option Node)
    (words : state.cursor.rest = word :: rest) (paren : word.token.kind = .punct .leftParen) :
    (declaratorSuffix one inner).EchoesAt e guard guard 1 1 (declaratorSuffix two (e.image inner))
      state := by
  refine .currentKind (fun ended => ?_) fun word' rest' words' => ?_
  · rw [words] at ended
    cases ended
  · obtain ⟨rfl, _⟩ := List.cons.inj (words.symm.trans words')
    rw [paren]
    exact .bind (functionSuffix_echoes echoes inner) fun node s1 _ => .ofValue (by simp)

/-- What the token after a parenthesis says about it. -/
theorem parenOpensDeclarator_eq (mode : DeclaratorMode) (state : GrammarState) :
    parenOpensDeclarator mode state = .done (mode.requiresName ||
      (state.cursor.peek? 1).any fun token =>
        match token.kind with
        | .punct .star | .punct .leftParen | .punct .leftBracket => true
        | .identifier => mode == .either && !state.scopes.isType token.text
        | _ => false) state := by
  unfold parenOpensDeclarator
  cases mode.requiresName with
  | true => rfl
  | false =>
    have looked : peek 1 state = .done (state.cursor.peek? 1) state := rfl
    rw [if_neg (by simp), bind_done looked, Bool.false_or]
    cases state.cursor.peek? 1 with
    | none => rfl
    | some token =>
      simp only [Option.any_some]
      cases token.kind with
      | punct mark => cases mark <;> rfl
      | _ => rfl

theorem parenOpensDeclarator_echoes {next next' : Bool → Rule α}
    (words : state.cursor.rest = word :: rest) (opens : word.token.kind.turn = .opens)
    (later : ∀ found, (next found).EchoesAt e guard post margin gain (next' found) state)
    (room : mode.requiresName = false → 2 ≤ margin + gain) :
    (parenOpensDeclarator mode >>= next).EchoesAt e guard post margin gain
      (parenOpensDeclarator mode >>= next') state := by
  cases named : mode.requiresName with
  | true =>
    have always (state : GrammarState) : parenOpensDeclarator mode state = .done true state := by
      rw [parenOpensDeclarator_eq, named, Bool.true_or]
    exact .look (fun _ => always state) (fun other _ _ (_ : e.Reaches 0 state) => always other)
      (later true) (Nat.zero_le _) fun guards => guards.reaches (Nat.zero_le 1)
  | false =>
    refine .look (fun _ => parenOpensDeclarator_eq mode state)
      (fun other sound agrees (reaches : e.Reaches 2 state) => ?_) (later _) (room named)
      fun guards => guards.reaches_two words opens
    rw [parenOpensDeclarator_eq, agrees.peek? sound reaches]
    cases found : state.cursor.peek? 1 with
    | none => rfl
    | some token =>
      have knows := sound.knows found
      simp only [Option.map_some, Option.any_some, e.kind, e.text]
      split
      case h_4 isName => rw [agrees.isType (knows isName)]
      all_goals rfl

theorem declaratorCore_echoes (echoes : one.Echoes e two)
    (sure : mode.requiresName = true ∨
      ∀ word rest, state.cursor.rest = word :: rest → word.token.kind ≠ .punct .leftParen) :
    (declaratorCore one mode).EchoesAt e guard guard 1 0 (declaratorCore two mode) state := by
  unfold declaratorCore
  refine .current (fun _ => .ofValue (by simp)) fun word rest words => ?_
  dsimp only
  rw [e.kind]
  split
  · rename_i isName
    split
    · exact .advance words (keeps_stays (isName ▸ rfl)) (.ofValue (by simp))
    · exact .ofValue (by simp)
  · rename_i paren
    have named := sure.resolve_right fun other => other word rest words paren
    refine parenOpensDeclarator_echoes words (paren ▸ rfl) (fun found => ?_)
      fun unnamed => absurd (named.symm.trans unnamed) (by simp)
    split
    · exact .bind (.nested (parenthesizedDeclarator_echoes echoes)) fun node s1 _ => .ofValue (by simp)
    · exact .ofValue (by simp)
  · exact .ofValue (by simp)

/-- Where a parenthesis may open an inner declarator as well as the parameters of a suffix. -/
theorem directDeclarator_paren (sub : Grammar) (unnamed : mode.requiresName = false)
    (normal : state.cursor.mode = .normal) (words : state.cursor.rest = word :: rest)
    (paren : word.token.kind = .punct .leftParen) :
    directDeclarator sub mode state = (parenOpensDeclarator mode >>= fun opens =>
      if opens then
        nested (parenthesizedDeclarator sub mode) >>= fun node => loop (declaratorSuffix sub) (some node)
      else loop (declaratorSuffix sub) none) state := by
  rw [directDeclarator_eq]
  unfold declaratorCore
  rw [bind_assoc, bind_done (EchoesAt.current_eq normal words)]
  simp only [paren]
  rw [bind_assoc, bind_done (parenOpensDeclarator_eq mode state),
    bind_done (parenOpensDeclarator_eq mode state), unnamed]
  split
  · rw [bind_assoc]
    rfl
  · exact bind_done rfl

theorem directDeclarator_echoes (echoes : one.Echoes e two) :
    (directDeclarator one mode).EchoesAt e guard guard 1 0 (directDeclarator two mode) state := by
  by_cases unsure : mode.requiresName = false ∧
      ∃ word rest, state.cursor.rest = word :: rest ∧ word.token.kind = .punct .leftParen
  · obtain ⟨unnamed, word, rest, words, paren⟩ := unsure
    have first : (parenOpensDeclarator mode >>= fun opens =>
        if opens then
          nested (parenthesizedDeclarator one mode) >>= fun node =>
            loop (declaratorSuffix one) (some node)
        else loop (declaratorSuffix one) none).EchoesAt e guard guard 1 1
        (parenOpensDeclarator mode >>= fun opens =>
          if opens then
            nested (parenthesizedDeclarator two mode) >>= fun node =>
              loop (declaratorSuffix two) (some node)
          else loop (declaratorSuffix two) none) state := by
      refine parenOpensDeclarator_echoes words (paren ▸ rfl) (fun found => ?_) fun _ => Nat.le_refl 2
      split
      · refine .bind (.nested (parenthesizedDeclarator_echoes echoes)) fun node s1 _ => ?_
        exact .repeated fun inner s => declaratorSuffix_echoes echoes inner
      · exact .repeatedFrom (fun inner s => declaratorSuffix_echoes echoes inner)
          (declaratorSuffix_paren echoes none words paren)
    refine first.anyGain.congr (fun sound => ?_) fun other sound agrees => ?_
    · exact directDeclarator_paren one unnamed sound.mode words paren
    · exact directDeclarator_paren two unnamed (agrees.mode.trans sound.mode)
        (agrees.words_eq words) ((e.kind _).trans paren)
  · rw [directDeclarator_eq, directDeclarator_eq]
    refine .bind (declaratorCore_echoes echoes ?_) fun core s1 _ => ?_
    · cases named : mode.requiresName with
      | true => exact .inl rfl
      | false => exact .inr fun word rest words paren => unsure ⟨named, word, rest, words, paren⟩
    · rw [show (e.image core).isNone = core.isNone from Option.isNone_map]
      split
      · exact .failExpecting _ _
      · exact .repeated fun inner s => declaratorSuffix_echoes echoes inner

theorem declarator_echoes (echoes : one.Echoes e two) :
    (declarator one mode).EchoesAt e guard guard 1 0 (declarator two mode) state := by
  unfold declarator
  refine .acceptStays rfl (fun word rest words _ => ?_) fun _ => directDeclarator_echoes echoes
  refine .bind pointerQualifiers_echoes fun qualifiers s1 _ => ?_
  refine .bind (echoes.declarator guard s1 mode) fun found s2 _ => ?_
  cases found with
  | some inner =>
    refine .ofValue ?_
    simp only [Echo.image_some, Echo.image_node, Node.isAbstract_mapTokens]
    simp
  | none =>
    dsimp only [Echo.image_none]
    split
    · exact .failExpecting _ _
    · exact .ofValue (by simp)

end Rule

end OpenCLTree
