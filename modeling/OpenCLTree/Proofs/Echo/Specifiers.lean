import OpenCLTree.Proofs.Echo.Loops
import OpenCLTree.Grammar.Specifiers

namespace OpenCLTree

instance : Echoed QualifierSet :=
  ⟨fun e set => ⟨set.entries.map fun entry => ⟨entry.qualifier, e.place entry.span⟩⟩⟩

instance : Echoed Specifiers :=
  ⟨fun e specifiers => ⟨e.image specifiers.children, e.image specifiers.qualifiers⟩⟩

/-- Whether a rule that succeeds at a parenthesis has found the closing one. -/
def Rule.Pairs {α : Type} (e : Echo) (rule : Rule α) (state : GrammarState) : Prop :=
  ∀ word rest value after, e.Sound state → state.cursor.rest = word :: rest →
    word.token.kind = .punct .leftParen → rule state = .done value after → e.Guards (some 0) 0 rest

/-- Whether the rules that call each other echo, wherever they are called. -/
structure Grammar.Echoes (e : Echo) (one two : Grammar) : Prop where
  expression (guard : Guard) (state : GrammarState) (level : Level) :
    (one.expression level).EchoesAt e guard guard 1 1 (two.expression level) state
  castExpression (guard : Guard) (state : GrammarState) :
    one.castExpression.EchoesAt e guard guard 1 1 two.castExpression state
  unaryExpression (guard : Guard) (state : GrammarState) :
    one.unaryExpression.EchoesAt e guard guard 1 1 two.unaryExpression state
  unaryPairs (state : GrammarState) : one.unaryExpression.Pairs e state
  initializer (guard : Guard) (state : GrammarState) :
    one.initializer.EchoesAt e guard guard 1 1 two.initializer state
  typeSpecifier (guard : Guard) (state : GrammarState) :
    one.typeSpecifier.EchoesAt e guard guard 1 1 two.typeSpecifier state
  declarationSpecifiers (guard : Guard) (state : GrammarState) :
    one.declarationSpecifiers.EchoesAt e guard guard 1 1 two.declarationSpecifiers state
  declarator (guard : Guard) (state : GrammarState) (mode : DeclaratorMode) :
    (one.declarator mode).EchoesAt e guard guard 1 0 (two.declarator mode) state
  statement (state : GrammarState) :
    one.statement.EchoesAt e none none 1 1 two.statement state

namespace Echo

variable (e : Echo)

@[simp]
theorem image_specifiers (specifiers : Specifiers) :
    e.image specifiers = ⟨e.image specifiers.children, e.image specifiers.qualifiers⟩ := rfl

theorem image_qualifiers (set : QualifierSet) :
    e.image set = ⟨set.entries.map fun entry => ⟨entry.qualifier, e.place entry.span⟩⟩ := rfl

@[simp]
theorem image_qualifiers_empty : e.image QualifierSet.empty = .empty := rfl

@[simp]
theorem isTypedef_image (set : QualifierSet) : (e.image set).isTypedef = set.isTypedef :=
  List.any_map

@[simp]
theorem isKernel_image (set : QualifierSet) : (e.image set).isKernel = set.isKernel :=
  List.any_map

theorem get?_image (set : QualifierSet) (category : QualifierCategory) :
    (e.image set).get? category =
      (set.get? category).map fun entry => ⟨entry.qualifier, e.place entry.span⟩ :=
  List.find?_map

end Echo

namespace Rule

variable {e : Echo} {one two : Grammar} {guard : Guard} {state : GrammarState}

theorem qualifierNode_echoes (qualifier : Qualifier) (token : Token) (set : QualifierSet) :
    (qualifierNode qualifier token set).EchoesAt e guard guard 1 0
      (qualifierNode qualifier (e.token token) (e.image set)) state := by
  unfold qualifierNode QualifierSet.insert
  rw [e.get?_image]
  cases set.get? qualifier.category with
  | some earlier =>
    have late (earlier : Span) : e.Late (.duplicateQualifier qualifier.category earlier
        (e.token token).span) := fun _ _ => e.above token
    refine .bind (.report _ (late _)) fun _ _ _ => ?_
    exact .ofValue (by simp)
  | none =>
    refine .ofValue ?_
    simp [e.image_qualifiers, e.span]

theorem typeDescriptor_echoes (echoes : one.Echoes e two) :
    (typeDescriptor one).EchoesAt e guard guard 1 1 (typeDescriptor two) state := by
  unfold typeDescriptor
  refine .bind (echoes.declarationSpecifiers guard state) fun specifiers s1 _ => ?_
  refine .bind (echoes.declarator guard s1 .unnamed) fun found s2 _ => ?_
  cases found with
  | some declarator => exact .ofValue (by simp)
  | none => exact .ofValue (by simp)

theorem turn_word {kind : TokenKind}
    (isWord : kind.tokenClass = .identifier ∨ kind.tokenClass = .keyword) : kind.turn = .stays := by
  cases kind <;> simp_all [TokenKind.tokenClass, TokenKind.turn]

theorem attributeEntry_echoes (echoes : one.Echoes e two) :
    (attributeEntry one).EchoesAt e guard guard 1 0 (attributeEntry two) state := by
  unfold attributeEntry
  refine .current (fun _ => .failExpecting _ _) fun word rest words => ?_
  dsimp only
  rw [e.kind]
  split
  · rename_i isWord
    refine .advance words (keeps_stays (turn_word isWord)) ?_
    refine .check (fun _ _ _ _ => ?_) fun _ => .ofValue (by simp)
    refine .bind (.expectOpens rfl) fun opener s1 _ => ?_
    refine .bind (.commaSeparated fun s => ?_) fun arguments s2 _ => ?_
    · refine .startsTypeNameAt ?_ (Nat.le_refl 1) fun guards => guards.reaches (Nat.le_refl 1)
      split
      · exact (typeDescriptor_echoes echoes).anyGain
      · exact (echoes.expression _ s _).anyGain
    refine .bind (.expectCloses rfl) fun closer s3 _ => ?_
    exact .ofValue (by simp)
  · exact .failExpecting _ _

theorem attributeSpecifier_echoes (echoes : one.Echoes e two) :
    (attributeSpecifier one).EchoesAt e guard guard 1 1 (attributeSpecifier two) state := by
  unfold attributeSpecifier
  refine .bind (.expectStays rfl) fun word s1 _ => ?_
  refine .bind (.expectOpens rfl) fun outer s2 _ => ?_
  refine .bind (.expectOpens rfl) fun inner s3 _ => ?_
  refine .bind (.commaSeparated fun s => attributeEntry_echoes echoes) fun entries s4 _ => ?_
  refine .bind (.expectCloses rfl) fun innerEnd s5 _ => ?_
  refine .bind (.expectCloses rfl) fun outerEnd s6 _ => ?_
  exact .ofValue (by simp)

theorem attributes_echoes (echoes : one.Echoes e two) :
    (attributes one).EchoesAt e guard guard 1 0 (attributes two) state := by
  refine .many fun s => ?_
  refine .check (fun _ _ _ _ => ?_) fun _ => .ofValue (by simp)
  refine .bind (attributeSpecifier_echoes echoes) fun node s1 _ => ?_
  exact .ofValue (by simp)

theorem qualifiers_echoes (echoes : one.Echoes e two) (specifiers : Specifiers) :
    (qualifiers one specifiers).EchoesAt e guard guard 1 0 (qualifiers two (e.image specifiers))
      state := by
  refine .repeated fun soFar s => ?_
  refine .current (fun _ => .ofValue (by simp)) fun word rest words => ?_
  dsimp only
  rw [e.kind]
  split
  · rename_i qualifier kind
    refine .advance words (keeps_stays (kind ▸ rfl)) ?_
    refine .bind (qualifierNode_echoes qualifier word.token soFar.qualifiers) fun found s1 _ => ?_
    exact .ofValue (by simp)
  · refine .bind (attributeSpecifier_echoes echoes) fun node s1 _ => ?_
    exact .ofValue (by simp)
  · exact .ofValue (by simp)

end Rule

end OpenCLTree
