import OpenCLTree.Proofs.Echo.TypeSpecifier
import OpenCLTree.Grammar.Declaration

namespace OpenCLTree

instance : Echoed Declared :=
  ⟨fun e declared => ⟨e.image declared.declarator, e.image declared.attributes⟩⟩

@[simp]
theorem Echo.image_declared (e : Echo) (declared : Declared) :
    e.image declared = ⟨e.image declared.declarator, e.image declared.attributes⟩ := rfl

namespace Rule

variable {e : Echo} {one two : Grammar} {guard : Guard} {state : GrammarState}

theorem declareName_echoes (declarator : Node) (sort : NameSort) :
    (declareName declarator sort).EchoesAt e guard guard 0 0
      (declareName (declarator.mapTokens e.token) sort) state := by
  unfold declareName
  rw [Node.declaratorName?_mapTokens]
  cases declarator.declaratorName? with
  | none => exact .ofValue (by simp)
  | some name =>
    simp only [Option.map_some, e.text]
    exact .declare name.text sort

theorem declared_echoes (echoes : one.Echoes e two) :
    (declared one).EchoesAt e guard guard 1 0 (declared two) state := by
  unfold declared
  refine .bind (requiredDeclarator_echoes echoes) fun declarator s1 _ => ?_
  refine .bind (attributes_echoes echoes) fun attributes s2 _ => ?_
  exact .ofValue (by simp)

theorem initDeclarator_echoes (echoes : one.Echoes e two) (sort : NameSort) (declared : Declared) :
    (initDeclarator one sort declared).EchoesAt e guard guard 1 0
      (initDeclarator two sort (e.image declared)) state := by
  unfold initDeclarator
  refine .bind (declareName_echoes declared.declarator sort) fun _ s1 _ => ?_
  refine .acceptStays rfl (fun word rest _ _ => ?_) fun _ => ?_
  · refine .bind (echoes.initializer guard _) fun value s2 _ => ?_
    exact .ofValue (by simp [Declared.children])
  · exact .ofValue (by simp [Declared.children])

theorem declarationRest_echoes (echoes : one.Echoes e two) (sort : NameSort) (first : Declared) :
    (declarationRest one sort first).EchoesAt e guard none 0 1
      (declarationRest two sort (e.image first)) state := by
  unfold declarationRest
  refine .bind (.repeated fun current s => ?_) fun children s1 _ => ?_
  · refine .bind (initDeclarator_echoes echoes sort current.2) fun declarator s2 _ => ?_
    refine .acceptStays rfl (fun word rest _ _ => ?_) fun _ => .ofValue (by simp)
    exact .bind (declared_echoes echoes) fun later s3 _ => .ofValue (by simp)
  · exact .give (.expect fun _ _ _ => .inl rfl) fun semicolon => by simp

theorem declarationAfter_echoes (echoes : one.Echoes e two) (specifiers : Specifiers)
    {definition definition' : Declared → Option (Rule Node)}
    (same : ∀ declared,
      (definition' (e.image declared)).isSome = (definition declared).isSome)
    (bodied : ∀ declared body body' state word rest, definition declared = some body →
      definition' (e.image declared) = some body' → state.cursor.rest = word :: rest →
      word.token.kind = .punct .leftBrace → body.EchoesAt e guard none 0 1 body' state) :
    (declarationAfter one specifiers definition).EchoesAt e guard none 0 1
      (declarationAfter two (e.image specifiers) definition') state := by
  unfold declarationAfter
  simp only [Echo.image_specifiers, Echo.isTypedef_image]
  refine .acceptLast (fun semicolon => _) (fun token => ⟨rfl, ?_⟩) fun _ => ?_
  · simp
  refine .bind (declared_echoes echoes) fun first s1 _ => ?_
  have plain : (declarationRest one (if specifiers.qualifiers.isTypedef then .type else .ordinary)
        first >>= fun rest => pure (Node.make (if specifiers.qualifiers.isTypedef then .typeDefinition
          else .declaration) (specifiers.children ++ rest))).EchoesAt e guard none 0 1
      (declarationRest two (if specifiers.qualifiers.isTypedef then .type else .ordinary)
        (e.image first) >>= fun rest =>
          pure (Node.make (if specifiers.qualifiers.isTypedef then .typeDefinition
            else .declaration) (e.image specifiers.children ++ rest))) s1 :=
    .give (declarationRest_echoes echoes _ first) fun rest => by simp
  refine .check (fun word rest words brace => ?_) fun _ => ?_
  · by_cases isTypedef : specifiers.qualifiers.isTypedef = true
    · simp only [if_pos isTypedef] at plain ⊢
      exact plain
    · simp only [if_neg isTypedef] at plain ⊢
      have agree := same first
      cases body : definition first with
      | none =>
        rw [body] at agree
        rw [Option.isSome_eq_false_iff.mp agree |> Option.isNone_iff_eq_none.mp]
        exact plain
      | some rule =>
        rw [body] at agree
        obtain ⟨rule', body'⟩ := Option.isSome_iff_exists.mp agree
        rw [body']
        exact bodied first rule rule' s1 word rest body body' words brace
  · generalize (if specifiers.qualifiers.isTypedef = true then none else definition first) = found
    generalize (if specifiers.qualifiers.isTypedef = true then none
      else definition' (e.image first)) = found'
    cases found <;> cases found' <;> exact plain

theorem localDeclaration_echoes (echoes : one.Echoes e two) :
    (localDeclaration one).EchoesAt e guard none 0 2 (localDeclaration two) state := by
  unfold localDeclaration
  refine .bind (declarationSpecifiers_echoes echoes) fun specifiers s1 _ => ?_
  exact declarationAfter_echoes echoes specifiers (fun _ => rfl) fun _ _ _ _ _ _ none =>
    nomatch none

end Rule

end OpenCLTree
