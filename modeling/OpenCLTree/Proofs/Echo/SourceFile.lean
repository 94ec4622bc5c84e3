import OpenCLTree.Proofs.Echo.Statement
import OpenCLTree.Proofs.Grammar.SourceFile

namespace OpenCLTree

section Floor

variable {e : Echo} {room : Nat} {state other after : GrammarState}

theorem Node.floor_le_make (kind : NodeKind) {children : List Child} (nonempty : children ≠ [])
    (above : ∀ child ∈ children, e.floor ≤ (child.mapTokens e.token).span.start) :
    e.floor ≤ ((make kind children).mapTokens e.token).span.start := by
  rw [mapTokens_make]
  have atFirst := List.head?_eq_some_head nonempty
  have atLast := List.getLast?_eq_some_getLast nonempty
  have first := above _ (List.head_mem nonempty)
  have last := above _ (List.getLast_mem nonempty)
  simp only [make, span, Child.extent, List.head?_map, List.getLast?_map, atFirst, atLast,
    Option.map_some, Span.cover]
  exact Nat.le_min.mpr ⟨first, last⟩

/-- Whatever is read lies, in the second run, above the floor. -/
theorem ReadsWith.floor_le {remarks : Prop} {children : List Child}
    (reads : ReadsWith remarks state children after) :
    ∀ child ∈ children, e.floor ≤ (child.mapTokens e.token).span.start := by
  have leaves (tokens : List Token) :
      ∀ child ∈ tokens.map Token.toChild, e.floor ≤ (child.mapTokens e.token).span.start :=
    List.forall_mem_map.mpr fun leaf _ => e.above leaf
  induction reads with
  | nothing | declared | remarked => exact List.forall_mem_nil _
  | join _ _ ihFront ihBack => exact List.forall_mem_append.mpr ⟨ihFront, ihBack⟩
  | token => exact leaves [_]
  | @node _ _ kind _ composes _ ih =>
    refine List.forall_mem_singleton.mpr (Node.floor_le_make kind composes.nonempty fun child member => ?_)
    have above := ih child.bare (List.mem_map_of_mem member)
    cases child <;> exact above
  | duplicate =>
    exact List.forall_mem_singleton.mpr (Node.floor_le_make .error (List.cons_ne_nil _ _) (leaves [_]))
  | recovered _ _ _ nonempty =>
    refine List.forall_mem_singleton.mpr (Node.floor_le_make .error ?_ (leaves _))
    exact fun none => nonempty (List.map_eq_nil_iff.mp none)
  | inScope _ ih | deeper _ ih => exact ih

/-- Whether the declarators read anywhere behind a state lie above the floor. -/
def Grammar.Declares (one : Grammar) (e : Echo) (state : GrammarState) : Prop :=
  ∀ other node after, state.Trails 1 other → requiredDeclarator one .named other = .done node after →
      e.floor ≤ (node.mapTokens e.token).span.start

theorem GrammarState.Fits.trail {gain : Nat} (fits : state.Fits room)
    (trails : state.Trails gain other) : other.Fits room where
  lawful :=
    { mode := trails.mode.trans fits.lawful.mode
      accessor := fun word member => fits.lawful.accessor word (trails.rest.subset member) }
  fewer := Nat.lt_of_le_of_lt (Nat.le_trans (Nat.le_add_right _ _) trails.fewer) fits.fewer

theorem Grammar.Serves.declares {one : Grammar} (serves : one.Serves room)
    (fits : state.Fits (room + 1)) : one.Declares e state := by
  intro other node after trails run
  have fewer : other.remaining < room :=
    Nat.lt_of_lt_of_le trails.fewer (Nat.le_of_lt_succ fits.fewer)
  have reads : (requiredDeclarator one .named).Builds other :=
    Rule.requiredDeclarator_builds serves ⟨(fits.trail trails).lawful, fewer⟩
  unfold Rule.Builds Rule.Meets at reads
  rw [run] at reads
  exact reads.floor_le node.toChild (List.mem_singleton_self _)

end Floor

namespace Rule

variable {e : Echo} {one two : Grammar} {guard : Guard} {state : GrammarState}

/-- Declares some names one after another. -/
def declareAll (names : List String) (state : GrammarState) : GrammarState :=
  { state with scopes := names.foldl (·.declare · .ordinary) state.scopes }

theorem declareAll_cons (name : String) (names : List String) (state : GrammarState) :
    declareAll (name :: names) state =
      declareAll names { state with scopes := state.scopes.declare name .ordinary } := rfl

theorem trails_declareAll (names : List String) (state : GrammarState) :
    state.Trails 0 (declareAll names state) := by
  induction names generalizing state with
  | nil => exact .refl state
  | cons name names ih =>
    rw [declareAll_cons]
    refine GrammarState.Trails.trans ?_ (ih _)
    exact { GrammarState.Trails.refl state with scopes := Scopes.since_declare _ _ _ }

theorem agrees_declareAll (names : List String) {state other : GrammarState}
    (agrees : e.Agrees state other) :
    e.Agrees (declareAll names state) (declareAll names other) := by
  induction names generalizing state other with
  | nil => exact agrees
  | cons name names ih => exact ih (agrees.declare name .ordinary)

theorem declareAll_echoes (names : List String) :
    (modify (declareAll names)).EchoesAt e guard guard 0 0 (modify (declareAll names)) state :=
  .modify (trails_declareAll names) (trails_declareAll names) rfl fun _ agrees =>
    agrees_declareAll names agrees

theorem definitionAfter_echoes (echoes : one.Echoes e two) (kind : NodeKind)
    (specifiers : Specifiers) (declared : Declared) :
    (definitionAfter one kind specifiers declared).EchoesAt e none none 0 1
      (definitionAfter two kind (e.image specifiers) (e.image declared)) state := by
  have body (state : GrammarState) :
      (modify (declareAll declared.declarator.parameterNames) >>= fun _ =>
        compoundStatement one).EchoesAt e none none 0 1
      (modify (declareAll declared.declarator.parameterNames) >>= fun _ =>
        compoundStatement two) state :=
    .bind (declareAll_echoes _) fun _ s1 _ =>
      (compoundStatement_echoes echoes).weaken (Nat.le_refl 0) (by omega)
  unfold definitionAfter
  refine .bind (declareName_echoes declared.declarator .ordinary) fun _ s1 _ => ?_
  rw [show (e.image declared).declarator.parameterNames = declared.declarator.parameterNames from
    Node.parameterNames_mapTokens _ _ e.text]
  refine .bind (.inScope (body _)) fun node s2 _ => ?_
  exact .ofValue (by simp [Declared.children])

theorem kernelAfter_echoes (echoes : one.Echoes e two) (specifiers : Specifiers)
    (plain : guard = none ∨ e.flat = true)
    (above : ∀ node after, requiredDeclarator one .named state = .done node after →
      e.floor ≤ (node.mapTokens e.token).span.start) :
    (kernelAfter one specifiers).EchoesAt e guard none 0 1
      (kernelAfter two (e.image specifiers)) state := by
  have declares (declared : Declared) (state : GrammarState) :
      (kernelAfter.asDeclaration one specifiers declared).EchoesAt e guard none 0 1
        (kernelAfter.asDeclaration two (e.image specifiers) (e.image declared)) state :=
    .give (declarationRest_echoes echoes .ordinary declared) fun rest => by simp
  unfold kernelAfter
  refine .bind (requiredDeclarator_echoes echoes) fun declarator s1 run => ?_
  have late {error : ParseError} (span : error.span = (declarator.mapTokens e.token).span) :
      e.Late error := fun _ _ => span ▸ above declarator s1 run
  simp only [Echo.image_node, Node.declaresFunction_mapTokens]
  split
  · refine .bind (attributes_echoes echoes) fun attributes s2 _ => ?_
    refine .check (fun word rest words brace => ?_) fun _ => ?_
    · rcases plain with rfl | flat
      · exact definitionAfter_echoes echoes _ specifiers ⟨declarator, attributes⟩
      · exact .noBrace flat words brace
    · exact .bind (.report _ (late rfl)) fun _ s3 _ => declares ⟨declarator, attributes⟩ s3
  · refine .bind (.report _ (late rfl)) fun _ s2 _ => ?_
    refine .bind (attributes_echoes echoes) fun attributes s3 _ => ?_
    exact declares ⟨declarator, attributes⟩ s3

theorem externalDeclaration_echoes (echoes : one.Echoes e two)
    (plain : guard = none ∨ e.flat = true) (above : one.Declares e state) :
    (externalDeclaration one).EchoesAt e guard none 0 1 (externalDeclaration two) state := by
  intro sound
  have first : (declarationSpecifiers one).EchoesAt e guard guard 1 1 (declarationSpecifiers two)
      state := declarationSpecifiers_echoes echoes
  have trails (specifiers : Specifiers) (s1 : GrammarState)
      (run : declarationSpecifiers one state = .done specifiers s1) : state.Trails 1 s1 :=
    (first.done sound run).1
  suffices echo : (externalDeclaration one).EchoesAt e guard none 0 1 (externalDeclaration two)
      state from echo sound
  unfold externalDeclaration
  refine .bind first.anyGain fun specifiers s1 run => ?_
  simp only [Echo.image_specifiers, Echo.isKernel_image]
  split
  · exact kernelAfter_echoes echoes specifiers plain fun node after =>
      above s1 node after (trails specifiers s1 run)
  · refine declarationAfter_echoes echoes specifiers (fun declared => ?_)
      fun declared body body' s word rest atBody atBody' words brace => ?_
    · simp only [Echo.image_declared, Echo.image_node, Node.declaresFunction_mapTokens]
      split <;> rfl
    · simp only [Echo.image_declared, Echo.image_node, Node.declaresFunction_mapTokens] at atBody'
      split at atBody
      · rename_i isFunction
        rw [if_pos isFunction] at atBody'
        cases atBody
        cases atBody'
        rcases plain with rfl | flat
        · exact definitionAfter_echoes echoes _ specifiers declared
        · exact .noBrace flat words brace
      · cases atBody

theorem topLevelItem_echoes (echoes : one.Echoes e two) (plain : guard = none ∨ e.flat = true)
    (above : one.Declares e state) :
    (topLevelItem one).EchoesAt e guard none 0 1 (topLevelItem two) state := by
  have item : (externalDeclaration one).EchoesAt e guard none 0 1 (externalDeclaration two) state :=
    externalDeclaration_echoes echoes plain above
  unfold topLevelItem
  refine .currentKind (fun _ => item) fun word rest words => ?_
  have line {rule : Rule Node} (echoes : rule.EchoesAt e none none 0 1 rule state)
      (marks : word.token.kind.turn = .marks) : rule.EchoesAt e guard none 0 1 rule state := by
    rcases plain with rfl | flat
    · exact echoes
    · exact fun sound => absurd marks (sound.flat flat word (words ▸ List.mem_cons_self)).2
  split
  · rename_i kind
    exact line pragmaLine_echoes (Option.some.inj kind ▸ rfl)
  · rename_i kind
    exact line directiveLine_echoes (Option.some.inj kind ▸ rfl)
  · exact item

end Rule

namespace Grammar

open Rule

variable {e : Echo} {one two : Grammar}

theorem Echoes.calling (echoes : one.Echoes e two) : one.calling.Echoes e two.calling where
  expression _ _ level := expression_echoes echoes level
  castExpression _ _ := castExpression_echoes echoes
  unaryExpression _ _ := unaryExpression_echoes echoes
  unaryPairs _ := unaryExpression_pairs echoes
  initializer _ _ := initializer_echoes echoes
  typeSpecifier _ _ := typeSpecifier_echoes echoes
  declarationSpecifiers _ _ := declarationSpecifiers_echoes echoes
  declarator _ _ _ := declarator_echoes echoes
  statement _ := statement_echoes echoes

theorem exhausted_echoes (e : Echo) (two : Grammar) : exhausted.Echoes e two where
  expression _ _ _ _ := trivial
  castExpression _ _ _ := trivial
  unaryExpression _ _ _ := trivial
  unaryPairs _ _ _ _ _ _ _ _ run := nomatch run
  initializer _ _ _ := trivial
  typeSpecifier _ _ _ := trivial
  declarationSpecifiers _ _ _ := trivial
  declarator _ _ _ _ := trivial
  statement _ _ := trivial

/-- The second run may have room for more calls. -/
theorem ofDepth_echoes (e : Echo) {depth depth' : Nat} (enough : depth ≤ depth') :
    (ofDepth depth).Echoes e (ofDepth depth') := by
  induction depth generalizing depth' with
  | zero => exact exhausted_echoes e _
  | succ depth ih =>
    obtain ⟨more, rfl⟩ := Nat.exists_eq_add_of_le' enough
    exact (ih (Nat.le_add_left depth more)).calling

end Grammar

end OpenCLTree
