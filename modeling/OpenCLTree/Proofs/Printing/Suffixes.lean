import OpenCLTree.Proofs.Printing.Ends

namespace OpenCLTree

/-- A scene without type names, in which the nesting may grow by some levels. -/
structure Scene.Allows (scene : Scene) (levels : Nat) : Prop where
  untyped : ∀ name, scene.scopes.isType name = false
  room : scene.nesting + levels ≤ nestingLimit

theorem Scene.Allows.mono {scene : Scene} {many few : Nat} (allows : scene.Allows many)
    (fewer : few ≤ many) : scene.Allows few :=
  ⟨allows.untyped, Nat.le_trans (Nat.add_le_add_left fewer _) allows.room⟩

theorem Scene.Allows.deepen {scene : Scene} {levels : Nat} (allows : scene.Allows (levels + 1)) :
    scene.deepen.Allows levels :=
  ⟨allows.untyped, Nat.le_trans (by rw [Scene.deepen]; simp only; omega) allows.room⟩

theorem Scene.Allows.nested {scene : Scene} {levels : Nat} (allows : scene.Allows (levels + 1)) :
    scene.nesting < nestingLimit :=
  Nat.lt_of_lt_of_le (by omega) allows.room

/-- A rule that reads the tokens of an expression, in front of some others, as that expression. -/
abbrev Rule.Rebuilds (rule : Rule Node) (e : Expr) (scene : Scene) (rest : List Token) : Prop :=
  rule.Parses (scene.before (e.leaves ++ rest)) (scene.before rest) (·.unplaced = e.tree)

/-- A grammar whose rules read back all expressions below a height. -/
structure Grammar.Reparses (sub : Grammar) (height : Nat) : Prop where
  expression {e : Expr} {scene : Scene} {level : Level} {rest : List Token} :
    e.Valid → e.height < height → scene.Allows (2 * e.height + 1) → level ≤ e.level →
      level ≤ .cast → Follows level rest → (sub.expression level).Rebuilds e scene rest
  castExpression {e : Expr} {scene : Scene} {rest : List Token} :
    e.Valid → e.height < height → scene.Allows (2 * e.height + 1) → .cast ≤ e.level →
      Follows .cast rest → sub.castExpression.Rebuilds e scene rest
  unaryExpression {e : Expr} {scene : Scene} {rest : List Token} :
    e.Valid → e.height < height → scene.Allows (2 * e.height) → .unary ≤ e.level →
      Follows .cast rest → sub.unaryExpression.Rebuilds e scene rest
  typeDescriptor {scene : Scene} {rest : List Token} : 0 < height →
    (typeDescriptor sub).Parses
      (scene.before (.leaf (.keyword .int) "int" :: Punctuator.rightParen.leaf :: rest))
      (scene.before (Punctuator.rightParen.leaf :: rest)) (·.unplaced = intType)

/-- The type `int` in parentheses. -/
structure ParenthesizedType.IsInt (parts : ParenthesizedType) : Prop where
  opener : parts.opener.unplaced = Punctuator.leftParen.leaf
  type : parts.type.unplaced = intType
  closer : parts.closer.unplaced = Punctuator.rightParen.leaf

namespace Rule

variable {sub : Grammar} {height : Nat} {scene after : Scene} {rest : List Token} {e : Expr}

theorem parenthesizedExpression_rebuilds {inner : Expr} (reparses : sub.Reparses height)
    (valid : inner.Valid) (short : inner.height < height) (allows : scene.Allows (2 * inner.height + 2)) :
    (parenthesizedExpression sub).Rebuilds (.parenthesized inner) scene rest := by
  rw [Rebuilds, Expr.leaves_parenthesized, List.cons_append, List.append_assoc]
  refine (parses_expect rfl).bind fun opener atOpener => ?_
  have closes : Follows .comma (Punctuator.rightParen.leaf :: rest) := .mark (by decide)
  have inside := reparses.expression valid short allows.deepen (Level.comma_le _) (by decide) closes
  refine (inside.nested allows.nested).bind fun node same => ?_
  refine (parses_expect rfl).bind fun closer atCloser => parses_pure ?_
  simp [Node.bare, atOpener, same, atCloser]

theorem primaryExpression_name {text : String} :
    (primaryExpression sub).Rebuilds (.name text) scene rest := by
  rw [Rebuilds, Expr.leaves_name]
  refine parses_token.bind ?_
  rintro _ ⟨here, rfl, same⟩
  have kind : here.kind = .identifier := congrArg Token.kind same
  simp only [kind]
  exact parses_advance.bind fun _ _ => parses_pure (by simp [Node.ofToken, same, Node.bare])

theorem primaryExpression_number {text : String} :
    (primaryExpression sub).Rebuilds (.number text) scene rest := by
  rw [Rebuilds, Expr.leaves_number]
  refine parses_token.bind ?_
  rintro _ ⟨here, rfl, same⟩
  have kind : here.kind = .number := congrArg Token.kind same
  simp only [kind]
  exact parses_advance.bind fun _ _ => parses_pure (by simp [Node.ofToken, same, Node.bare])

theorem primaryExpression_parenthesized {inner : Expr}
    (parenthesized : (parenthesizedExpression sub).Rebuilds (.parenthesized inner) scene rest) :
    (primaryExpression sub).Rebuilds (.parenthesized inner) scene rest := by
  rw [Rebuilds, Expr.leaves_parenthesized] at *
  refine parses_token.bind ?_
  rintro _ ⟨here, rfl, same⟩
  have kind : here.kind = .punct .leftParen := congrArg Token.kind same
  simp only [kind]
  exact parenthesized

/-- A closing token is not taken for the beginning of an expression. -/
theorem parses_check_opening {kind : TokenKind} (valid : e.Valid) (closes : kind.opensExpression = false) :
    (check kind).Parses (scene.before (e.leaves ++ rest)) (scene.before (e.leaves ++ rest))
      (· = false) := by
  obtain ⟨first, head, opens⟩ := valid.opens
  refine (parses_check kind).mono ?_
  rintro _ rfl
  have other : first.kind ≠ kind := fun same => by simp [← same, opens] at closes
  simp [Scene.before, List.head?_append, Option.mem_def.mp head, other]

/-- The loop of `commaSeparated`, after some children. -/
def separatedFrom (closer : TokenKind) (item : Rule Node) : List Child → Rule (List Child) :=
  loop fun children => do
    if ← check closer then pure (.inr children)
    else
      let node ← item
      match ← accept (.punct .comma) with
      | some comma => pure (.inl (children ++ [node.toChild, comma.toChild]))
      | none => pure (.inr (children ++ [node.toChild]))

theorem separatedFrom_expressions (reparses : sub.Reparses height) {arguments : List Expr}
    (valid : ∀ argument ∈ arguments, argument.Valid)
    (tight : ∀ argument ∈ arguments, .assignment ≤ argument.level)
    (short : Expr.heightOfAll arguments < height)
    (allows : scene.Allows (2 * Expr.heightOfAll arguments + 1)) (children : List Child) :
    (separatedFrom (.punct .rightParen) (sub.expression .assignment) children).Parses
      (scene.before (Expr.leavesOfAll arguments ++ Punctuator.rightParen.leaf :: rest))
      (scene.before (Punctuator.rightParen.leaf :: rest))
      fun all => Node.unplacedChildren all = Node.unplacedChildren children ++ Expr.separated arguments := by
  fun_induction Expr.leavesOfAll arguments generalizing children with
  | case1 =>
    refine Parses.loop_stop ((parses_check _).bind ?_)
    rintro _ rfl
    exact parses_pure ⟨children, rfl, by simp⟩
  | case2 last =>
    have last_valid := valid last List.mem_cons_self
    simp only [Expr.heightOfAll, Nat.max_zero] at short allows
    have closes : Follows .assignment (Punctuator.rightParen.leaf :: rest) := .mark (by decide)
    refine Parses.loop_stop ((parses_check_opening last_valid rfl).bind ?_)
    rintro _ rfl
    refine (reparses.expression last_valid short allows (tight last List.mem_cons_self) (by decide) closes).bind
      fun node same => ?_
    refine (parses_accept_none (by rintro ⟨⟩)).bind ?_
    rintro _ rfl
    exact parses_pure ⟨_, rfl, by simp [same]⟩
  | case3 first others more ih =>
    obtain ⟨first_valid, others_valid⟩ := List.forall_mem_cons.mp valid
    obtain ⟨first_tight, others_tight⟩ := List.forall_mem_cons.mp tight
    rw [Expr.heightOfAll] at short allows
    rw [List.append_assoc]
    let later := Expr.leavesOfAll others ++ Punctuator.rightParen.leaf :: rest
    have goes_on : Follows .assignment (Punctuator.comma.leaf :: later) := .mark (by decide)
    refine Parses.loop_next (scene.before later) ((parses_check_opening first_valid rfl).bind ?_) ?_
    · rintro _ rfl
      refine (reparses.expression first_valid (by omega) (allows.mono (by omega)) first_tight (by decide)
        goes_on).bind fun node same => ?_
      refine (parses_accept rfl).bind ?_
      rintro _ ⟨comma, rfl, atComma⟩
      have tail := ih others_valid others_tight (by omega) (allows.mono (by omega))
        (children ++ [node.toChild, comma.toChild])
      refine parses_pure ⟨_, rfl, tail.mono fun all sameAll => ?_⟩
      cases others with
      | nil => exact (more rfl).elim
      | cons => simpa [same, atComma] using sameAll
    · simp only [later, Scene.before, List.length_append, List.length_cons]
      omega

theorem argumentList_rebuilds (reparses : sub.Reparses height) {arguments : List Expr}
    (valid : ∀ argument ∈ arguments, argument.Valid)
    (tight : ∀ argument ∈ arguments, .assignment ≤ argument.level)
    (short : Expr.heightOfAll arguments < height)
    (allows : scene.Allows (2 * Expr.heightOfAll arguments + 1)) :
    (argumentList sub).Parses
      (scene.before (Punctuator.leftParen.leaf :: (Expr.leavesOfAll arguments ++
        Punctuator.rightParen.leaf :: rest)))
      (scene.before rest) fun list => list.unplaced = .bare .argumentList
        (Punctuator.leftParen.leaf.toChild :: Expr.separated arguments ++
          [Punctuator.rightParen.leaf.toChild]) := by
  refine (parses_expect rfl).bind fun opener atOpener => ?_
  refine (separatedFrom_expressions reparses valid tight short allows []).bind fun children same => ?_
  refine (parses_expect rfl).bind fun closer atCloser => parses_pure ?_
  simp [Node.bare, atOpener, same, atCloser]

/-- The name of no built-in function is called. -/
theorem builtinCallee?_eq_none {callee : Node} (valid : e.Valid) (same : callee.unplaced = e.tree)
    (scopes : Scopes) : builtinCallee? scopes callee = none := by
  unfold builtinCallee?
  split
  · rename_i isName
    rw [← Node.kind_unplaced, same] at isName
    cases valid with
    | @name text _ noBuiltin =>
      have tokens := Node.childTokens_unplaced callee
      rw [same] at tokens
      obtain ⟨token, single, leaf⟩ := List.map_eq_singleton_iff.mp tokens.symm
      have spelling : token.text = text := congrArg Token.text leaf
      simp [single, spelling, noBuiltin]
    | infixed =>
      rw [Expr.tree] at isName
      split at isName <;> cases isName
    | @signed mark | @stepped mark =>
      rw [Expr.tree] at isName
      cases mark <;> cases isName
    | _ => cases isName
  · rfl

/-- What one suffix makes of an expression. -/
theorem suffixes_next {inner : Node} {before : Scene} {holds holds' : Node → Prop} (middle : Scene)
    (found : (suffix? sub inner).Parses before middle fun found => ∃ outer, found = some outer ∧ holds outer)
    (shorter : middle.ahead.length < before.ahead.length)
    (grown : ∀ outer, holds outer → (suffixes sub outer).Parses middle after holds') :
    (suffixes sub inner).Parses before after holds' := by
  refine Parses.loop_next middle (found.bind ?_) shorter
  rintro _ ⟨outer, rfl, here⟩
  exact parses_pure ⟨outer, rfl, grown outer here⟩

theorem suffix?_none {inner : Node} {level : Level} (follows : Follows level rest) :
    (suffix? sub inner).Parses (scene.before rest) (scene.before rest) (· = none) := by
  refine (parses_currentIn .suffix).bind fun found same => ?_
  cases found with
  | none => exact parses_pure rfl
  | some token =>
    obtain ⟨noSuffix, _⟩ := follows token.unplaced same.symm
    have noSuffix : suffixOperator? token.kind = none := noSuffix
    simp only [noSuffix]
    exact parses_pure rfl

theorem suffixes_stop {inner : Node} {level : Level} (follows : Follows level rest) :
    (suffixes sub inner).Parses (scene.before rest) (scene.before rest) (· = inner) := by
  refine Parses.loop_stop ((suffix?_none follows).bind ?_)
  rintro _ rfl
  exact parses_pure ⟨inner, rfl, rfl⟩

theorem suffix?_subscript {inner : Node} {array index : Expr} (reparses : sub.Reparses height)
    (same : inner.unplaced = array.tree) (valid : index.Valid) (short : index.height < height)
    (allows : scene.Allows (2 * index.height + 1)) :
    (suffix? sub inner).Parses
      (scene.before (Punctuator.leftBracket.leaf :: (index.leaves ++ Punctuator.rightBracket.leaf :: rest)))
      (scene.before rest)
      fun found => ∃ outer, found = some outer ∧ outer.unplaced = (Expr.subscript array index).tree := by
  refine (parses_tokenIn .suffix).bind ?_
  rintro _ ⟨here, rfl, atHere⟩
  have kind : here.kind = .punct .leftBracket := congrArg Token.kind atHere
  have suffix : suffixOperator? here.kind = some (.punct .leftBracket) := by rw [kind]; rfl
  simp only [suffix]
  refine Parses.some ?_
  refine (parses_expect rfl).bind fun opener atOpener => ?_
  have closes : Follows .comma (Punctuator.rightBracket.leaf :: rest) := .mark (by decide)
  refine (reparses.expression valid short allows (Level.comma_le _) (by decide) closes).bind
    fun node atIndex => ?_
  refine (parses_expect rfl).bind fun closer atCloser => parses_pure ?_
  simp [Node.bare, same, atOpener, atIndex, atCloser]

theorem suffix?_call {inner : Node} {callee : Expr} {arguments : List Expr} (reparses : sub.Reparses height)
    (same : inner.unplaced = callee.tree) (calleeValid : callee.Valid)
    (valid : ∀ argument ∈ arguments, argument.Valid)
    (tight : ∀ argument ∈ arguments, .assignment ≤ argument.level)
    (short : Expr.heightOfAll arguments < height)
    (allows : scene.Allows (2 * Expr.heightOfAll arguments + 1)) :
    (suffix? sub inner).Parses
      (scene.before (Punctuator.leftParen.leaf :: (Expr.leavesOfAll arguments ++
        Punctuator.rightParen.leaf :: rest)))
      (scene.before rest)
      fun found => ∃ outer, found = some outer ∧ outer.unplaced = (Expr.call callee arguments).tree := by
  refine (parses_tokenIn .suffix).bind ?_
  rintro _ ⟨here, rfl, atHere⟩
  have kind : here.kind = .punct .leftParen := congrArg Token.kind atHere
  have suffix : suffixOperator? here.kind = some (.punct .leftParen) := by rw [kind]; rfl
  simp only [suffix]
  refine Parses.some ?_
  refine (argumentList_rebuilds reparses valid tight short allows).bind fun list atList => ?_
  refine parses_scopes.bind fun scopes _ => ?_
  simp only [builtinCallee?_eq_none calleeValid same]
  exact parses_pure (by simp [Node.bare, same, atList])

theorem memberSuffix_parses {inner : Node} {record : Expr} {mark : Punctuator} {field : String}
    (same : inner.unplaced = record.tree) (isMember : mark = .dot ∨ mark = .arrow) :
    (memberSuffix inner).Parses (scene.before (mark.leaf :: .leaf .identifier field :: rest)) (scene.before rest)
      (·.unplaced = (Expr.member record mark field).tree) := by
  refine parses_token.bind ?_
  rintro _ ⟨here, rfl, atHere⟩
  have kind : here.kind = .punct mark := congrArg Token.kind atHere
  simp only [kind, TokenKind.punct.injEq, isMember, if_true]
  refine parses_advance.bind fun _ _ => ?_
  refine (parses_expect rfl).bind fun name atName => parses_pure ?_
  simp [Node.bare, Node.ofToken, same, atHere, atName]

theorem suffix?_member {inner : Node} {record : Expr} {mark : Punctuator} {field : String}
    (same : inner.unplaced = record.tree) (isMember : mark = .dot ∨ mark = .arrow) :
    (suffix? sub inner).Parses (scene.before (mark.leaf :: .leaf .identifier field :: rest)) (scene.before rest)
      fun found => ∃ outer, found = some outer ∧ outer.unplaced = (Expr.member record mark field).tree := by
  refine (parses_tokenIn .suffix).bind ?_
  rintro _ ⟨here, rfl, atHere⟩
  have kind : here.kind = .punct mark := congrArg Token.kind atHere
  have suffix : suffixOperator? here.kind = some (.punct mark) := by
    rw [kind]
    obtain rfl | rfl := isMember <;> rfl
  simp only [suffix]
  have member : (memberSuffix inner).Parses (scene.before (mark.leaf :: .leaf .identifier field :: rest))
      (scene.before rest) (·.unplaced = (Expr.member record mark field).tree) :=
    memberSuffix_parses same isMember
  obtain rfl | rfl := isMember <;> exact member.some

theorem suffix?_updated {inner : Node} {operand : Expr} {mark : Punctuator}
    (same : inner.unplaced = operand.tree) (listed : mark ∈ Punctuator.steps) :
    (suffix? sub inner).Parses (scene.before (mark.leaf :: rest)) (scene.before rest)
      fun found => ∃ outer, found = some outer ∧ outer.unplaced = (Expr.updated operand mark).tree := by
  refine (parses_tokenIn .suffix).bind ?_
  rintro _ ⟨here, rfl, atHere⟩
  have kind : here.kind = .punct mark := congrArg Token.kind atHere
  have isStep : mark = .increment ∨ mark = .decrement := by simpa [Punctuator.steps] using listed
  have suffix : suffixOperator? here.kind = some (.punct mark) := by
    rw [kind]
    obtain rfl | rfl := isStep <;> rfl
  simp only [suffix]
  obtain rfl | rfl := isStep <;>
    exact parses_advance.bind fun _ _ =>
      parses_pure ⟨_, rfl, by simp [Node.bare, same, atHere]⟩

/-- The suffixes of an expression are read one after the other behind its innermost operand. -/
theorem postfixExpression_from {holds : Node → Prop} (reparses : sub.Reparses height) (valid : e.Valid)
    (isSuffix : e.level = .suffix) (short : e.height ≤ height) (allows : scene.Allows (2 * e.height))
    (grown : ∀ node, node.unplaced = e.tree → (suffixes sub node).Parses (scene.before rest) after holds) :
    (postfixExpression sub).Parses (scene.before (e.leaves ++ rest)) after holds := by
  induction valid generalizing rest with
  | name => exact primaryExpression_name.bind grown
  | number => exact primaryExpression_number.bind grown
  | parenthesized inner =>
    rw [Expr.height] at short allows
    exact (primaryExpression_parenthesized
      (parenthesizedExpression_rebuilds reparses inner short allows)).bind grown
  | infixed listed isInfix =>
    exact absurd (isSuffix ▸ Expr.level_infixed_lt listed isInfix) (by decide)
  | conditional | signed | stepped | cast => cases isSuffix
  | subscript arraySuffix _ indexValid ih _ =>
    rw [Expr.height] at short allows
    simp only [Expr.leaves_subscript, List.append_assoc, List.cons_append, List.nil_append]
    refine ih arraySuffix (by omega) (allows.mono (by omega)) fun node same => ?_
    exact suffixes_next _ (suffix?_subscript reparses same indexValid (by omega)
      (allows.mono (by omega))) (by simp only [Scene.before, List.length_append, List.length_cons]; omega) grown
  | call calleeSuffix tight calleeValid valid ih _ =>
    rw [Expr.height] at short allows
    simp only [Expr.leaves_call, List.append_assoc, List.cons_append, List.nil_append]
    refine ih calleeSuffix (by omega) (allows.mono (by omega)) fun node same => ?_
    exact suffixes_next _ (suffix?_call reparses same calleeValid valid tight (by omega)
      (allows.mono (by omega))) (by simp only [Scene.before, List.length_append, List.length_cons]; omega) grown
  | member recordSuffix isMember _ _ ih =>
    rw [Expr.height] at short allows
    simp only [Expr.leaves_member, List.append_assoc, List.cons_append, List.nil_append]
    refine ih recordSuffix (by omega) (allows.mono (by omega)) fun node same => ?_
    exact suffixes_next _ (suffix?_member same isMember) (by simp only [Scene.before, List.length_cons]; omega) grown
  | updated operandSuffix listed _ ih =>
    rw [Expr.height] at short allows
    simp only [Expr.leaves_updated, List.append_assoc, List.cons_append, List.nil_append]
    refine ih operandSuffix (by omega) (allows.mono (by omega)) fun node same => ?_
    exact suffixes_next _ (suffix?_updated same listed) (by simp only [Scene.before, List.length_cons]; omega) grown

theorem postfixExpression_rebuilds (reparses : sub.Reparses height) (valid : e.Valid)
    (isSuffix : e.level = .suffix) (short : e.height ≤ height) (allows : scene.Allows (2 * e.height))
    (follows : Follows .cast rest) : (postfixExpression sub).Rebuilds e scene rest := by
  refine postfixExpression_from reparses valid isSuffix short allows fun node same => ?_
  refine (suffixes_stop follows).mono ?_
  rintro _ rfl
  exact same

theorem prefixed_rebuilds {operand : Expr} {mark : Punctuator} {token : Token} {rule : Rule Node}
    (atMark : token.unplaced = mark.leaf) (parses : rule.Rebuilds operand scene rest) :
    (do
      advance
      let node ← rule
      pure (prefixed mark.prefixKind token node)).Rebuilds (.prefixed mark operand) scene rest := by
  rw [Rebuilds, Expr.leaves_prefixed]
  refine parses_advance.bind fun _ _ => parses.bind fun node same => parses_pure ?_
  simp [prefixed, Node.bare, atMark, same]

theorem unaryExpression_signed {mark : Punctuator} {operand : Expr} (listed : mark ∈ Punctuator.signs)
    (parses : sub.castExpression.Rebuilds operand scene rest) :
    (unaryExpression sub).Rebuilds (.prefixed mark operand) scene rest := by
  simp only [Punctuator.signs, List.mem_cons, List.not_mem_nil, or_false] at listed
  rw [Rebuilds, Expr.leaves_prefixed]
  refine parses_token.bind ?_
  rintro _ ⟨here, rfl, atHere⟩
  have kind : here.kind = .punct mark := congrArg Token.kind atHere
  have operator : unaryOperator? here.kind = some (.punct mark) := by
    rw [kind]
    rcases listed with rfl | rfl | rfl | rfl | rfl | rfl <;> rfl
  simp only [operator]
  have whole := prefixed_rebuilds atHere parses
  rw [Rebuilds, Expr.leaves_prefixed] at whole
  rcases listed with rfl | rfl | rfl | rfl | rfl | rfl <;> exact whole

theorem unaryExpression_stepped {mark : Punctuator} {operand : Expr} (listed : mark ∈ Punctuator.steps)
    (parses : (nested sub.unaryExpression).Rebuilds operand scene rest) :
    (unaryExpression sub).Rebuilds (.prefixed mark operand) scene rest := by
  simp only [Punctuator.steps, List.mem_cons, List.not_mem_nil, or_false] at listed
  rw [Rebuilds, Expr.leaves_prefixed]
  refine parses_token.bind ?_
  rintro _ ⟨here, rfl, atHere⟩
  have kind : here.kind = .punct mark := congrArg Token.kind atHere
  have operator : unaryOperator? here.kind = some (.punct mark) := by
    rw [kind]
    rcases listed with rfl | rfl <;> rfl
  simp only [operator]
  have whole := prefixed_rebuilds atHere parses
  rw [Rebuilds, Expr.leaves_prefixed] at whole
  rcases listed with rfl | rfl <;> exact whole

theorem unaryExpression_postfix (valid : e.Valid) (isSuffix : e.level = .suffix)
    (parses : (postfixExpression sub).Rebuilds e scene rest) :
    (unaryExpression sub).Rebuilds e scene rest := by
  obtain ⟨first, head, noPrefix⟩ := valid.opens_postfix isSuffix
  obtain ⟨more, leaves⟩ := List.head?_eq_some_iff.mp head
  rw [Rebuilds, leaves, List.cons_append] at parses ⊢
  refine parses_token.bind ?_
  rintro _ ⟨here, rfl, rfl⟩
  have noPrefix : unaryOperator? here.kind = none := noPrefix
  simp only [noPrefix]
  exact parses

/-- Prefix operators with their operands, and postfix expressions, are read back. -/
theorem unaryExpression_rebuilds (reparses : sub.Reparses height) (valid : e.Valid)
    (tight : .unary ≤ e.level) (short : e.height ≤ height) (allows : scene.Allows (2 * e.height))
    (follows : Follows .cast rest) : (unaryExpression sub).Rebuilds e scene rest := by
  by_cases isSuffix : e.level = .suffix
  · exact unaryExpression_postfix valid isSuffix
      (postfixExpression_rebuilds reparses valid isSuffix short allows follows)
  cases valid with
  | infixed listed isInfix =>
    exact absurd (Level.lt_of_le_of_lt tight (Expr.level_infixed_lt listed isInfix)) (by decide)
  | conditional => exact absurd tight (by decide : ¬ Level.unary ≤ .conditional)
  | cast => exact absurd tight (by decide : ¬ Level.unary ≤ .cast)
  | signed listed operandTight operandValid =>
    rw [Expr.height] at short allows
    exact unaryExpression_signed listed (reparses.castExpression operandValid
      (Nat.lt_of_succ_le short) (allows.mono (by omega)) operandTight follows)
  | @stepped _ operand listed operandTight operandValid =>
    rw [Expr.height] at short allows
    have room : scene.Allows (2 * operand.height + 1) := allows.mono (by omega)
    exact unaryExpression_stepped listed ((reparses.unaryExpression operandValid
      (Nat.lt_of_succ_le short) room.deepen operandTight follows).nested room.nested)
  | _ => exact absurd rfl isSuffix

/-- A parenthesis in front of an expression is no cast. -/
theorem leadingType_none (valid : e.Valid) (tight : .unary ≤ e.level) (allows : scene.Allows 0) :
    (leadingType sub).Parses (scene.before (e.leaves ++ rest)) (scene.before (e.leaves ++ rest))
      (· = none) := by
  refine (parses_check _).bind ?_
  rintro _ rfl
  by_cases opener : (e.leaves ++ rest).head?.map (·.kind) = some (.punct .leftParen)
  · obtain ⟨second, next, opens⟩ := valid.opens_inner tight rest fun first head => by
      simpa [List.head?_append, Option.mem_def.mp head] using opener
    simp only [Scene.before, opener, beq_self_eq_true, if_true]
    refine (parses_startsTypeNameAt 1).bind ?_
    rintro _ rfl
    have noType := Scopes.startsTypeName_of_opens allows.untyped opens
    simp only [Option.mem_def.mp next, Option.any_some, noType]
    exact parses_pure rfl
  · simp only [Scene.before, beq_iff_eq, opener, if_false]
    exact parses_pure rfl

theorem leadingType_some (reparses : sub.Reparses height) (some : 0 < height) :
    (leadingType sub).Parses
      (scene.before (Punctuator.leftParen.leaf :: .leaf (.keyword .int) "int" :: Punctuator.rightParen.leaf :: rest))
      (scene.before rest) fun found => ∃ parts, found = Option.some parts ∧ parts.IsInt := by
  refine (parses_check _).bind ?_
  rintro _ rfl
  refine (parses_startsTypeNameAt 1).bind ?_
  rintro _ rfl
  refine parses_snapshot.bind fun start _ => ?_
  have inside : (parenthesizedType sub).Parses
      (scene.before (Punctuator.leftParen.leaf :: .leaf (.keyword .int) "int" :: Punctuator.rightParen.leaf :: rest))
      (scene.before rest) ParenthesizedType.IsInt := by
    refine (parses_expect rfl).bind fun opener atOpener => ?_
    refine (reparses.typeDescriptor some).bind fun type atType => ?_
    refine (parses_accept rfl).bind ?_
    rintro _ ⟨closer, rfl, atCloser⟩
    exact parses_pure ⟨atOpener, atType, atCloser⟩
  refine inside.attempt.bind ?_
  rintro _ ⟨parts, rfl, here⟩
  exact parses_pure ⟨parts, rfl, here⟩

theorem isPlainVectorType_eq_false {parts : ParenthesizedType} (isInt : parts.IsInt) :
    parts.type.isPlainVectorType = false := by
  have atType := Node.fieldNode?_unplaced parts.type .type
  rw [isInt.type] at atType
  obtain ⟨inner, found, same⟩ := Option.map_eq_some_iff.mp atType.symm
  have kind : inner.kind = .primitiveType := by rw [← Node.kind_unplaced, same]; rfl
  simp [Node.isPlainVectorType, found, kind]

/-- Behind `( int )` the operand of a cast follows. -/
theorem afterParenthesizedType_rebuilds {operand : Expr} {parts : ParenthesizedType}
    (valid : operand.Valid) (isInt : parts.IsInt)
    (parses : sub.castExpression.Rebuilds operand scene rest) :
    (afterParenthesizedType sub parts).Parses (scene.before (operand.leaves ++ rest)) (scene.before rest)
      (·.unplaced = (Expr.cast operand).tree) := by
  have cast : (afterParenthesizedType.cast sub parts).Parses (scene.before (operand.leaves ++ rest))
      (scene.before rest) (·.unplaced = (Expr.cast operand).tree) := by
    refine parses.bind fun value same => parses_pure ?_
    simp [ParenthesizedType.children, isInt.opener, isInt.type, isInt.closer, same, Node.bare]
  obtain ⟨first, head, opens⟩ := valid.opens
  have kind : (scene.before (operand.leaves ++ rest)).ahead.head?.map (·.kind) = some first.kind := by
    simp [Scene.before, List.head?_append, Option.mem_def.mp head]
  refine parses_currentKind.bind ?_
  rintro _ rfl
  rw [kind]
  split
  · rename_i brace
    rw [Option.some.inj brace] at opens
    cases opens
  · rw [isPlainVectorType_eq_false isInt]
    exact cast
  · exact cast

/-- Casts, and whatever binds tighter, are read back. -/
theorem castExpression_rebuilds (reparses : sub.Reparses height) (valid : e.Valid)
    (tight : .cast ≤ e.level) (short : e.height ≤ height) (allows : scene.Allows (2 * e.height + 1))
    (follows : Follows .cast rest) : (castExpression sub).Rebuilds e scene rest := by
  by_cases isUnary : .unary ≤ e.level
  · refine Parses.nested allows.nested ?_
    refine (leadingType_none valid isUnary (allows.deepen.mono (by omega))).bind ?_
    rintro _ rfl
    exact unaryExpression_rebuilds reparses valid isUnary short allows.deepen follows
  cases valid with
  | @cast operand operandTight operandValid =>
    rw [Expr.height] at short allows
    rw [Rebuilds, Expr.leaves_cast]
    refine Parses.nested allows.nested ?_
    have inner := reparses.castExpression operandValid (Nat.lt_of_succ_le short)
      (allows.deepen.mono (by omega)) operandTight follows
    refine (leadingType_some reparses (by omega)).bind ?_
    rintro _ ⟨parts, rfl, atParts⟩
    exact afterParenthesizedType_rebuilds operandValid atParts inner
  | infixed listed isInfix =>
    exact absurd (Level.lt_of_le_of_lt tight (Expr.level_infixed_lt listed isInfix)) (by decide)
  | conditional => exact absurd tight (by decide : ¬ Level.cast ≤ .conditional)
  | signed | stepped => exact absurd (Level.le_refl .unary) isUnary
  | _ => exact absurd (Level.le_suffix .unary) isUnary

end Rule

end OpenCLTree
