import OpenCLTree.Proofs.Printing.Declarations
import OpenCLTree.Proofs.Printing.Suffixes

namespace OpenCLTree

/-- The question mark among the operators. -/
def Operator.question : Operator :=
  ⟨.punct .question, "?", .conditional, .right, .infixOp⟩

theorem Operator.question_mem : question ∈ table := by
  decide

namespace Rule

variable {sub : Grammar} {height : Nat} {scene after : Scene} {rest : List Token} {e : Expr} {least : Level}

/-- The loop of `expression`, from the first operand on. -/
def extensions (sub : Grammar) (least : Level) : Node → Rule Node :=
  loop fun left => do
    match ← extend? sub least left with
    | some larger => pure (.inl larger)
    | none => pure (.inr left)

theorem expression_eq (sub : Grammar) (least : Level) :
    expression sub least = castExpression sub >>= extensions sub least :=
  rfl

theorem extensions_next {left : Node} {before : Scene} {holds holds' : Node → Prop} (middle : Scene)
    (found : (extend? sub least left).Parses before middle fun found =>
      ∃ larger, found = some larger ∧ holds larger)
    (shorter : middle.ahead.length < before.ahead.length)
    (grown : ∀ larger, holds larger → (extensions sub least larger).Parses middle after holds') :
    (extensions sub least left).Parses before after holds' := by
  refine Parses.loop_next middle (found.bind ?_) shorter
  rintro _ ⟨larger, rfl, here⟩
  exact parses_pure ⟨larger, rfl, grown larger here⟩

theorem extend?_none {left : Node} (follows : Follows least rest) :
    (extend? sub least left).Parses (scene.before rest) (scene.before rest) (· = none) := by
  refine parses_current.bind fun found same => ?_
  cases found with
  | none => exact parses_pure rfl
  | some token =>
    obtain ⟨_, looser⟩ := follows token.unplaced same.symm
    cases infix_ : Operator.find? .infixOp token.kind with
    | none =>
      simp only [infix_]
      exact parses_pure rfl
    | some operator =>
      simp only [infix_, looser operator infix_, if_true]
      exact parses_pure rfl

theorem extensions_stop {left : Node} (follows : Follows least rest) :
    (extensions sub least left).Parses (scene.before rest) (scene.before rest) (· = left) := by
  refine Parses.loop_stop ((extend?_none follows).bind ?_)
  rintro _ rfl
  exact parses_pure ⟨left, rfl, rfl⟩

theorem infixed_unplaced {operator : Operator} {left right : Expr} {leftNode rightNode : Node} {token : Token}
    (atLeft : leftNode.unplaced = left.tree) (atToken : token.unplaced = operator.leaf)
    (atRight : rightNode.unplaced = right.tree) :
    (infixed operator.level leftNode token rightNode).unplaced = (Expr.infixed operator left right).tree := by
  cases level : operator.level <;>
    simp [infixed, Node.bare, level, atLeft, atToken, atRight]

theorem extend?_infixed {node : Node} {operator : Operator} {left right : Expr} (reparses : sub.Reparses height)
    (listed : operator ∈ Operator.table) (isInfix : operator.fixity = .infixOp)
    (simple : operator.level ≠ .conditional) (binds : operator.Binds left.level right.level)
    (atLeft : node.unplaced = left.tree) (valid : right.Valid) (short : right.height < height)
    (allows : scene.Allows (2 * right.height + 1)) (level : least ≤ operator.level)
    (follows : Follows operator.rightLevel rest) :
    (extend? sub least node).Parses (scene.before (operator.leaf :: (right.leaves ++ rest))) (scene.before rest)
      fun found => ∃ larger, found = some larger ∧ larger.unplaced = (Expr.infixed operator left right).tree := by
  obtain ⟨found, _, belowCast⟩ := Operator.find?_of_mem operator listed isInfix
  refine parses_token.bind ?_
  rintro _ ⟨here, rfl, atHere⟩
  have kind : here.kind = operator.token := congrArg Token.kind atHere
  simp only [kind, found, Level.not_lt.mpr level, if_false, simple]
  refine parses_advance.bind fun _ _ => ?_
  refine (reparses.expression valid short allows binds.rightLevel_le
    (Operator.rightLevel_le_cast listed isInfix) follows).bind fun rightNode atRight => ?_
  exact parses_pure ⟨_, rfl, infixed_unplaced atLeft atHere atRight⟩

theorem extend?_conditional {node : Node} {condition consequence alternative : Expr}
    (reparses : sub.Reparses height) (atCondition : node.unplaced = condition.tree)
    (consequenceValid : consequence.Valid) (alternativeValid : alternative.Valid)
    (consequenceShort : consequence.height < height) (alternativeShort : alternative.height < height)
    (consequenceAllows : scene.Allows (2 * consequence.height + 1))
    (alternativeAllows : scene.Allows (2 * alternative.height + 1))
    (tight : .conditional ≤ alternative.level) (level : least ≤ .conditional)
    (follows : Follows .conditional rest) :
    (extend? sub least node).Parses
      (scene.before (Punctuator.question.leaf :: (consequence.leaves ++
        Punctuator.colon.leaf :: (alternative.leaves ++ rest))))
      (scene.before rest) fun found => ∃ larger, found = some larger ∧
        larger.unplaced = (Expr.conditional condition consequence alternative).tree := by
  refine parses_token.bind ?_
  rintro _ ⟨here, rfl, atHere⟩
  have kind : here.kind = .punct .question := congrArg Token.kind atHere
  have found : Operator.find? .infixOp here.kind = some .question := by
    rw [kind]
    rfl
  have isConditional : Operator.question.level = .conditional := rfl
  simp only [found, isConditional, Level.not_lt.mpr level, if_false, if_true]
  refine parses_advance.bind fun _ _ => Parses.some ?_
  have middle : Follows .comma (Punctuator.colon.leaf :: (alternative.leaves ++ rest)) := .mark (by decide)
  refine (reparses.expression consequenceValid consequenceShort consequenceAllows (Level.comma_le _)
    (by decide) middle).bind fun consequenceNode atConsequence => ?_
  refine (parses_expect rfl).bind fun colon atColon => ?_
  refine (reparses.expression alternativeValid alternativeShort alternativeAllows tight
    (by decide) follows).bind fun alternativeNode atAlternative => parses_pure ?_
  simp [Node.bare, atCondition, atHere, atConsequence, atColon, atAlternative]

/-- The operators of an expression are taken one after the other behind its leftmost operand. -/
theorem expression_from {holds : Node → Prop} (reparses : sub.Reparses height) (valid : e.Valid)
    (short : e.height ≤ height) (allows : scene.Allows (2 * e.height + 1)) (level : least ≤ e.level)
    (follows : Follows e.lastLevel rest)
    (grown : ∀ node, node.unplaced = e.tree →
      (extensions sub least node).Parses (scene.before rest) after holds) :
    (expression sub least).Parses (scene.before (e.leaves ++ rest)) after holds := by
  have whole := valid
  induction valid generalizing rest with
  | infixed listed isInfix simple binds leftValid rightValid ih _ =>
    rw [Expr.height] at short allows
    simp only [Expr.leaves_infixed, List.append_assoc, List.cons_append]
    have leftFollows := leftValid.level_lt_last listed isInfix binds
    refine ih (by omega) (allows.mono (by omega)) (Level.le_trans level binds.le_left)
      (Operator.follows_leaf listed isInfix leftFollows) (fun node same => ?_) leftValid
    exact extensions_next _ (extend?_infixed reparses listed isInfix simple binds same rightValid (by omega)
      (allows.mono (by omega)) level follows) (by simp only [Scene.before, List.length_append, List.length_cons]; omega) grown
  | conditional above tight conditionValid consequenceValid alternativeValid ih _ _ =>
    rw [Expr.height] at short allows
    simp only [Expr.leaves_conditional, List.append_assoc, List.cons_append]
    have conditionFollows :=
      conditionValid.level_lt_last Operator.question_mem rfl ⟨above, Level.le_refl .conditional⟩
    refine ih (by omega) (allows.mono (by omega)) (Level.le_trans level (Level.le_of_lt above))
      (Operator.follows_leaf Operator.question_mem rfl conditionFollows) (fun node same => ?_) conditionValid
    exact extensions_next _ (extend?_conditional reparses same consequenceValid alternativeValid
      (by omega) (by omega) (allows.mono (by omega)) (allows.mono (by omega)) tight level follows)
      (by simp only [Scene.before, List.length_append, List.length_cons]; omega) grown
  | _ =>
    rw [expression_eq]
    refine (castExpression_rebuilds reparses whole ?_ short allows follows).bind grown
    simp only [Expr.level]
    decide

/-- An expression is read back at every level that it reaches, wherever no suffix and no
operator of that level follows. -/
theorem expression_rebuilds (reparses : sub.Reparses height) (valid : e.Valid)
    (short : e.height ≤ height) (allows : scene.Allows (2 * e.height + 1)) (level : least ≤ e.level)
    (loose : least ≤ .cast) (follows : Follows least rest) :
    (expression sub least).Rebuilds e scene rest := by
  refine expression_from reparses valid short allows level (valid.follows_last follows level loose)
    fun node same => ?_
  refine (extensions_stop follows).mono ?_
  rintro _ rfl
  exact same

end Rule

namespace Grammar

theorem exhausted_reparses : exhausted.Reparses 0 where
  expression _ short := absurd short (Nat.not_lt_zero _)
  castExpression _ short := absurd short (Nat.not_lt_zero _)
  unaryExpression _ short := absurd short (Nat.not_lt_zero _)
  typeDescriptor short := absurd short (Nat.not_lt_zero _)

theorem Reparses.calling {sub : Grammar} {height : Nat} (reparses : sub.Reparses height) :
    sub.calling.Reparses (height + 1) where
  expression valid short allows level loose follows :=
    Rule.expression_rebuilds reparses valid (Nat.le_of_lt_succ short) allows level loose follows
  castExpression valid short allows tight follows :=
    Rule.castExpression_rebuilds reparses valid tight (Nat.le_of_lt_succ short) allows follows
  unaryExpression valid short allows tight follows :=
    Rule.unaryExpression_rebuilds reparses valid tight (Nat.le_of_lt_succ short) allows follows
  typeDescriptor _ := Rule.typeDescriptor_calling

theorem ofDepth_reparses (depth : Nat) : (ofDepth depth).Reparses depth := by
  induction depth with
  | zero => exact exhausted_reparses
  | succ depth ih => exact ih.calling

end Grammar

end OpenCLTree
