import OpenCLTree.Proofs.Tree.Operands
import OpenCLTree.Grammar.Expression

namespace OpenCLTree

/-- The level from which the left operand of an operator may bind. -/
def Operator.leftLevel (operator : Operator) : Level :=
  match operator.associativity with
  | .left => operator.level
  | .right => operator.level.next

namespace Child

variable {kind : NodeKind}

@[simp]
theorem binds_token (leaf : Token) : leaf.toChild.Binds kind :=
  trivial

@[simp]
theorem binds_tokenAs (leaf : Token) (field : Field) : (leaf.as field).Binds kind :=
  trivial

@[simp]
theorem binds_node (inner : Node) : inner.toChild.Binds kind ↔ kind.partLevel none ≤ inner.level :=
  Iff.rfl

@[simp]
theorem binds_nodeAs (inner : Node) (field : Field) :
    (inner.as field).Binds kind ↔ kind.partLevel (some field) ≤ inner.level :=
  Iff.rfl

/-- In lists that ask the same of all their parts, it does not matter which fields these fill. -/
theorem binds_of_nodes {children : List Child} {least : Level}
    (within : ∀ field, kind.partLevel field ≤ least)
    (tight : ∀ inner ∈ nodes children, least ≤ inner.level) :
    ∀ child ∈ children, child.Binds kind := by
  induction children with
  | nil => exact List.forall_mem_nil _
  | cons child rest ih =>
    cases child with
    | token => exact List.forall_mem_cons.mpr ⟨trivial, ih tight⟩
    | node field inner =>
      obtain ⟨here, later⟩ := List.forall_mem_cons.mp tight
      exact List.forall_mem_cons.mpr ⟨Level.le_trans (within field) here, ih later⟩

/-- Parts that fill no field of which anything is asked may bind as they like. -/
theorem binds_of_fields {children : List Child}
    (loose : ∀ child ∈ children, kind.partLevel child.field? = .comma) :
    ∀ child ∈ children, child.Binds kind := by
  intro child member
  cases child with
  | token => trivial
  | node field inner =>
    have atField : kind.partLevel field = .comma := loose _ member
    rw [Binds, atField]
    exact Level.comma_le _

end Child

namespace Node

/-- Whether a suffix may follow an expression: no operator stands between its parts or in front. -/
def TakesSuffix (node : Node) : Prop :=
  .suffix ≤ node.level ∧ node.isPrefixed = false

namespace IsLeveled

variable {kind : NodeKind} {children : List Child} {left right argument : Node} {token : Token}

/-- Nodes that are no expressions with operands only have to bind their parts. -/
theorem ofParts (operands : kind.operands = []) (plain : (make kind children).isSuffixed = false)
    (parts : ∀ child ∈ children, child.Binds kind) : (make kind children).IsLeveled where
  parts := parts
  operands field member := by
    rw [kind_make, operands] at member
    cases member
  binary isBinary := by
    rw [kind_make] at isBinary
    rw [isBinary] at operands
    cases operands
  suffixed isSuffixed := by cases plain.symm.trans isSuffixed

/-- The elements of a list bind more tightly than commas. -/
theorem list {opener closer : Token} {elements : List Child}
    (isList : kind = .argumentList ∨ kind = .initializerList)
    (tight : ∀ inner ∈ Child.nodes elements, .assignment ≤ inner.level) :
    (make kind (opener.toChild :: elements ++ [closer.toChild])).IsLeveled := by
  have within (field : Option Field) : kind.partLevel field ≤ .assignment := by
    rcases isList with rfl | rfl <;> cases field <;> first | exact Level.le_refl _ | exact Level.comma_le _
  refine .ofParts ?_ ?_ (List.forall_mem_append.mpr ⟨List.forall_mem_cons.mpr ⟨trivial, ?_⟩, by simp⟩)
  · rcases isList with rfl | rfl <;> rfl
  · rcases isList with rfl | rfl <;> rfl
  · exact Child.binds_of_nodes within tight

theorem prefixed (isPrefix : kind = .unaryExpression ∨ kind = .pointerExpression ∨
    kind = .updateExpression) (tight : .suffix ≤ argument.level) :
    (OpenCLTree.prefixed kind token argument).IsLeveled := by
  have parts : ∀ child ∈ [token.as .operator, argument.as .argument], child.Binds kind := by
    rcases isPrefix with rfl | rfl | rfl <;> simp [NodeKind.partLevel, tight]
  refine ⟨parts, ?_, ?_, ?_⟩ <;> rcases isPrefix with rfl | rfl | rfl <;>
    simp [OpenCLTree.prefixed, NodeKind.operands, isSuffixed, Token.as, Node.as, Child.node?]

theorem cast {parts : ParenthesizedType} (tight : .suffix ≤ argument.level) :
    (make .castExpression (parts.children ++ [argument.as .value])).IsLeveled where
  parts := by simp [ParenthesizedType.children, NodeKind.partLevel, tight]
  operands := by simp [ParenthesizedType.children, NodeKind.operands, Node.as, Token.toChild]
  binary := by simp
  suffixed := by simp [isSuffixed]

theorem conditional {consequence : Node} {question colon : Token}
    (before : Level.conditional.next ≤ left.level) (after : .conditional ≤ right.level) :
    (make .conditionalExpression [left.as .condition, question, consequence.as .consequence, colon,
      right.as .alternative]).IsLeveled where
  parts := by simp [NodeKind.partLevel, before, after]
  operands := by simp [NodeKind.operands, Node.as, Token.toChild]
  binary := by simp
  suffixed := by simp [isSuffixed]

/-- An infix operator that is no condition with its operands. -/
theorem infixed {operator : Operator} (found : Operator.find? .infixOp token.kind = some operator)
    (other : operator.level ≠ .conditional) (before : operator.leftLevel ≤ left.level)
    (after : operator.rightLevel ≤ right.level) :
    (OpenCLTree.infixed operator.level left token right).IsLeveled := by
  obtain ⟨member, isInfix⟩ := Operator.find?_eq_some found
  obtain ⟨loose, direction⟩ := Operator.infix_entries operator member isInfix
  unfold Operator.leftLevel at before
  unfold Operator.rightLevel at after
  unfold OpenCLTree.infixed
  cases associativity : operator.associativity with
  | right =>
    have assignment := (direction.mp associativity).resolve_right other
    rw [associativity, assignment] at before after
    rw [assignment]
    exact {
      parts := by simp [NodeKind.partLevel, before, after]
      operands := by simp [NodeKind.operands, Node.as, Token.as]
      binary := by simp
      suffixed := by simp [isSuffixed] }
  | left =>
    rw [associativity] at before after
    split
    · rename_i comma
      rw [comma] at after
      exact {
        parts := by simp [NodeKind.partLevel, after]
        operands := by simp [NodeKind.operands, Node.as, Token.toChild]
        binary := by simp
        suffixed := by simp [isSuffixed] }
    · rename_i assignment
      rw [direction.mpr (.inl assignment)] at associativity
      cases associativity
    · refine {
        parts := by simp [NodeKind.partLevel]
        operands := by simp [NodeKind.operands, Node.as, Token.as]
        binary := fun _ => ⟨left, right, token, operator.level, rfl, ?_, before, ?_⟩
        suffixed := by simp [isSuffixed] }
      · rw [Operator.infixLevel?, found, Option.map_some]
      · exact Level.lt_of_next_le loose after

/-- A suffix behind an expression; its other parts are no operands. -/
theorem suffix {field : Field} {rest : List Child} (operands : kind.operands = [field])
    (takes : argument.TakesSuffix) (parts : ∀ child ∈ rest, child.Binds kind)
    (others : ∀ child ∈ rest, child.field? ≠ some .argument ∧ child.field? ≠ some .function) :
    (make kind (argument.as field :: rest)).IsLeveled where
  parts := List.forall_mem_cons.mpr ⟨Level.le_trans (Level.le_suffix _) takes.1, parts⟩
  operands other member := by
    rw [kind_make, operands, List.mem_singleton] at member
    exact ⟨argument, member ▸ List.mem_cons_self⟩
  binary isBinary := by
    rw [kind_make] at isBinary
    rw [isBinary] at operands
    cases operands
  suffixed _ inner member := by
    rw [children_make, List.mem_cons, List.mem_cons] at member
    rcases member with (same | later) | (same | later)
    · cases same
      exact takes.2
    · exact absurd rfl (others _ later).1
    · cases same
      exact takes.2
    · exact absurd rfl (others _ later).2

theorem builtinCall {name arguments : Node} (plain : name.isPrefixed = false) :
    (make .builtinFunctionCall [name.as .function, arguments.as .arguments]).IsLeveled where
  parts := by simp [NodeKind.partLevel]
  operands := by simp [NodeKind.operands]
  binary := by simp
  suffixed := by simp [Node.as, plain]

end IsLeveled

theorem level_infixed {operator : Operator} {left right : Node} {token : Token}
    (found : Operator.find? .infixOp token.kind = some operator) :
    (infixed operator.level left token right).level = operator.level := by
  unfold infixed
  split
  · rename_i comma
    rw [comma]
    rfl
  · rename_i assignment
    rw [assignment]
    rfl
  · change ((Operator.infixLevel? token.kind).getD .comma) = operator.level
    rw [Operator.infixLevel?, found]
    rfl

end Node

end OpenCLTree
