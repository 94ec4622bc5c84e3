import OpenCLTree.Proofs.Tree.Level
import OpenCLTree.Proofs.Tree.MapSpan

namespace OpenCLTree

namespace Operator

/-- The level of an infix operator. -/
def infixLevel? (kind : TokenKind) : Option Level :=
  (find? .infixOp kind).map (·.level)

theorem find?_eq_some {fixity : Fixity} {kind : TokenKind} {operator : Operator}
    (found : find? fixity kind = some operator) : operator ∈ table ∧ operator.fixity = fixity := by
  have holds := List.find?_some found
  rw [Bool.and_eq_true, beq_iff_eq, beq_iff_eq] at holds
  exact ⟨List.mem_of_find?_eq_some found, holds.2⟩

/-- Every infix operator is looser than a suffix, and only assignments and conditions group to the
right. -/
theorem infix_entries : ∀ entry ∈ table, entry.fixity = .infixOp → entry.level < .suffix ∧
    (entry.associativity = .right ↔ entry.level = .assignment ∨ entry.level = .conditional) := by
  decide

theorem infixLevel?_lt {kind : TokenKind} {level : Level} (found : infixLevel? kind = some level) :
    level < .suffix := by
  obtain ⟨operator, atOperator, rfl⟩ := Option.map_eq_some_iff.mp found
  obtain ⟨member, isInfix⟩ := find?_eq_some atOperator
  exact (infix_entries operator member isInfix).1

end Operator

namespace NodeKind

/-- The loosest level at which the part of a node that fills a field may bind. -/
def partLevel (kind : NodeKind) (field : Option Field) : Level :=
  match kind, field with
  | .commaExpression, some .right => Level.comma.next
  | .assignmentExpression, some .left => Level.assignment.next
  | .assignmentExpression, some .right => .assignment
  | .conditionalExpression, some .condition => Level.conditional.next
  | .conditionalExpression, some .alternative => .conditional
  | .unaryExpression, some .argument | .pointerExpression, some .argument
  | .updateExpression, some .argument | .castExpression, some .value
  | .fieldExpression, some .argument | .swizzleAccess, some .argument
  | .callExpression, some .function | .subscriptExpression, some .argument
  | .sizeofExpression, some .value => .suffix
  | .argumentList, none | .initializerList, none | .initDeclarator, some .value
  | .initializerPair, some .value | .arrayDeclarator, some .size
  | .abstractArrayDeclarator, some .size => .assignment
  | .caseStatement, some .value | .enumerator, some .value | .bitfieldClause, none
  | .subscriptDesignator, none => .conditional
  | _, _ => .comma

/-- Whether it matters how tightly the parts of a node of some kind bind. -/
def bindsParts : NodeKind → Bool
  | .commaExpression | .assignmentExpression | .conditionalExpression | .binaryExpression
  | .unaryExpression | .pointerExpression | .updateExpression | .castExpression
  | .fieldExpression | .swizzleAccess | .callExpression | .builtinFunctionCall
  | .subscriptExpression | .sizeofExpression | .argumentList | .initializerList
  | .initDeclarator | .initializerPair | .arrayDeclarator | .abstractArrayDeclarator
  | .caseStatement | .enumerator | .bitfieldClause | .subscriptDesignator => true
  | _ => false

/-- The fields that every expression of a kind fills with its operands. -/
def operands : NodeKind → List Field
  | .commaExpression | .assignmentExpression | .binaryExpression => [.left, .right]
  | .conditionalExpression => [.condition, .consequence, .alternative]
  | .unaryExpression | .pointerExpression | .updateExpression | .fieldExpression
  | .swizzleAccess | .subscriptExpression => [.argument]
  | .castExpression => [.type, .value]
  | .callExpression => [.function]
  | _ => []

end NodeKind

namespace Node

/-- How tightly an expression binds: like the loosest operator outside of all brackets. What has no
such operator binds tightest. -/
def level (node : Node) : Level :=
  match node.kind with
  | .commaExpression => .comma
  | .assignmentExpression => .assignment
  | .conditionalExpression => .conditional
  | .binaryExpression =>
    ((node.fieldToken? .operator).bind fun operator => Operator.infixLevel? operator.kind).getD .comma
  | _ => .suffix

/-- Whether an infix operator stands between the parts of an expression. -/
def isInfixed (node : Node) : Bool :=
  match node.kind with
  | .commaExpression | .assignmentExpression | .conditionalExpression | .binaryExpression => true
  | _ => false

/-- Whether an operator stands in front of an expression: a cast, a unary operator or a word such as
`sizeof`. -/
def isPrefixed (node : Node) : Bool :=
  match node.kind with
  | .castExpression | .unaryExpression | .pointerExpression | .sizeofExpression
  | .alignofExpression | .vecStepExpression => true
  | .updateExpression => node.children.head?.any (·.token?.isSome)
  | _ => false

/-- Whether an expression ends with a suffix. -/
def isSuffixed (node : Node) : Bool :=
  match node.kind with
  | .fieldExpression | .swizzleAccess | .callExpression | .builtinFunctionCall
  | .subscriptExpression => true
  | .updateExpression => node.children.head?.any (·.node?.isSome)
  | _ => false

end Node

/-- Whether a child binds as tightly as it must in a node of some kind. -/
def Child.Binds (kind : NodeKind) : Child → Prop
  | .token _ _ => True
  | .node field inner => kind.partLevel field ≤ inner.level

namespace Node

/-- Whether the parts of a node bind as tightly as they must where they stand. -/
structure IsLeveled (node : Node) : Prop where
  parts : ∀ child ∈ node.children, child.Binds node.kind
  operands : ∀ field ∈ node.kind.operands, ∃ inner : Node, inner.as field ∈ node.children
  binary : node.kind = .binaryExpression → ∃ (left right : Node) (operator : Token) (level : Level),
    node.children = [left.as .left, operator.as .operator, right.as .right] ∧
      Operator.infixLevel? operator.kind = some level ∧ level ≤ left.level ∧ level < right.level
  suffixed : node.isSuffixed = true → ∀ inner : Node,
    inner.as .argument ∈ node.children ∨ inner.as .function ∈ node.children → inner.isPrefixed = false

theorem level_lt_suffix {node : Node} (infixed : node.isInfixed = true) : node.level < .suffix := by
  obtain ⟨kind, span, children⟩ := node
  cases kind
  case commaExpression => exact (by decide : Level.comma < .suffix)
  case assignmentExpression => exact (by decide : Level.assignment < .suffix)
  case conditionalExpression => exact (by decide : Level.conditional < .suffix)
  case binaryExpression =>
    change Option.getD _ Level.comma < .suffix
    cases found : ((mk .binaryExpression span children).fieldToken? .operator).bind fun operator =>
        Operator.infixLevel? operator.kind with
    | none => exact (by decide : Level.comma < .suffix)
    | some level =>
      obtain ⟨operator, _, atLevel⟩ := Option.bind_eq_some_iff.mp found
      exact Operator.infixLevel?_lt atLevel
  all_goals cases infixed

theorem isInfixed_eq_false {node : Node} (tight : .suffix ≤ node.level) : node.isInfixed = false := by
  cases infixed : node.isInfixed with
  | false => rfl
  | true => exact absurd tight (Level.not_le.mpr (level_lt_suffix infixed))

/-- Other kinds ask nothing of their parts. -/
theorem IsLeveled.ofOther {node : Node} (other : node.kind.bindsParts = false) : node.IsLeveled where
  parts child _ := by
    cases child with
    | token => trivial
    | node field inner =>
      have loose : node.kind.partLevel field = .comma := by
        cases kind : node.kind <;> first | rfl | (rw [kind] at other; cases other)
      rw [Child.Binds, loose]
      exact Level.comma_le _
  operands field member := by
    have none : node.kind.operands = [] := by
      cases kind : node.kind <;> first | rfl | (rw [kind] at other; cases other)
    rw [none] at member
    cases member
  binary isBinary := by
    rw [isBinary] at other
    cases other
  suffixed isSuffixed := by
    obtain ⟨kind, span, children⟩ := node
    have plain : (Node.mk kind span children).isSuffixed = false := by
      cases kind <;> first | rfl | cases other
    cases plain.symm.trans isSuffixed

end Node

/-- Moves a child with all that is below it. -/
def Child.mapSpan (place : Span → Span) : Child → Child
  | .token field leaf => .token field (leaf.mapSpan place)
  | .node field inner => .node field (inner.mapSpan place)

namespace Node

variable (place : Span → Span)

theorem mapSpanOfChildren_eq (children : List Child) :
    mapSpanOfChildren place children = children.map (Child.mapSpan place) := by
  induction children with
  | nil => rw [mapSpanOfChildren, List.map_nil]
  | cons child rest ih => cases child <;> rw [mapSpanOfChildren, ih] <;> rfl

theorem fieldToken?_mapSpan (node : Node) (field : Field) :
    (node.mapSpan place).fieldToken? field = (node.fieldToken? field).map (·.mapSpan place) := by
  simp only [fieldToken?, field?, fieldsNamed, children_mapSpan, mapSpanOfChildren_eq]
  induction node.children with
  | nil => rfl
  | cons child rest ih =>
    cases child with
    | token found leaf | node found inner =>
      rw [List.map_cons, List.filter_cons, List.filter_cons]
      by_cases here : (found == some field) = true <;>
        simp_all [Child.mapSpan, Child.field?, Child.token?]

@[simp]
theorem level_mapSpan (node : Node) : (node.mapSpan place).level = node.level := by
  unfold level
  rw [kind_mapSpan, fieldToken?_mapSpan]
  cases node.fieldToken? .operator <;> rfl

theorem head?_mapSpan (node : Node) :
    (node.mapSpan place).children.head? = node.children.head?.map (Child.mapSpan place) := by
  rw [children_mapSpan, mapSpanOfChildren_eq, List.head?_map]

@[simp]
theorem isInfixed_mapSpan (node : Node) : (node.mapSpan place).isInfixed = node.isInfixed := by
  unfold isInfixed
  rw [kind_mapSpan]

@[simp]
theorem isPrefixed_mapSpan (node : Node) : (node.mapSpan place).isPrefixed = node.isPrefixed := by
  unfold isPrefixed
  rw [kind_mapSpan, head?_mapSpan]
  cases node.children.head? with
  | none => rfl
  | some child => cases child <;> rfl

@[simp]
theorem isSuffixed_mapSpan (node : Node) : (node.mapSpan place).isSuffixed = node.isSuffixed := by
  unfold isSuffixed
  rw [kind_mapSpan, head?_mapSpan]
  cases node.children.head? with
  | none => rfl
  | some child => cases child <;> rfl

variable {place} {node inner : Node} {field : Field}

theorem as_mem_mapSpan (member : inner.as field ∈ (node.mapSpan place).children) :
    ∃ original : Node, inner = original.mapSpan place ∧ original.as field ∈ node.children := by
  rw [children_mapSpan, mapSpanOfChildren_eq] at member
  obtain ⟨child, listed, same⟩ := List.mem_map.mp member
  cases child with
  | token => cases same
  | node found original =>
    cases same
    exact ⟨original, rfl, listed⟩

/-- Where a tree stands does not matter to how its parts bind. -/
theorem IsLeveled.mapSpan (leveled : node.IsLeveled) (place : Span → Span) :
    (node.mapSpan place).IsLeveled where
  parts child member := by
    rw [children_mapSpan, mapSpanOfChildren_eq] at member
    obtain ⟨found, listed, rfl⟩ := List.mem_map.mp member
    have binds := leveled.parts found listed
    rw [kind_mapSpan]
    cases found with
    | token => trivial
    | node field inner => rwa [Child.mapSpan, Child.Binds, level_mapSpan]
  operands field member := by
    rw [kind_mapSpan] at member
    obtain ⟨inner, listed⟩ := leveled.operands field member
    refine ⟨inner.mapSpan place, ?_⟩
    rw [children_mapSpan, mapSpanOfChildren_eq]
    exact List.mem_map_of_mem listed
  binary isBinary := by
    rw [kind_mapSpan] at isBinary
    obtain ⟨left, right, operator, level, children, atLevel, before, after⟩ := leveled.binary isBinary
    refine ⟨left.mapSpan place, right.mapSpan place, operator.mapSpan place, level, ?_, atLevel, ?_, ?_⟩
    · rw [children_mapSpan, mapSpanOfChildren_eq, children]
      rfl
    · rwa [level_mapSpan]
    · rwa [level_mapSpan]
  suffixed isSuffixed inner member := by
    rw [isSuffixed_mapSpan] at isSuffixed
    rcases member with argument | function
    · obtain ⟨original, rfl, listed⟩ := as_mem_mapSpan argument
      rw [isPrefixed_mapSpan]
      exact leveled.suffixed isSuffixed original (.inl listed)
    · obtain ⟨original, rfl, listed⟩ := as_mem_mapSpan function
      rw [isPrefixed_mapSpan]
      exact leveled.suffixed isSuffixed original (.inr listed)

end Node

end OpenCLTree
