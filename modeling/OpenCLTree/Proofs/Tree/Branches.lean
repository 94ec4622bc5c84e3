import OpenCLTree.Proofs.Tree.Catalogued
import OpenCLTree.Syntax.Tree

namespace OpenCLTree

namespace Node

/-- Whether an `if` has an `else`. -/
def hasElse (node : Node) : Bool :=
  node.childNodes.any (·.kind == .elseClause)

/-- The statements on which the open tail of a statement goes on: the consequence of an `if` and what
stands behind its `else`, the body of a loop that has its condition in front, and the statement
behind a label. -/
def endings (node : Node) : List Node :=
  match node.kind with
  | .ifStatement => (node.fieldNode? .consequence).toList ++
      ((node.fieldNode? .alternative).bind fun clause => clause.childNodes.getLast?).toList
  | .whileStatement | .forStatement => (node.fieldNode? .body).toList
  | .labeledStatement => node.childNodes.getLast?.toList
  | _ => []

/-- Whether the open tail of a statement reaches an `if` without an `else`. An `else` behind the
statement could belong to that one. -/
inductive LeavesOpen : Node → Prop
  | here {node : Node} (isIf : node.kind = .ifStatement) (lacks : node.hasElse = false) :
      LeavesOpen node
  | onward {node inner : Node} (ending : inner ∈ node.endings) (opens : LeavesOpen inner) :
      LeavesOpen node

/-- Whether the `else` of an `if` that has one could belong to no `if` in its consequence. -/
def ElseIsNearest (node : Node) : Prop :=
  node.hasElse = true →
    ∃ consequence, node.fieldNode? .consequence = some consequence ∧ ¬ consequence.LeavesOpen

theorem leavesOpen_iff {node : Node} : node.LeavesOpen ↔
    node.kind = .ifStatement ∧ node.hasElse = false ∨ ∃ inner ∈ node.endings, inner.LeavesOpen := by
  constructor
  · intro opens
    cases opens with
    | here isIf lacks => exact .inl ⟨isIf, lacks⟩
    | onward ending opens => exact .inr ⟨_, ending, opens⟩
  · rintro (⟨isIf, lacks⟩ | ⟨inner, ending, opens⟩)
    · exact .here isIf lacks
    · exact .onward ending opens

variable (place : Span → Span) (node : Node)

theorem childNodes_mapSpan :
    (node.mapSpan place).childNodes = node.childNodes.map (·.mapSpan place) := by
  rw [childNodes, children_mapSpan, nodes_mapSpanOfChildren, childNodes]

theorem hasElse_mapSpan : (node.mapSpan place).hasElse = node.hasElse := by
  simp only [hasElse, childNodes_mapSpan, List.any_map, Function.comp_def, kind_mapSpan]

theorem endings_mapSpan : (node.mapSpan place).endings = node.endings.map (·.mapSpan place) := by
  unfold endings
  rw [kind_mapSpan]
  split
  · rw [fieldNode?_mapSpan, fieldNode?_mapSpan, List.map_append, Option.toList_map]
    cases node.fieldNode? .alternative with
    | none => rfl
    | some clause => simp [childNodes_mapSpan, Option.toList_map]
  · rw [fieldNode?_mapSpan, Option.toList_map]
  · rw [fieldNode?_mapSpan, Option.toList_map]
  · rw [childNodes_mapSpan, List.getLast?_map, Option.toList_map]
  · rfl

variable {place node}

/-- The open tail of a statement does not depend on where it stands. -/
theorem LeavesOpen.of_mapSpan (opens : (node.mapSpan place).LeavesOpen) : node.LeavesOpen := by
  generalize same : node.mapSpan place = moved at opens
  induction opens generalizing node with
  | here isIf lacks =>
    subst same
    exact .here (by rwa [kind_mapSpan] at isIf) (by rwa [hasElse_mapSpan] at lacks)
  | onward ending opens ih =>
    subst same
    rw [endings_mapSpan] at ending
    obtain ⟨inner, listed, rfl⟩ := List.mem_map.mp ending
    exact .onward listed (ih rfl)

theorem ElseIsNearest.mapSpan (nearest : node.ElseIsNearest) : (node.mapSpan place).ElseIsNearest := by
  intro has
  rw [hasElse_mapSpan] at has
  obtain ⟨consequence, found, closed⟩ := nearest has
  refine ⟨consequence.mapSpan place, ?_, fun opens => closed opens.of_mapSpan⟩
  rw [fieldNode?_mapSpan, found, Option.map_some]

end Node

/-- Whether every `else` in a tree belongs to the nearest `if`. -/
def Tree.BindsElse (tree : Tree) : Prop :=
  ∀ node ∈ tree.root.descendants, node.kind = .ifStatement → node.ElseIsNearest

end OpenCLTree
