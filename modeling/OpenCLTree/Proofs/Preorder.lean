import OpenCLTree.Proofs.Tree.Descendants
import Mathlib.Data.List.Basic

namespace OpenCLTree

namespace Node

theorem size_lt_of_mem {node inner : Node} (below : inner ∈ node.childNodes) :
    inner.size < node.size := by
  have least {nodes : List Node} (listed : inner ∈ nodes) : inner.size ≤ sizeOfAll nodes := by
    induction nodes with
    | nil => cases listed
    | cons head rest ih =>
      rw [sizeOfAll]
      rcases List.mem_cons.mp listed with rfl | later
      · exact Nat.le_add_right _ _
      · exact Nat.le_trans (ih later) (Nat.le_add_left _ _)
  obtain ⟨kind, span, children⟩ := node
  have within := least below
  rw [childNodes_mk, sizeOfAll_nodes] at within
  rw [size]
  omega

/-- Induction over a tree: what holds of a node if it holds of all nodes right below it holds of
every node. -/
theorem induction_below {motive : Node → Prop}
    (step : ∀ node, (∀ inner ∈ node.childNodes, motive inner) → motive node) (node : Node) :
    motive node := by
  induction size : node.size using Nat.strongRecOn generalizing node with
  | ind count ih =>
    exact step node fun inner below => ih inner.size (size ▸ size_lt_of_mem below) inner rfl

/-- The preorder by recursion: a node, and then the trees below it one after another. -/
theorem descendants_eq_flatMap (node : Node) :
    node.descendants = node :: node.childNodes.flatMap descendants := by
  have parts (nodes : List Node) : preorder nodes = nodes.flatMap descendants := by
    induction nodes with
    | nil => exact preorder_nil
    | cons head rest ih => rw [preorder_cons, ih, List.flatMap_cons]
  rw [descendants_eq, parts]

/-- The node at a place in a tree. A place is the way to it from the root: at each node on it, which
of the nodes right below is next. -/
def at? (root : Node) : List Nat → Option Node
  | [] => some root
  | number :: way => root.childNodes[number]?.bind (·.at? way)

mutual

/-- The places in a tree, in preorder. -/
def places : Node → List (List Nat)
  | .mk _ _ children => [] :: placesOfChildren 0 children

/-- The places in the trees among some children, of which the first has a number. -/
def placesOfChildren (number : Nat) : List Child → List (List Nat)
  | [] => []
  | .token _ _ :: rest => placesOfChildren number rest
  | .node _ inner :: rest => inner.places.map (number :: ·) ++ placesOfChildren (number + 1) rest

end

theorem placesOfChildren_eq (number : Nat) (children : List Child) :
    placesOfChildren number children = ((Child.nodes children).zipIdx number).flatMap
      fun (inner, index) => inner.places.map (index :: ·) := by
  induction children generalizing number with
  | nil => rw [placesOfChildren]; rfl
  | cons child rest ih =>
    cases child with
    | token => rw [placesOfChildren, ih]; rfl
    | node => rw [placesOfChildren, ih, Child.nodes, List.zipIdx_cons, List.flatMap_cons]

theorem places_eq (node : Node) : node.places = [] :: node.childNodes.zipIdx.flatMap
    fun (inner, index) => inner.places.map (index :: ·) := by
  obtain ⟨kind, span, children⟩ := node
  rw [places, placesOfChildren_eq, childNodes_mk]

/-- The places of a tree are those at which it has a node. -/
theorem mem_places {root : Node} {place : List Nat} :
    place ∈ root.places ↔ ∃ inner, root.at? place = some inner := by
  induction place generalizing root with
  | nil => simp only [places_eq root, at?, List.mem_cons_self, Option.some.injEq, exists_eq']
  | cons number way ih =>
    simp only [places_eq root, at?, List.mem_cons, reduceCtorEq, false_or, List.mem_flatMap,
      List.mem_map, List.cons.injEq, Prod.exists, List.mem_zipIdx_iff_getElem?,
      Option.bind_eq_some_iff]
    constructor
    · rintro ⟨next, index, found, rest, listed, rfl, rfl⟩
      exact (ih.mp listed).imp fun inner atRest => ⟨next, found, atRest⟩
    · rintro ⟨inner, next, found, atRest⟩
      exact ⟨next, number, found, way, ih.mpr ⟨inner, atRest⟩, rfl, rfl⟩

/-- A place stands before all that it is a part of the way to, and where two ways part, the one that
takes the earlier turn comes first. -/
theorem places_sorted (root : Node) : root.places.Pairwise (· < ·) := by
  induction root using induction_below with
  | step root ih =>
    rw [places_eq, List.pairwise_cons, List.pairwise_flatMap]
    refine ⟨?_, ?_, ?_⟩
    · intro place member
      obtain ⟨entry, -, listed⟩ := List.mem_flatMap.mp member
      obtain ⟨rest, -, rfl⟩ := List.mem_map.mp listed
      exact List.nil_lt_cons _ _
    · intro entry listed
      have inside := ih entry.1 (List.fst_mem_of_mem_zipIdx listed)
      exact List.pairwise_map.mpr
        (inside.imp fun before => List.cons_lt_cons_iff.mpr (.inr ⟨rfl, before⟩))
    · have increasing : (root.childNodes.zipIdx.map Prod.snd).Pairwise (· < ·) := by
        rw [List.zipIdx_map_snd]
        exact List.pairwise_lt_range'
      refine (List.pairwise_map.mp increasing).imp fun before place listed later listed' => ?_
      obtain ⟨_, -, rfl⟩ := List.mem_map.mp listed
      obtain ⟨_, -, rfl⟩ := List.mem_map.mp listed'
      exact List.cons_lt_cons_iff.mpr (.inl before)

/-- At the places, one after another, stand the nodes of the tree. -/
theorem map_at?_places (root : Node) : root.places.map root.at? = root.descendants.map some := by
  induction root using induction_below with
  | step root ih =>
    have below (inner : Node) (index : Nat) (found : root.childNodes[index]? = some inner) :
        (inner.places.map (index :: ·)).map root.at? = inner.descendants.map some := by
      rw [← ih inner (List.mem_of_getElem? found), List.map_map]
      refine List.map_congr_left fun way _ => ?_
      rw [Function.comp_apply, at?, found, Option.bind_some]
    rw [places_eq, descendants_eq_flatMap, List.map_cons, List.map_cons, at?, List.map_flatMap,
      List.map_flatMap]
    refine congrArg (some root :: ·) ?_
    calc
      _ = root.childNodes.zipIdx.flatMap fun entry => entry.1.descendants.map some :=
        List.flatMap_congr fun entry listed =>
          below entry.1 entry.2 (List.mem_zipIdx_iff_getElem?.mp listed)
      _ = (root.childNodes.zipIdx.map Prod.fst).flatMap fun inner => inner.descendants.map some :=
        by rw [List.flatMap_map]
      _ = _ := by rw [List.zipIdx_map_fst]

theorem mem_descendants_iff_at? {root inner : Node} :
    inner ∈ root.descendants ↔ ∃ place, root.at? place = some inner := by
  have same := congrArg (some inner ∈ ·) (map_at?_places root)
  simp only [List.mem_map, Option.some.injEq, exists_eq_right] at same
  rw [← same]
  exact ⟨fun ⟨place, _, found⟩ => ⟨place, found⟩,
    fun ⟨place, found⟩ => ⟨place, mem_places.mpr ⟨inner, found⟩, found⟩⟩

/-- Whether some nodes are those of a tree with a property, each as often as it stands in the tree,
in preorder. -/
def Lists (root : Node) (holds : Node → Prop) (nodes : List Node) : Prop :=
  ∃ places : List (List Nat), places.Pairwise (· < ·) ∧
    (∀ place, place ∈ places ↔ ∃ inner, root.at? place = some inner ∧ holds inner) ∧
    places.map root.at? = nodes.map some

theorem lists_descendants (root : Node) : root.Lists (fun _ => True) root.descendants := by
  refine ⟨root.places, places_sorted root, fun place => ?_, map_at?_places root⟩
  simp only [mem_places, and_true]

theorem Lists.filter {root : Node} {nodes : List Node} (lists : root.Lists (fun _ => True) nodes)
    (test : Node → Bool) : root.Lists (fun inner => test inner = true) (nodes.filter test) := by
  obtain ⟨places, sorted, complete, visited⟩ := lists
  refine ⟨places.filter fun place => (root.at? place).any test, sorted.filter _, fun place => ?_, ?_⟩
  · simp only [List.mem_filter, complete, and_true, Option.any_eq_true]
    exact ⟨fun held => held.2, fun held => ⟨held.imp fun _ => And.left, held⟩⟩
  · have atPlaces : (fun place => (root.at? place).any test) = (Option.any test) ∘ root.at? := rfl
    rw [atPlaces, ← List.filter_map, visited, List.filter_map]
    rfl

/-- The traversal with a list of pending trees visits every place of a tree once, in preorder; and what
is looked for by its kind is found at the first place, at all places, or at any. -/
theorem visits_preorder (root : Node) :
    root.descendants = root :: root.childNodes.flatMap descendants ∧
      root.Lists (fun _ => True) root.descendants ∧
      (∀ kind, root.Lists (fun inner => inner.kind = kind) (root.findAll kind) ∧
        root.find? kind = (root.findAll kind).head?) ∧
      (root.hasError = true ↔ ∃ place inner, root.at? place = some inner ∧ inner.kind = .error) := by
  refine ⟨descendants_eq_flatMap root, lists_descendants root, fun kind => ⟨?_, ?_⟩, ?_⟩
  · have lists := (lists_descendants root).filter (·.kind == kind)
    simp only [beq_iff_eq] at lists
    exact lists
  · exact (List.head?_filter ..).symm
  · simp only [hasError, List.any_eq_true, isError, beq_iff_eq, mem_descendants_iff_at?]
    exact ⟨fun ⟨inner, ⟨place, found⟩, isError⟩ => ⟨place, inner, found, isError⟩,
      fun ⟨place, inner, found, isError⟩ => ⟨inner, ⟨place, found⟩, isError⟩⟩

end Node

end OpenCLTree
