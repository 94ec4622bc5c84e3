import OpenCLTree.Output.Sexp
import Mathlib.Data.List.Induction
import Mathlib.Data.List.Nodup

namespace OpenCLTree

section Duplicates

variable {α : Type} [BEq α] [LawfulBEq α]

/-- An element behind a list is kept if the list does not have it. -/
theorem eraseDups_snoc (list : List α) (last : α) :
    (list ++ [last]).eraseDups = list.eraseDups ++ if list.contains last then [] else [last] := by
  rw [List.eraseDups_append, List.removeAll, List.filter_singleton, List.elem_eq_contains]
  cases list.contains last with
  | true => rfl
  | false => exact congrArg _ List.eraseDups_cons

theorem nodup_eraseDups (list : List α) : list.eraseDups.Nodup := by
  induction list using List.reverseRecOn with
  | nil => simp
  | append_singleton list last ih =>
    rw [eraseDups_snoc]
    split
    · simpa using ih
    · rename_i unseen
      have apart : last ∉ list.eraseDups := by
        simpa [List.mem_eraseDups] using unseen
      exact ih.append (List.nodup_singleton last) (List.disjoint_singleton.mpr apart)

end Duplicates

/-- The fields of some entries in the order of their first use, each with all that is entered
under it. -/
def fieldRows (entries : List (Field × Nat)) : List (Field × List Nat) :=
  (entries.map (·.1)).eraseDups.map fun field => (field, (entries.filter (·.1 == field)).map (·.2))

/-- Enters an index under a field: in the row of the field, or in a new one behind the others. -/
def enterField (field : Field) (index : Nat) : List (Field × List Nat) → List (Field × List Nat)
  | [] => [(field, [index])]
  | (other, indices) :: rest =>
    if other = field then (other, indices ++ [index]) :: rest
    else (other, indices) :: enterField field index rest

/-- Entering changes the row of its field alone. -/
theorem enterField_map (field : Field) (index : Nat) (indices : Field → List Nat)
    {fields : List Field} (distinct : fields.Nodup) :
    enterField field index (fields.map fun other => (other, indices other)) =
      (fields.map fun other =>
        (other, if other = field then indices other ++ [index] else indices other)) ++
          if fields.contains field then [] else [(field, [index])] := by
  induction fields with
  | nil => rfl
  | cons first rest ih =>
    obtain ⟨apart, distinct⟩ := List.nodup_cons.mp distinct
    by_cases same : first = field
    · subst same
      have others : ∀ other ∈ rest, other ≠ first :=
        fun other member equal => apart (equal ▸ member)
      have kept : (rest.map fun other =>
          (other, if other = first then indices other ++ [index] else indices other)) =
            rest.map fun other => (other, indices other) :=
        List.map_congr_left fun other member => by rw [if_neg (others other member)]
      simp [enterField, kept]
    · have unlike : (field == first) = false := by simpa using Ne.symm same
      rw [List.map_cons, enterField, if_neg same, ih distinct, List.map_cons, if_neg same,
        List.contains_cons, unlike, Bool.false_or, List.cons_append]

theorem fieldRows_snoc (entries : List (Field × Nat)) (field : Field) (index : Nat) :
    fieldRows (entries ++ [(field, index)]) = enterField field index (fieldRows entries) := by
  have seen : (entries.map (·.1)).eraseDups.contains field = (entries.map (·.1)).contains field := by
    rw [Bool.eq_iff_iff, List.contains_iff_mem, List.contains_iff_mem, List.mem_eraseDups]
  unfold fieldRows
  rw [enterField_map _ _ _ (nodup_eraseDups _), seen, List.map_append, List.map_singleton,
    eraseDups_snoc, List.map_append]
  congr 1
  · refine List.map_congr_left fun other _ => ?_
    by_cases same : other = field
    · simp [same]
    · have unlike : (field == other) = false := by simpa using Ne.symm same
      simp [same, unlike]
  · split
    · rfl
    · rename_i unseen
      have none : entries.filter (·.1 == field) = [] := by
        refine List.filter_eq_nil_iff.mpr fun entry member => ?_
        simp only [List.contains_iff_mem, List.mem_map, not_exists, not_and] at unseen
        simpa using unseen entry member
      simp [none]

namespace Child

/-- The children that fill a field, as entries of their fields and indices. -/
def entries (children : List Child) : List (Field × Nat) :=
  children.zipIdx.filterMap fun (child, index) => child.field?.map fun field => (field, index)

variable {children : List Child} {child : Child} {field : Field} {index : Nat}

theorem mem_entries :
    (field, index) ∈ entries children ↔
      ∃ child, children[index]? = some child ∧ child.field? = some field := by
  simp [entries, List.mem_zipIdx_iff_getElem?]

theorem entries_snoc (children : List Child) (child : Child) :
    entries (children ++ [child]) =
      entries children ++ (child.field?.map fun field => (field, children.length)).toList := by
  rw [entries, List.zipIdx_append, List.filterMap_append]
  cases labelled : child.field? <;> simp [entries, labelled]

theorem entries_increasing (children : List Child) :
    (entries children).Pairwise fun one two => one.2 < two.2 := by
  have indices : (children.zipIdx.map Prod.snd).Pairwise (· < ·) := by
    rw [List.zipIdx_map_snd]
    exact List.pairwise_lt_range'
  refine (List.pairwise_map.mp indices).filterMap _ ?_
  rintro ⟨one, first⟩ ⟨two, second⟩ less entry found entry' found'
  simp only [Option.map_eq_some_iff] at found found'
  obtain ⟨_, _, rfl⟩ := found
  obtain ⟨_, _, rfl⟩ := found'
  exact less

theorem map_fst_entries (children : List Child) :
    (entries children).map (·.1) = children.filterMap Child.field? := by
  induction children using List.reverseRecOn with
  | nil => rfl
  | append_singleton front last ih =>
    rw [entries_snoc, List.map_append, ih, List.filterMap_append]
    cases labelled : last.field? <;> simp [labelled]

/-- The indices that are entered under a field lead to the children that fill it, in order. -/
theorem filterMap_entries (children : List Child) (field : Field) :
    (((entries children).filter (·.1 == field)).map (·.2)).filterMap (children[·]?) =
      children.filter (·.field? == some field) := by
  induction children using List.reverseRecOn with
  | nil => rfl
  | append_singleton front last ih =>
    have before : (((entries front).filter (·.1 == field)).map (·.2)).filterMap
        ((front ++ [last])[·]?) = front.filter (·.field? == some field) := by
      rw [← ih]
      refine List.filterMap_congr fun index member => ?_
      obtain ⟨entry, listed, rfl⟩ := List.mem_map.mp member
      obtain ⟨child, found, _⟩ := mem_entries.mp (List.mem_filter.mp listed).1
      exact List.getElem?_append_left (List.getElem?_eq_some_iff.mp found).1
    rw [entries_snoc, List.filter_append, List.map_append, List.filterMap_append, before,
      List.filter_append]
    congr 1
    cases labelled : last.field? with
    | none => simp [labelled]
    | some other => by_cases same : other = field <;> simp [labelled, same]

end Child

namespace Node

variable {node : Node}

theorem fieldTable_eq (node : Node) : node.fieldTable = fieldRows (Child.entries node.children) :=
  rfl

theorem mem_fieldTable {row : Field × List Nat} :
    row ∈ node.fieldTable ↔ row.1 ∈ node.fieldNames ∧
      row.2 = ((Child.entries node.children).filter (·.1 == row.1)).map (·.2) := by
  rw [fieldTable_eq, fieldRows, Child.map_fst_entries, List.mem_map]
  constructor
  · rintro ⟨field, used, rfl⟩
    exact ⟨used, rfl⟩
  · rintro ⟨used, indices⟩
    exact ⟨row.1, used, Prod.ext rfl indices.symm⟩

theorem exists_row {field : Field} (used : field ∈ node.fieldNames) :
    ∃ row ∈ node.fieldTable, row.1 = field :=
  ⟨(field, ((Child.entries node.children).filter (·.1 == field)).map (·.2)),
    mem_fieldTable.mpr ⟨used, rfl⟩, rfl⟩

/-- The field under which an index is entered in the table. -/
def fieldAt? (node : Node) (index : Nat) : Option Field :=
  (node.fieldTable.find? (·.2.contains index)).map (·.1)

theorem mem_row {row : Field × List Nat} (listed : row ∈ node.fieldTable) {index : Nat} :
    index ∈ row.2 ↔ ∃ child, node.children[index]? = some child ∧ child.field? = some row.1 := by
  rw [(mem_fieldTable.mp listed).2, ← Child.mem_entries, List.mem_map]
  constructor
  · rintro ⟨entry, found, rfl⟩
    obtain ⟨entered, same⟩ := List.mem_filter.mp found
    rwa [← beq_iff_eq.mp same]
  · intro entered
    exact ⟨_, List.mem_filter.mpr ⟨entered, beq_self_eq_true _⟩, rfl⟩

/-- The table gives back the field of every child. -/
theorem fieldAt?_eq {index : Nat} {child : Child} (found : node.children[index]? = some child) :
    node.fieldAt? index = child.field? := by
  have only {row : Field × List Nat} (listed : row ∈ node.fieldTable) (entered : index ∈ row.2) :
      child.field? = some row.1 := by
    obtain ⟨other, found', labelled⟩ := (mem_row listed).mp entered
    rwa [Option.some.inj (found.symm.trans found')]
  unfold fieldAt?
  cases search : node.fieldTable.find? (·.2.contains index) with
  | some row =>
    have entered := List.find?_some search
    rw [Option.map_some, only (List.mem_of_find?_eq_some search) (by simpa using entered)]
  | none =>
    rw [Option.map_none]
    by_contra labelled
    obtain ⟨field, labelled⟩ := Option.ne_none_iff_exists'.mp (Ne.symm labelled)
    have used : field ∈ node.fieldNames := by
      rw [fieldNames, List.mem_eraseDups, List.mem_filterMap]
      exact ⟨child, List.mem_of_getElem? found, labelled⟩
    obtain ⟨row, listed, rfl⟩ := exists_row used
    have entered := (mem_row listed).mpr ⟨child, found, labelled⟩
    exact List.find?_eq_none.mp search row listed (List.contains_iff_mem.mpr entered)

/-- What holds of the table of every node: it has a row for each field in use; the indices of a
row are those of children and increase; an index stands in one row only; the children of a row
are those that fill its field, in source order; and the field under which the index of a child
stands is that of the child. -/
structure HasSoundTable (node : Node) : Prop where
  names : node.fieldTable.map (·.1) = node.fieldNames
  distinct : node.fieldNames.Nodup
  valid : ∀ row ∈ node.fieldTable, ∀ index ∈ row.2, index < node.children.length
  increasing : ∀ row ∈ node.fieldTable, row.2.Pairwise (· < ·)
  single : ∀ row ∈ node.fieldTable, ∀ other ∈ node.fieldTable, ∀ index ∈ row.2, index ∈ other.2 →
    row = other
  named : ∀ row ∈ node.fieldTable, node.fieldsNamed row.1 = row.2.filterMap (node.children[·]?)
  unused : ∀ field ∉ node.fieldNames, node.fieldsNamed field = []
  label : ∀ index child, node.children[index]? = some child → child.field? = node.fieldAt? index

theorem hasSoundTable (node : Node) : node.HasSoundTable where
  names := by
    rw [fieldTable_eq, fieldRows, Child.map_fst_entries, List.map_map]
    exact List.map_id _
  distinct := nodup_eraseDups _
  valid := by
    intro row listed index entered
    obtain ⟨child, found, _⟩ := (mem_row listed).mp entered
    exact (List.getElem?_eq_some_iff.mp found).1
  increasing := by
    intro row listed
    rw [(mem_fieldTable.mp listed).2]
    exact List.pairwise_map.mpr ((Child.entries_increasing node.children).filter _)
  single := by
    intro row listed other listed' index entered entered'
    obtain ⟨child, found, labelled⟩ := (mem_row listed).mp entered
    obtain ⟨child', found', labelled'⟩ := (mem_row listed').mp entered'
    obtain rfl := Option.some.inj (found.symm.trans found')
    have same := Option.some.inj (labelled.symm.trans labelled')
    refine Prod.ext same ?_
    rw [(mem_fieldTable.mp listed).2, (mem_fieldTable.mp listed').2, same]
  named := by
    intro row listed
    rw [(mem_fieldTable.mp listed).2, Child.filterMap_entries, fieldsNamed]
  unused := by
    intro field unused
    refine List.filter_eq_nil_iff.mpr fun child member fills => unused ?_
    rw [fieldNames, List.mem_eraseDups, List.mem_filterMap]
    exact ⟨child, member, beq_iff_eq.mp fills⟩
  label := fun _ _ found => (fieldAt?_eq found).symm

end Node

/-- How a field is written in front of the node that fills it. -/
def labelText : Option Field → List Char
  | none => []
  | some field => field.text.toList ++ [':', ' ']

/-- A child as it is written in the list of its node, under a label. -/
def Child.sexp (label : Option Field) : Child → List Char
  | .token _ _ => []
  | .node _ inner => ' ' :: labelText label ++ inner.sexp

namespace Node

mutual

theorem sexpBefore_eq (tail : List Char) (node : Node) :
    node.sexpBefore tail = node.sexp ++ tail := by
  obtain ⟨kind, span, children⟩ := node
  rw [sexp, sexpBefore, sexpBefore, sexpOfChildren_eq (')' :: tail), sexpOfChildren_eq [')']]
  simp

theorem sexpOfChildren_eq (tail : List Char) (children : List Child) :
    sexpOfChildren tail children =
      children.flatMap (fun child => child.sexp child.field?) ++ tail := by
  match children with
  | [] => rw [sexpOfChildren]; rfl
  | .token field leaf :: rest =>
    rw [sexpOfChildren, sexpOfChildren_eq tail rest]
    rfl
  | .node none inner :: rest =>
    rw [sexpOfChildren, sexpBefore_eq _ inner, sexpOfChildren_eq tail rest, List.flatMap_cons]
    simp [Child.sexp, Child.field?, labelText]
  | .node (some field) inner :: rest =>
    rw [sexpOfChildren, sexpBefore_eq _ inner, sexpOfChildren_eq tail rest, List.flatMap_cons]
    simp [Child.sexp, Child.field?, labelText]

end

/-- A tree is written with each child under the field that the table gives for its index. -/
theorem sexp_eq (node : Node) :
    node.sexp = '(' :: node.kind.name.toList ++ node.children.zipIdx.flatMap (fun (child, index) =>
      child.sexp (node.fieldAt? index)) ++ [')'] := by
  have labels : node.children.zipIdx.flatMap
      (fun (child, index) => child.sexp (node.fieldAt? index)) =
        node.children.flatMap fun child => child.sexp child.field? := by
    have plain : node.children.flatMap (fun child => child.sexp child.field?) =
        node.children.zipIdx.flatMap fun entry => entry.1.sexp entry.1.field? := by
      conv_lhs => rw [← List.zipIdx_map_fst 0 node.children, List.flatMap_map]
    rw [plain]
    refine List.flatMap_congr fun entry member => ?_
    exact congrArg (Child.sexp · entry.1) (fieldAt?_eq (List.mem_zipIdx_iff_getElem?.mp member))
  rw [labels, sexp]
  obtain ⟨kind, span, children⟩ := node
  rw [sexpBefore, sexpOfChildren_eq, List.append_assoc]
  rfl

end Node

end OpenCLTree
