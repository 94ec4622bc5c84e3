import OpenCLTree.Proofs.Lexical.Irregular
import OpenCLTree.Proofs.Tree.FieldTable
import Mathlib.Data.List.Nodup

namespace OpenCLTree

mutual

/-- What is left of a tree without its tokens and spans: the kind of a node, and the nodes right below
it in order. -/
inductive Skeleton
  | mk (kind : NodeKind) (parts : List SkeletonPart)

/-- A node below another one, with the field that it fills if it fills one. -/
inductive SkeletonPart
  | mk (field : Option Field) (inner : Skeleton)

end

namespace Node

mutual

def skeleton : Node → Skeleton
  | .mk kind _ children => .mk kind (skeletonOfChildren children)

def skeletonOfChildren : List Child → List SkeletonPart
  | [] => []
  | .token _ _ :: rest => skeletonOfChildren rest
  | .node field inner :: rest => .mk field inner.skeleton :: skeletonOfChildren rest

end

end Node

namespace Skeleton

mutual

/-- A skeleton as nested lists. -/
def sexp : Skeleton → List Char
  | .mk kind parts => '(' :: kind.name.toList ++ sexpOfParts parts ++ [')']

def sexpOfParts : List SkeletonPart → List Char
  | [] => []
  | .mk field inner :: rest => ' ' :: labelText field ++ inner.sexp ++ sexpOfParts rest

end

/-- Whether a character can stand in the name of a kind or of a field. -/
def isNameChar (c : Char) : Bool :=
  c.isAlpha || c == '_'

/-- The label at the front of a text, if there is one, and what follows it. -/
def readLabel? (text : List Char) : Option (Option Field × List Char) :=
  match text.dropWhile isNameChar with
  | ':' :: ' ' :: rest =>
    (Field.ofText? (String.ofList (text.takeWhile isNameChar))).map fun field => (some field, rest)
  | _ => some (none, text)

mutual

/-- Reads a skeleton at the front of a text, with room for so many calls inside each other. -/
def read? : Nat → List Char → Option (Skeleton × List Char)
  | room + 1, '(' :: text => do
    let kind ← NodeKind.ofName? (String.ofList (text.takeWhile isNameChar))
    let (parts, rest) ← readParts? room (text.dropWhile isNameChar)
    some (.mk kind parts, rest)
  | _, _ => none

/-- Reads the parts of a skeleton up to the closing parenthesis. -/
def readParts? : Nat → List Char → Option (List SkeletonPart × List Char)
  | _ + 1, ')' :: rest => some ([], rest)
  | room + 1, ' ' :: text => do
    let (field, atNode) ← readLabel? text
    let (inner, behind) ← read? room atNode
    let (parts, rest) ← readParts? room behind
    some (.mk field inner :: parts, rest)
  | _, _ => none

end

/-- The skeleton that a text is the nested lists of. Every call reads a character, so as many as there
are in the text can be nested in each other. -/
def decode? (text : List Char) : Option Skeleton :=
  match read? text.length text with
  | some (skeleton, []) => some skeleton
  | _ => none

end Skeleton

/-- Among all items, one is found by its key if no two have the same. -/
theorem find?_key_iff {α β : Type} [DecidableEq β] {key : α → β} {items : List α}
    (complete : ∀ item, item ∈ items) (distinct : (items.map key).Nodup) {value : β} {item : α} :
    items.find? (fun other => key other == value) = some item ↔ key item = value := by
  constructor
  · intro found
    have same := List.find?_some found
    exact beq_iff_eq.mp same
  · rintro rfl
    cases found : items.find? (fun other => key other == key item) with
    | none =>
      rw [List.find?_eq_none] at found
      exact absurd (beq_self_eq_true _) (found item (complete item))
    | some other =>
      have same := List.find?_some found
      rw [List.inj_on_of_nodup_map distinct (complete other) (complete item) (beq_iff_eq.mp same)]

namespace NodeKind

theorem mem_all (kind : NodeKind) : kind ∈ all := by
  cases kind <;> decide

theorem ofName?_eq_some_iff {name : String} {kind : NodeKind} :
    ofName? name = some kind ↔ kind.name = name :=
  find?_key_iff mem_all (by decide +kernel)

theorem isNameChar_of_mem_name (kind : NodeKind) :
    ∀ c ∈ kind.name.toList, Skeleton.isNameChar c = true := by
  rw [← List.all_eq_true]
  cases kind <;> decide +kernel

end NodeKind

namespace Field

theorem mem_all (field : Field) : field ∈ all := by
  cases field <;> decide

theorem ofText?_eq_some_iff {text : String} {field : Field} :
    ofText? text = some field ↔ field.text = text :=
  find?_key_iff mem_all (by decide +kernel)

theorem isNameChar_of_mem_text (field : Field) :
    ∀ c ∈ field.text.toList, Skeleton.isNameChar c = true := by
  rw [← List.all_eq_true]
  cases field <;> decide +kernel

end Field

namespace Node

mutual

/-- What is written of a tree is what is written of its skeleton. -/
theorem sexpBefore_eq_skeleton (tail : List Char) (node : Node) :
    node.sexpBefore tail = node.skeleton.sexp ++ tail := by
  obtain ⟨kind, span, children⟩ := node
  rw [sexpBefore, sexpOfChildren_eq_skeleton, skeleton, Skeleton.sexp]
  simp only [List.cons_append, List.append_assoc, List.nil_append]

theorem sexpOfChildren_eq_skeleton (tail : List Char) (children : List Child) :
    sexpOfChildren tail children = Skeleton.sexpOfParts (skeletonOfChildren children) ++ tail := by
  match children with
  | [] => rw [sexpOfChildren, skeletonOfChildren, Skeleton.sexpOfParts, List.nil_append]
  | .token field leaf :: rest =>
    rw [sexpOfChildren, sexpOfChildren_eq_skeleton, skeletonOfChildren]
  | .node none inner :: rest | .node (some field) inner :: rest =>
    rw [sexpOfChildren, sexpBefore_eq_skeleton, sexpOfChildren_eq_skeleton, skeletonOfChildren,
      Skeleton.sexpOfParts]
    simp [labelText]

end

theorem sexp_eq_skeleton (node : Node) : node.sexp = node.skeleton.sexp := by
  rw [sexp, sexpBefore_eq_skeleton, List.append_nil]

end Node

namespace Skeleton

theorem readLabel?_labelText (field : Option Field) (rest : List Char) :
    readLabel? (labelText field ++ '(' :: rest) = some (field, '(' :: rest) := by
  cases field with
  | none => rfl
  | some field =>
    have ends : ∀ c ∈ (':' :: ' ' :: '(' :: rest).head?, isNameChar c = false := by
      intro c first
      cases first
      decide
    obtain ⟨taken, dropped⟩ := takeWhile_front field.isNameChar_of_mem_text ends
    have text : labelText (some field) ++ '(' :: rest =
        field.text.toList ++ ':' :: ' ' :: '(' :: rest := by
      simp [labelText]
    rw [text, readLabel?, dropped, taken]
    simp only [String.ofList_toList, Field.ofText?_eq_some_iff.mpr rfl, Option.map_some]

theorem readLabel?_eq_some {text rest : List Char} {field : Option Field}
    (read : readLabel? text = some (field, rest)) : text = labelText field ++ rest := by
  unfold readLabel? at read
  split at read
  · rename_i behind dropped
    obtain ⟨named, found, same⟩ := Option.map_eq_some_iff.mp read
    cases same
    rw [← List.takeWhile_append_dropWhile (p := isNameChar) (l := text), dropped, labelText,
      Field.ofText?_eq_some_iff.mp found]
    simp
  · cases read
    rfl

/-- Behind a name comes a blank or a parenthesis. -/
theorem sexpOfParts_ends (parts : List SkeletonPart) (tail : List Char) :
    ∀ c ∈ (sexpOfParts parts ++ ')' :: tail).head?, isNameChar c = false := by
  intro c first
  match parts with
  | [] =>
    cases first
    decide
  | .mk field inner :: rest =>
    rw [sexpOfParts] at first
    cases first
    decide

mutual

/-- A skeleton is read where it is written, whatever follows it. -/
theorem read?_sexp (skeleton : Skeleton) (tail : List Char) {room : Nat}
    (enough : skeleton.sexp.length ≤ room) :
    read? room (skeleton.sexp ++ tail) = some (skeleton, tail) := by
  match skeleton, room with
  | .mk kind parts, 0 => simp [sexp] at enough
  | .mk kind parts, room + 1 =>
    obtain ⟨taken, dropped⟩ := takeWhile_front kind.isNameChar_of_mem_name (sexpOfParts_ends parts tail)
    have within : (sexpOfParts parts).length < room := by
      simp [sexp] at enough
      omega
    rw [sexp]
    simp only [List.cons_append, List.append_assoc, List.nil_append]
    rw [read?, taken, dropped, String.ofList_toList, NodeKind.ofName?_eq_some_iff.mpr rfl]
    simp only [Option.bind_eq_bind, Option.bind_some, readParts?_sexpOfParts parts tail within]

theorem readParts?_sexpOfParts (parts : List SkeletonPart) (tail : List Char) {room : Nat}
    (enough : (sexpOfParts parts).length < room) :
    readParts? room (sexpOfParts parts ++ ')' :: tail) = some (parts, tail) := by
  match parts, room with
  | _, 0 => simp at enough
  | [], room + 1 => rw [sexpOfParts, List.nil_append, readParts?]
  | .mk field (.mk kind parts) :: others, room + 1 =>
    rw [sexpOfParts] at enough ⊢
    simp only [List.cons_append, List.length_cons, List.length_append] at enough
    have within : (sexp (.mk kind parts)).length ≤ room := by omega
    have behind : (sexpOfParts others).length < room := by omega
    have label := readLabel?_labelText field
      (kind.name.toList ++ (sexpOfParts parts ++ ')' :: (sexpOfParts others ++ ')' :: tail)))
    have inside := read?_sexp (.mk kind parts) (sexpOfParts others ++ ')' :: tail) within
    rw [sexp] at inside ⊢
    simp only [List.cons_append, List.append_assoc, List.nil_append] at inside ⊢
    rw [readParts?, label]
    simp only [Option.bind_eq_bind, Option.bind_some, inside, readParts?_sexpOfParts others tail behind]

end

mutual

/-- Whatever is read is what would be written. -/
theorem eq_sexp_of_read? {room : Nat} {text rest : List Char} {skeleton : Skeleton}
    (read : read? room text = some (skeleton, rest)) : text = skeleton.sexp ++ rest := by
  unfold read? at read
  split at read
  · rename_i room text
    obtain ⟨kind, found, inside⟩ := Option.bind_eq_some_iff.mp read
    obtain ⟨⟨parts, behind⟩, inside, same⟩ := Option.bind_eq_some_iff.mp inside
    cases same
    rw [sexp, NodeKind.ofName?_eq_some_iff.mp found, String.toList_ofList]
    simp only [List.cons_append, List.append_assoc, List.nil_append]
    rw [← eq_sexpOfParts_of_readParts? inside, List.takeWhile_append_dropWhile]
  · cases read
termination_by room

theorem eq_sexpOfParts_of_readParts? {room : Nat} {text rest : List Char} {parts : List SkeletonPart}
    (read : readParts? room text = some (parts, rest)) : text = sexpOfParts parts ++ ')' :: rest := by
  unfold readParts? at read
  split at read
  · cases read
    rw [sexpOfParts, List.nil_append]
  · rename_i room text
    obtain ⟨⟨field, atNode⟩, label, inside⟩ := Option.bind_eq_some_iff.mp read
    obtain ⟨⟨inner, behind⟩, node, inside⟩ := Option.bind_eq_some_iff.mp inside
    obtain ⟨⟨others, last⟩, inside, same⟩ := Option.bind_eq_some_iff.mp inside
    cases same
    rw [sexpOfParts, readLabel?_eq_some label, eq_sexp_of_read? node,
      eq_sexpOfParts_of_readParts? inside]
    simp only [List.cons_append, List.append_assoc]
  · cases read
termination_by room

end

theorem decode?_eq_some_iff {text : List Char} {skeleton : Skeleton} :
    decode? text = some skeleton ↔ text = skeleton.sexp := by
  unfold decode?
  constructor
  · intro decoded
    split at decoded
    · rename_i read
      cases decoded
      simpa using eq_sexp_of_read? read
    · cases decoded
  · rintro rfl
    have read := read?_sexp skeleton [] (Nat.le_refl _)
    rw [List.append_nil] at read
    rw [read]

/-- The nested lists of a tree tell its skeleton and nothing else: two trees are written alike if and
only if they have the same one, and it can be decoded from the text. -/
theorem sexp_unambiguous :
    (∀ one two : Node, one.sexp = two.sexp ↔ one.skeleton = two.skeleton) ∧
      (∀ root : Node, decode? root.sexp = some root.skeleton) ∧
      ∀ text skeleton, decode? text = some skeleton ↔ text = skeleton.sexp := by
  have decoded (root : Node) : decode? root.sexp = some root.skeleton :=
    decode?_eq_some_iff.mpr root.sexp_eq_skeleton
  refine ⟨fun one two => ⟨fun same => ?_, fun same => ?_⟩, decoded, fun _ _ => decode?_eq_some_iff⟩
  · exact Option.some.inj ((decoded one).symm.trans (same ▸ decoded two))
  · rw [one.sexp_eq_skeleton, two.sexp_eq_skeleton, same]

end Skeleton

end OpenCLTree
