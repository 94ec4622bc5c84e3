import OpenCLTree.Grammar.Scopes
import Mathlib.Data.List.Forall2

namespace OpenCLTree

namespace Scopes

/-- Whether some scopes came out of others through edits that the journal can revert. -/
def Since (earlier later : Scopes) : Prop :=
  ∃ edits, later.journal = edits ++ earlier.journal ∧
    edits.foldl revert later.layers = earlier.layers

theorem Since.refl (scopes : Scopes) : scopes.Since scopes :=
  ⟨[], rfl, rfl⟩

theorem Since.trans {first middle last : Scopes} (front : first.Since middle)
    (back : middle.Since last) : first.Since last := by
  obtain ⟨early, journalMiddle, layersFirst⟩ := front
  obtain ⟨late, journalLast, layersMiddle⟩ := back
  refine ⟨late ++ early, ?_, ?_⟩
  · rw [journalLast, journalMiddle, List.append_assoc]
  · rw [List.foldl_append, layersMiddle, layersFirst]

theorem since_enter (scopes : Scopes) : scopes.Since scopes.enter :=
  ⟨[.opened], rfl, rfl⟩

theorem layers_leave (scopes : Scopes) :
    scopes.leave.layers = match scopes.layers with
      | _ :: outer :: rest => outer :: rest
      | layers => layers := by
  unfold leave
  split <;> simp_all

theorem since_leave (scopes : Scopes) : scopes.Since scopes.leave := by
  unfold leave
  split
  · rename_i inner outer rest layers
    exact ⟨[.closed inner], rfl, layers.symm⟩
  · exact .refl scopes

theorem layers_declare (scopes : Scopes) (name : String) (sort : NameSort) :
    (scopes.declare name sort).layers = match scopes.layers with
      | [] => []
      | inner :: rest => inner.assign name (some sort) :: rest := by
  unfold declare
  split <;> simp_all

theorem since_declare (scopes : Scopes) (name : String) (sort : NameSort) :
    scopes.Since (scopes.declare name sort) := by
  unfold declare
  split
  · exact .refl scopes
  · rename_i inner rest layers
    refine ⟨[.declared name (inner name)], rfl, ?_⟩
    simp only [List.foldl_cons, List.foldl_nil, revert, Scope.assign_assign_self, layers]

/-- Going back to the mark of earlier scopes gives these scopes again. -/
theorem Since.undoTo_mark {earlier later : Scopes} (since : earlier.Since later) :
    later.undoTo earlier.mark = earlier := by
  obtain ⟨edits, journal, layers⟩ := since
  simp [undoTo, mark, journal, layers]

/-- Whether two stacks of scopes are equally high and differ at most in some names. -/
def SameBut (known : String → Prop) (layers layers' : List Scope) : Prop :=
  List.Forall₂ (fun scope scope' => ∀ name, ¬ known name → scope' name = scope name) layers layers'

namespace SameBut

variable {known : String → Prop} {first middle last : List Scope}

theorem refl (known : String → Prop) (layers : List Scope) : SameBut known layers layers :=
  List.forall₂_same.mpr fun _ _ _ _ => rfl

theorem trans (front : SameBut known first middle) (back : SameBut known middle last) :
    SameBut known first last := by
  induction front generalizing last with
  | nil => exact back
  | cons here _ ih =>
    cases back with
    | cons here' back =>
      exact .cons (fun name other => (here' name other).trans (here name other)) (ih back)

theorem ne_nil (same : SameBut known first last) (some : first ≠ []) : last ≠ [] := by
  rintro rfl
  exact some (List.forall₂_nil_right_iff.mp same)

end SameBut

theorem sameBut_declare {known : String → Prop} {name : String} (inside : known name)
    (scopes : Scopes) (sort : NameSort) :
    SameBut known scopes.layers (scopes.declare name sort).layers := by
  rw [layers_declare]
  cases scopes.layers with
  | nil => exact .refl known []
  | cons inner rest =>
    refine .cons (fun other unknown => if_neg ?_) (SameBut.refl known rest)
    rintro rfl
    exact unknown inside

/-- A scope that is opened and closed leaves those around it, which may have changed. -/
theorem sameBut_leave {known : String → Prop} {outer inner : Scopes} (some : outer.layers ≠ [])
    (same : SameBut known outer.enter.layers inner.layers) :
    SameBut known outer.layers inner.leave.layers := by
  rw [layers_leave]
  unfold SameBut at same
  cases layers : inner.layers with
  | nil =>
    rw [layers] at same
    cases same
  | cons _ rest =>
    rw [layers] at same
    obtain ⟨_, below⟩ := List.forall₂_cons.mp same
    cases rest with
    | nil => exact absurd (List.forall₂_nil_right_iff.mp below) some
    | cons => exact below

end Scopes

end OpenCLTree
