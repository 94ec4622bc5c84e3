import OpenCLTree.Proofs.Grammar.Scopes

namespace OpenCLTree

/-- What can be done to a stack of scopes. -/
inductive ScopeAction
  | enter
  | leave
  | declare (name : String) (sort : NameSort)
  | undoTo (mark : Nat)

namespace ScopeAction

def run (scopes : Scopes) : ScopeAction → Scopes
  | .enter => scopes.enter
  | .leave => scopes.leave
  | .declare name sort => scopes.declare name sort
  | .undoTo mark => scopes.undoTo mark

/-- Whether an action keeps all that was done before a mark: if it goes back, then not behind it. -/
def Keeps (mark : Nat) : ScopeAction → Prop
  | .undoTo later => mark ≤ later
  | _ => True

instance (mark : Nat) : (action : ScopeAction) → Decidable (action.Keeps mark)
  | .undoTo later => inferInstanceAs (Decidable (mark ≤ later))
  | .enter | .leave | .declare _ _ => inferInstanceAs (Decidable True)

end ScopeAction

namespace Scopes

variable {earlier later : Scopes} {mark : Nat}

/-- Going back part of the way leaves the edits that it does not reach. -/
theorem Since.undoTo (since : earlier.Since later) (behind : earlier.mark ≤ mark) :
    earlier.Since (later.undoTo mark) := by
  obtain ⟨edits, journal, layers⟩ := since
  have within : later.journal.length - mark ≤ edits.length := by
    have length := congrArg List.length journal
    rw [List.length_append] at length
    rw [Scopes.mark] at behind
    omega
  refine ⟨edits.drop (later.journal.length - mark), ?_, ?_⟩
  · simp only [Scopes.undoTo]
    rw [journal, List.drop_append_of_le_length (journal ▸ within)]
  · simp only [Scopes.undoTo]
    rw [← layers, journal, List.take_append_of_le_length (journal ▸ within), ← List.foldl_append,
      List.take_append_drop]

/-- What one action does to scopes can be reverted, if it keeps what was there before the mark. -/
theorem Since.run (since : earlier.Since later) {action : ScopeAction}
    (keeps : action.Keeps earlier.mark) : earlier.Since (action.run later) := by
  cases action with
  | enter => exact since.trans (since_enter later)
  | leave => exact since.trans (since_leave later)
  | declare name sort => exact since.trans (since_declare later name sort)
  | undoTo mark => exact since.undoTo keeps

theorem Since.runAll (since : earlier.Since later) {actions : List ScopeAction}
    (keep : ∀ action ∈ actions, action.Keeps earlier.mark) :
    earlier.Since (actions.foldl ScopeAction.run later) := by
  induction actions generalizing later with
  | nil => exact since
  | cons action rest ih =>
    obtain ⟨here, others⟩ := List.forall_mem_cons.mp keep
    exact ih (since.run here) others

/-- Whatever is done to scopes after a mark, also in scopes that were open at the mark and have been
closed since, going back to the mark gives the very same scopes again: as many, and with the same
names, each with what it stood for. -/
theorem undo_restores (scopes : Scopes) (actions : List ScopeAction)
    (keep : ∀ action ∈ actions, action.Keeps scopes.mark) :
    (actions.foldl ScopeAction.run scopes).undoTo scopes.mark = scopes :=
  ((Since.refl scopes).runAll keep).undoTo_mark

/-- The inner scope is closed and opened anew, the file scope is not closed, and a type is declared
as a variable and, before that is undone, as a type again. -/
theorem undo_restores_closed :
    let scopes := ((file.declare "T" .type).enter.declare "x" .ordinary)
    let actions : List ScopeAction := [.leave, .leave, .declare "T" .ordinary, .declare "T" .type,
      .undoTo 5, .enter, .declare "y" .type]
    (∀ action ∈ actions, action.Keeps scopes.mark) ∧
      (actions.foldl ScopeAction.run scopes).mark = 7 ∧
      (actions.foldl ScopeAction.run scopes).isOrdinary "T" = true ∧
      (actions.foldl ScopeAction.run scopes).isOrdinary "x" = false ∧
      (actions.foldl ScopeAction.run scopes).undoTo scopes.mark = scopes := by
  intro scopes actions
  have keep : ∀ action ∈ actions, action.Keeps scopes.mark := by decide
  exact ⟨keep, by decide, by decide, by decide, undo_restores scopes actions keep⟩

end Scopes

end OpenCLTree
