import OpenCLTree.Proofs.Reading

namespace OpenCLTree

namespace GrammarState

/-- The states that the grammar can be in while it reads some tokens: it begins in front of them, it
goes on behind whatever it has read and wherever a rule has failed, it opens scopes, and it goes
deeper. -/
inductive Reachable (tokens : List Token) : GrammarState → Prop
  | start : Reachable tokens (.ofTokens tokens)
  | behind {first last : GrammarState} {children : List Child} : Reachable tokens first →
      ReadsWith True first children last → Reachable tokens last
  | entered {state : GrammarState} : Reachable tokens state →
      Reachable tokens (state.mapScopes Scopes.enter)
  | deeper {state : GrammarState} : Reachable tokens state → Reachable tokens state.deepen

namespace Reachable

variable {tokens : List Token} {state : GrammarState}

theorem lawful (reachable : Reachable tokens state) : state.cursor.Lawful := by
  induction reachable with
  | start => exact (ofTokens_fits tokens).lawful
  | behind _ reads ih => exact reads.lawful ih
  | entered _ ih | deeper _ ih => exact ih

theorem remaining_le (reachable : Reachable tokens state) : state.remaining ≤ tokens.length := by
  induction reachable with
  | start => exact Nat.le_of_lt_succ (ofTokens_fits tokens).fewer
  | behind _ reads ih => exact Nat.le_trans reads.remaining_le ih
  | entered _ ih | deeper _ ih => exact ih

theorem fits (reachable : Reachable tokens state) {room : Nat} (enough : state.remaining ≤ room) :
    state.Fits (room + 1) :=
  ⟨reachable.lawful, Nat.lt_succ_of_le enough⟩

/-- A scope is always open. -/
theorem layers_ne_nil (reachable : Reachable tokens state) : state.scopes.layers ≠ [] := by
  induction reachable with
  | start => exact List.cons_ne_nil _ _
  | behind _ reads ih => exact (reads.layers (fun _ _ => trivial) ih).ne_nil ih
  | entered _ _ => exact List.cons_ne_nil _ _
  | deeper _ ih => exact ih

end Reachable

end GrammarState

end OpenCLTree
