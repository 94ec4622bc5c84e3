import OpenCLTree.Proofs.Derivation.Derives

namespace OpenCLTree

theorem braceDepth_append (front back : List Token) :
    braceDepth (front ++ back) = braceDepth front + braceDepth back := by
  induction front with
  | nil => simp [braceDepth]
  | cons token rest ih => simp [braceDepth, ih, Int.add_assoc]

theorem outside_of_isSyncPoint {scopes : Scopes} {level : RecoveryLevel} {depth : Int} {token : Token}
    (stop : isSyncPoint scopes level depth token = true) :
    depth ≤ 0 ∨ token.kind = .pragma ∨ token.kind = .directive := by
  unfold isSyncPoint at stop
  split at stop
  · rename_i kind
    exact .inr (.inl kind)
  · rename_i kind
    exact .inr (.inr kind)
  · exact .inl (of_decide_eq_true stop)
  · simp only [Bool.and_eq_true, decide_eq_true_eq] at stop
    exact .inl stop.1.1

/-- Whether the last of some tokens is the one in front of the place of a state. -/
def Token.EndAt (leaves : List Token) (state : GrammarState) : Prop :=
  ∀ leaf, leaves.getLast? = some leaf → leaf.span.stop = state.cursor.place

theorem Cursor.endAt_takenSince (state : GrammarState) (checkpoint : Cursor) :
    Token.EndAt (state.cursor.takenSince checkpoint) state := by
  intro leaf last
  rw [takenSince, List.getLast?_reverse, List.head?_take] at last
  split at last
  · cases last
  · cases atTaken : state.cursor.taken with
    | nil => simp [atTaken] at last
    | cons token rest =>
      simp only [atTaken, List.head?_cons, Option.some.injEq] at last
      rw [Cursor.place, atTaken, last]

namespace Rule

variable {tokens : List Token} {level : RecoveryLevel} {first state : GrammarState}

/-- Skipping ends outside all braces that it has seen opened, or where it always ends. -/
theorem skipToSync_leads {taken : List Token} (keeps : Onward tokens first state)
    (ends : Token.EndAt taken state) :
    (skipToSync level taken).Leads state
      (fun leaves after => Onward tokens first after ∧
        (Node.make .error (leaves.map Token.toChild)).ClosesBraces tokens)
      (Onward tokens first) := by
  have closes {leaves : List Token} (outside : ∀ leaf, leaves.getLast? = some leaf →
      braceDepth leaves ≤ 0 ∨ ∀ next, tokens[leaf.span.stop]? = some next →
        next.kind = .pragma ∨ next.kind = .directive) :
      (Node.make .error (leaves.map Token.toChild)).ClosesBraces tokens := by
    intro _ leaf last
    rw [Node.leaves_make, Node.leavesOfChildren_tokens] at last ⊢
    exact outside leaf last
  refine Leads.loop (fun soFar after => Onward tokens first after ∧ Token.EndAt soFar after) ?_
    ⟨keeps, ends⟩
  rintro soFar s1 ⟨keeps, ends⟩
  rw [leads_bind, leads_current]
  cases current : s1.cursor.peek? 0 with
  | none =>
    refine ⟨keeps, closes fun leaf last => .inr fun next atNext => ?_⟩
    rw [ends leaf last, keeps.ready.current_none current] at atNext
    cases atNext
  | some token =>
    obtain ⟨listed, atPlace, rfl⟩ := keeps.ready.current current
    dsimp only
    rw [leads_bind, leads_scopes]
    split
    · rename_i stop
      refine ⟨keeps, closes fun leaf last => ?_⟩
      rw [ends leaf last, atPlace]
      simp only [Option.some.injEq, forall_eq']
      simp only [Bool.and_eq_true] at stop
      exact outside_of_isSyncPoint stop.2
    · rw [leads_bind]
      refine (advance_leads keeps.ready current).mono ?_ fun _ failed => keeps.trans failed
      intro _ s2 read
      have sofar := keeps.trans read.toOnward
      have stops : Token.EndAt (soFar ++ [listed.mapSpan fun _ => ⟨s1.cursor.place, s1.cursor.place + 1⟩])
          s2 := by
        intro leaf last
        rw [List.getLast?_concat, Option.some.injEq] at last
        subst last
        have covers := read.covers (by simp [Token.toChild, Child.nodes, Node.errors_nil])
        rw [Token.toChild, Node.leavesOfChildren_token, Node.leavesOfChildren_nil] at covers
        exact covers.stop_eq.symm
      split
      · rename_i semicolon
        refine ⟨sofar, closes fun _ _ => .inl ?_⟩
        rw [braceDepth_append]
        simpa [braceDepth, braceChange, semicolon.1] using semicolon.2
      · exact ⟨sofar, stops⟩

theorem recover_leads {start : Snapshot} {error : ParseError} (keeps : Onward tokens first state) :
    (recover start error level).Leads state
      (fun node after => Derivation tokens first [node.toChild] after ∧ node.kind = .error)
      (Onward tokens first) := by
  have mode : state.cursor.setMode .normal = state.cursor := by
    rw [← keeps.ready.mode]
    rfl
  unfold recover
  rw [leads_bind, report, leads_modify, leads_bind, setMode, leads_modify, leads_bind, leads_get]
  simp only [mode]
  rw [leads_bind]
  refine (skipToSync_leads (keeps.report error) (Cursor.endAt_takenSince state start.cursor)).mono
    (fun leaves after known => ?_) fun _ failed => failed
  exact ⟨.error _ known.1 known.2, rfl⟩

/-- An item that fails is read as an error node. -/
theorem recovering_leads {item : Rule Node} {done : Node → GrammarState → Prop}
    (leads : item.Leads state done (Onward tokens state))
    (failed : ∀ node after, Derivation tokens state [node.toChild] after → node.kind = .error →
      done node after) :
    (recovering level item).Leads state done (Onward tokens state) := by
  unfold recovering snapshot
  rw [leads_bind, leads_bind, leads_get, leads_pure, leads_bind]
  refine leads_attempt item (leads.mono (fun _ _ known => known) fun after keeps error => ?_)
  exact (recover_leads keeps).mono (fun node last known => failed node last known.1 known.2)
    fun _ keeps => keeps

end Rule

end OpenCLTree
