import OpenCLTree.Proofs.Grammar.Builds
import OpenCLTree.Grammar.Recovery

namespace OpenCLTree

namespace Rule

variable {remarks : Prop} {level : RecoveryLevel} {room : Nat} {first failure state : GrammarState}
  {children : List Child}

/-- Skipping adds tokens to those there are, and ends with one at least. -/
theorem skipToSync_reads {taken : List Token} (some : taken = [] → state.cursor.peek? 0 ≠ none) :
    (skipToSync level taken).Meets state
      (fun tokens after => tokens ≠ [] ∧ ∃ skipped, tokens = taken ++ skipped ∧
        Reads state (skipped.map Token.toChild) after)
      fun _ _ => False := by
  unfold skipToSync
  refine Meets.loop (fun tokens after => (tokens = [] → after.cursor.peek? 0 ≠ none) ∧
    ∃ skipped, tokens = taken ++ skipped ∧ Reads state (skipped.map Token.toChild) after) ?_
    ⟨some, [], by simp, .nothing state⟩
  rintro soFar s1 ⟨here, skipped, rfl, sofar⟩
  rw [meets_bind, meets_current]
  cases current : s1.cursor.peek? 0 with
  | none => exact ⟨fun empty => here empty current, skipped, rfl, sofar⟩
  | some token =>
    dsimp only
    rw [meets_bind, meets_scopes]
    split
    · rename_i stop
      refine ⟨?_, skipped, rfl, sofar⟩
      intro empty
      simp [empty] at stop
    · rw [meets_bind]
      refine (advance_meets current).mono ?_ fun _ _ never => never
      intro _ s2 readToken
      have longer : ∃ more, taken ++ skipped ++ [token] = taken ++ more ∧
          Reads state (more.map Token.toChild) s2 :=
        ⟨skipped ++ [token], by simp, by simpa using sofar.join readToken⟩
      split
      · exact ⟨by simp, longer⟩
      · exact ⟨⟨by simp, longer⟩, readToken.remaining_lt (by simp)⟩

theorem setMode_mode (cursor : Cursor) : cursor.setMode cursor.mode = cursor := rfl

theorem takenSince_reads (reads : ReadsWith remarks first children state) :
    state.cursor.takenSince first.cursor = Node.leavesOfChildren children := by
  unfold Cursor.takenSince
  rw [reads.taken]
  simp

/-- Recovery makes an error node of all that the failed item took and of what is skipped. -/
theorem recover_reads {start : Snapshot} {error : ParseError} (cursor : start.cursor = first.cursor)
    (lawful : first.cursor.Lawful) (here : first.cursor.peek? 0 ≠ none)
    (reads : ReadsWith remarks first children failure) (grammatical : error.IsGrammatical) :
    (recover start error level).Meets failure
      (fun node after => ReadsWith remarks first [node.toChild] after ∧ node.kind = .error ∧
        failure.reports.length < after.reports.length) fun _ _ => False := by
  have mode : failure.cursor.setMode .normal = failure.cursor := by
    rw [← (reads.lawful lawful).mode, setMode_mode]
  unfold recover
  rw [meets_bind, meets_report, meets_bind, setMode, meets_modify, meets_bind, meets_get]
  simp only [GrammarState.report, mode, cursor, takenSince_reads reads]
  rw [meets_bind]
  have some : Node.leavesOfChildren children = [] →
      (failure.report error).cursor.peek? 0 ≠ none := by
    intro empty
    change failure.cursor.peek? 0 ≠ none
    rwa [reads.cursor_eq empty]
  refine (skipToSync_reads some).mono ?_ fun _ _ never => never
  rintro tokens after ⟨nonempty, skipped, rfl, skip⟩
  refine ⟨.recovered reads grammatical skip.allow nonempty, rfl, ?_⟩
  obtain ⟨added, atLast, _⟩ := skip.reports
  simp only [atLast, List.length_append, GrammarState.length_reports_report]
  omega

theorem recovering_builds {item : Rule Node} (lawful : state.cursor.Lawful)
    (here : state.cursor.peek? 0 ≠ none) (builds : item.Builds state) :
    (recovering level item).Builds state := by
  unfold recovering snapshot Builds
  rw [meets_bind, meets_bind, meets_get, meets_pure, meets_bind, meets_attempt]
  refine builds.mono (fun _ _ reads => reads) ?_
  rintro error failure ⟨grammatical, children, reads⟩
  exact (recover_reads rfl lawful here reads grammatical).mono (fun _ _ recovered => recovered.1)
    fun _ _ never => never.elim

end Rule

end OpenCLTree
