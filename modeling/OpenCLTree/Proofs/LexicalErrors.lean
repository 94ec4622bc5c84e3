import OpenCLTree.Proofs.Diagnostics
import OpenCLTree.Proofs.Lexical.Relexing

namespace OpenCLTree

variable {source : String}

/-- The lexical errors of a source come in the order of their offsets, one at most at each. -/
theorem tokenize_errors_sorted (source : String) :
    (tokenize source).2.Pairwise fun earlier later => earlier.offset < later.offset := by
  obtain ⟨_, reach, whole, _⟩ := (Lexer.ofText_along source.toList).drain
  have sorted := (Lexer.afterPieces_tidy source.toList reach).sorted
  rw [← whole.errors] at sorted
  exact List.pairwise_reverse.mpr sorted

/-- The diagnostics that tell of lexical errors tell of those of the source, in their order. -/
theorem filter_diagnostics_lexical (source : String) :
    ((parse source).diagnostics.filter (·.kind = .lexical)).map (·.error) =
      (tokenize source).2.map .lexical := by
  have lexical : (((tokenize source).2.map ParseError.lexical ++ grammarErrors source).filter
      (·.kind = .lexical)) = (tokenize source).2.map .lexical := by
    have grammatical : (grammarErrors source).filter (·.kind = .lexical) = [] := by
      rw [List.filter_eq_nil_iff]
      intro error member
      simpa using (grammarErrors_grammatical source error member).2
    rw [List.filter_append, grammatical, List.append_nil, List.filter_eq_self]
    simp [ParseError.kind]
  have filtered := filter_diagnostics_error source (·.kind = .lexical)
  rw [lexical, List.mergeSort_of_pairwise] at filtered
  · refine (congrArg (List.map (·.error)) filtered).trans ?_
    rw [List.map_map]
    exact List.map_id _
  · rw [List.map_map, List.pairwise_map]
    exact (tokenize_errors_sorted source).imp fun less => decide_eq_true (Nat.le_of_lt less)

/-- The lexical errors of a source are found once each, in order, however its tokens are read: as
diagnostics of the parsed source; and by any use of the token buffer, which looks ahead, goes back
and reads tokens again in another mode, as the first so far, and as all when no token is left. -/
theorem lexical_errors_complete (source : String) :
    ((parse source).diagnostics.filter (·.kind = .lexical)).map (·.error) =
      (tokenize source).2.map .lexical ∧
    ∀ steps, ∃ session, (BufferSession.ofText source.toList).run? steps = some session ∧
      session.buffer.lexer.takeErrors.1 <+: (tokenize source).2 ∧
      ∃ found buffer, session.buffer.peek? 0 = some (found, buffer) ∧
        (found = none → buffer.lexer.takeErrors.1 = (tokenize source).2) := by
  refine ⟨filter_diagnostics_lexical source, fun steps => ?_⟩
  have fresh := BufferSession.ofText_sound source.toList
  obtain ⟨session, run, sound⟩ := fresh.run? steps
  have traces := BufferSession.run?_traces fresh (TokenBuffer.ofText_traces _) run
  obtain ⟨found, buffer, peeked, _⟩ := sound.buffer.peek? 0
  obtain ⟨traces', ended⟩ := traces.peek? sound.buffer peeked
  obtain ⟨_, _, along, _⟩ := traces.along
  obtain ⟨_, _, along', _⟩ := traces'.along
  refine ⟨session, run, (tokenize_errors_of_along along).1, found, buffer, peeked, fun none => ?_⟩
  exact (tokenize_errors_of_along along').2 (traces'.ended (ended none))

end OpenCLTree
