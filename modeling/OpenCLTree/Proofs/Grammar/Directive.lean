import OpenCLTree.Proofs.Grammar.Builds
import OpenCLTree.Grammar.Directive

namespace OpenCLTree

/-- The node of a pragma reads the marker and the line, whatever it makes of them. -/
theorem pragmaNode_reads {first last : GrammarState} {marker : Token} {line : List Token}
    (reads : Reads first (marker.toChild :: line.map Token.toChild) last) :
    Reads first [(pragmaNode marker line).toChild] last := by
  unfold pragmaNode
  split
  · rename_i vendor word name colon behavior
    split
    · have named := reads.leafAt [marker.toChild, vendor.toChild, word.toChild] rfl
        fun _ => .identifier name
      have told := named.leafAt [marker.toChild, vendor.toChild, word.toChild, _, colon.toChild]
        rfl fun _ => .identifier behavior
      exact told.wrap rfl (.plain rfl (by simp))
    · exact reads.wrap rfl (.plain rfl (by simp))
  · rename_i vendor version
    split
    · have wrapped (reports : List ParseError) : Composes reports .numberLiteral [version.toChild] :=
        .plain rfl (by simp)
      exact (reads.leafAt [marker.toChild, vendor.toChild] rfl wrapped).wrap rfl
        (.plain rfl (by simp))
    · exact reads.wrap rfl (.plain rfl (by simp))
  · exact reads.wrap (by simp) (.plain rfl (by simp))

namespace Rule

variable {state : GrammarState} {room : Nat}

theorem restOfLine_builds (fits : state.Fits room) : restOfLine.Builds state := by
  refine many_builds fits (by simp) fun state _ => ?_
  unfold Builds
  rw [meets_bind, meets_current]
  cases current : state.cursor.peek? 0 with
  | none => exact .nothing state
  | some token =>
    dsimp only
    split
    · exact .nothing state
    · refine (ReadsWith.nothing state).step (advance_meets current) fun _ _ _ sofar => ?_
      exact sofar

theorem pragmaLine_builds (fits : state.Fits room) : pragmaLine.Builds state := by
  refine (ReadsWith.nothing state).step (expect_builds _ _) fun marker _ _ sofar => ?_
  refine sofar.step (restOfLine_builds (sofar.fits fits)) fun line _ _ sofar => ?_
  exact pragmaNode_reads (by simpa using sofar)

theorem directiveLine_builds (fits : state.Fits room) : directiveLine.Builds state := by
  refine (ReadsWith.nothing state).step (expect_builds _ _) fun marker _ _ sofar => ?_
  refine sofar.step (restOfLine_builds (sofar.fits fits)) fun line _ _ sofar => ?_
  exact sofar.wrap (by simp) (.plain rfl (by simp))

end Rule

end OpenCLTree
