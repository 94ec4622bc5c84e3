import OpenCLTree.Proofs.Diagnostics
import OpenCLTree.Proofs.Safety
import OpenCLTree.Proofs.Yields.SourceFile

namespace OpenCLTree

namespace Diagnostic

/-- Whether a diagnostic goes before another: its span starts earlier, or at the same place, and
then it is lexical if the other is. -/
def Precedes (one two : Diagnostic) : Prop :=
  one.span.start < two.span.start ∨
    one.span.start = two.span.start ∧ (two.kind = .lexical → one.kind = .lexical)

/-- Whether the position of a diagnostic is that of the start of its span, with lines counted by
line feeds and columns by characters. -/
def IsLocated (source : List Char) (diagnostic : Diagnostic) : Prop :=
  ∃ front back, source = front ++ back ∧ byteLength front = diagnostic.span.start ∧
    diagnostic.position = ⟨front.count '\n' + 1, (LineIndex.lastLine front).length + 1⟩

/-- Whether a diagnostic, if something is missing at the end of the source, has the empty span
there. -/
def EndsWith (source : List Char) (diagnostic : Diagnostic) : Prop :=
  ∀ expected span, diagnostic.error = .unexpectedEnd expected span →
    span = ⟨byteLength source, byteLength source⟩

end Diagnostic

/-- Whether a grammar keeps ambiguous casts to itself. The items, at the top level and in blocks,
are all that is recovered from: they fail with ordinary errors. A type in parentheses may be an
ambiguous cast, but the attempt to read one fails with nothing. And none of them reports anything
but ordinary errors. -/
structure Grammar.HidesAmbiguity (sub : Grammar) : Prop where
  topLevel : (topLevelItem sub).Ensures (fun _ => True) ParseError.IsOrdinary
  block : (blockItem sub).Ensures (fun _ => True) ParseError.IsOrdinary
  type : (parenthesizedType sub).Ensures (fun _ => True) fun error =>
    error.IsOrdinary ∨ error.kind = .ambiguousCast
  attempt : (tryParenthesizedType sub).Ensures (fun _ => True) fun _ => False

theorem Grammar.Sound.hidesAmbiguity {branch : Node → Prop} {sub : Grammar} (sound : sub.Sound branch) :
    sub.HidesAmbiguity where
  topLevel := (topLevelItem_yields sound).mono (fun _ _ => trivial) fun _ ordinary => ordinary
  block := (blockItem_yields sound).mono (fun _ _ => trivial) fun _ ordinary => ordinary
  type := (parenthesizedType_ensures sound).mono (fun _ _ => trivial) fun _ known => known
  attempt := (tryParenthesizedType_ensures sound).mono (fun _ _ => trivial) fun _ never => never

/-- A parenthesis with a type and an operator, as in `(int +`, is an ambiguous cast. -/
example : ∃ error after, parenthesizedType (Grammar.ofDepth 2) (.ofTokens [
    ⟨.punct .leftParen, "(", ⟨0, 1⟩, false⟩, ⟨.keyword .int, "int", ⟨1, 4⟩, false⟩,
    ⟨.punct .plus, "+", ⟨5, 6⟩, false⟩]) = .failed error after ∧ error.kind = .ambiguousCast :=
  ⟨_, _, rfl, rfl⟩

variable (source : String)

theorem diagnostics_precede : (parse source).diagnostics.Pairwise Diagnostic.Precedes := by
  have lexicalFirst : ((tokenize source).2.map ParseError.lexical ++ grammarErrors source).Pairwise
      fun one two => two.kind = .lexical → one.kind = .lexical := by
    refine List.pairwise_append.mpr ⟨?_, ?_, ?_⟩
    · exact List.pairwise_map.mpr (List.pairwise_of_forall fun _ _ _ => rfl)
    · refine List.pairwise_of_forall_mem_list fun one _ two member lexical => ?_
      exact absurd lexical (grammarErrors_grammatical source two member).2
    · refine List.forall_mem_map.mpr fun error _ two _ _ => rfl
  have located (place : ParseError → Position) :
      (((tokenize source).2.map ParseError.lexical ++ grammarErrors source).map fun error =>
        Diagnostic.mk error (place error)).Pairwise
          fun one two => two.kind = .lexical → one.kind = .lexical :=
    List.pairwise_map.mpr lexicalFirst
  rw [parse_diagnostics, Diagnostic.ofErrors, filter_ambiguousCast]
  refine (pairwise_mergeSort_stable Diagnostic.start_trans Diagnostic.start_total
    (located _)).imp fun {one two} ordered => ?_
  obtain ⟨notLater, tied⟩ := ordered
  obtain less | same := Nat.lt_or_eq_of_le (of_decide_eq_true notLater)
  · exact .inl less
  · exact .inr ⟨same, tied (decide_eq_true (Nat.le_of_eq same.symm))⟩

theorem diagnostics_located :
    ∀ diagnostic ∈ (parse source).diagnostics, diagnostic.IsLocated source.toList := by
  intro diagnostic member
  obtain ⟨front, back, split, atStart⟩ := (parse_diagnostics_usable source diagnostic member).1.start
  refine ⟨front, back, split, atStart, ?_⟩
  rw [parse_diagnostics, Diagnostic.ofErrors] at member
  obtain ⟨error, _, rfl⟩ := List.mem_map.mp (List.mem_mergeSort.mp member)
  have atStart : byteLength front = error.span.start := atStart
  change (LineIndex.ofText source.toList).position source.toList error.span.start = _
  rw [← atStart, split, LineIndex.position_eq]

/-- An empty span of tokens is placed at the end of the source. -/
theorem diagnostics_endWith :
    ∀ diagnostic ∈ (parse source).diagnostics, diagnostic.EndsWith source.toList := by
  intro diagnostic member expected span missing
  have found := (diagnostics_perm source).subset (List.mem_map_of_mem member)
  rw [missing] at found
  rcases List.mem_append.mp found with lexical | grammatical
  · obtain ⟨error, _, same⟩ := List.mem_map.mp lexical
    cases same
  · obtain ⟨error, reported, same⟩ := List.mem_map.mp grammatical
    have ordinary := (Reading.ofTokens_sound (tokenize source).1).2 error reported
    cases error <;> cases same
    rename_i inner
    have empty : inner.start = inner.stop := ordinary
    exact if_neg (Nat.lt_irrefl _ <| empty ▸ ·)

/-- The diagnostics of a source are in order, each at its position, and those of something missing
at the end lie there. They are all errors that were found, for no rule lets an ambiguous cast out. -/
theorem parse_diagnostics_ordered :
    (parse source).diagnostics.Pairwise Diagnostic.Precedes ∧
    (∀ diagnostic ∈ (parse source).diagnostics,
      diagnostic.IsLocated source.toList ∧ diagnostic.EndsWith source.toList) ∧
    ((parse source).diagnostics.map (·.error)).Perm
      ((tokenize source).2.map .lexical ++ grammarErrors source) ∧
    ∀ depth, (Grammar.ofDepth depth).HidesAmbiguity :=
  ⟨diagnostics_precede source,
    fun diagnostic member => ⟨diagnostics_located source diagnostic member,
      diagnostics_endWith source diagnostic member⟩,
    diagnostics_perm source, fun depth => (Grammar.ofDepth_sound depth).hidesAmbiguity⟩

end OpenCLTree
