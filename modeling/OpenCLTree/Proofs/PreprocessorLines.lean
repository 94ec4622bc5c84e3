import OpenCLTree.Proofs.Classification

namespace OpenCLTree

/-- Whether the words of a line tell what to do with an extension. -/
def IsExtensionLine (line : List Token) : Prop :=
  ∃ name behavior, line.map (·.text) = ["OPENCL", "EXTENSION", name, ":", behavior] ∧
    (line.map (·.kind))[2]? = some .identifier ∧
    (name = "all" ∨ ∃ rest, rest ≠ "" ∧ name = "cl_" ++ rest) ∧
    behavior ∈ ["enable", "disable", "require", "warn"]

/-- Whether the words of a line are those of a language version. -/
def IsVersionLine (line : List Token) : Prop :=
  ∃ version, line.map (·.text) = ["OPENCL", version] ∧ (line.map (·.kind))[1]? = some .number ∧
    version ∈ ["1.0", "1.1", "1.2", "2.0", "3.0"]

/-- Whether a kind is the one of the node for a marker and the line behind it. -/
structure NodeKind.FitsLine (kind : NodeKind) (marker : Token) (line : List Token) : Prop where
  directive : kind = .preprocDirective ↔ marker.kind = .directive
  extension : kind = .pragmaDirective ↔ marker.kind = .pragma ∧ IsExtensionLine line
  version : kind = .versionPragma ↔ marker.kind = .pragma ∧ IsVersionLine line
  other : kind = .pragmaLine ↔
    marker.kind = .pragma ∧ ¬ IsExtensionLine line ∧ ¬ IsVersionLine line

/-- Whether the leaves of a node are a marker in a stream and what stands behind it up to the first
token of another line, and its kind is the one for this line. -/
def Node.TakesLine (tokens : List Token) (node : Node) : Prop :=
  ∃ before marker after, tokens = before ++ marker :: after ∧
    node.leaves = marker :: after.takeWhile (fun token => !token.newlineBefore) ∧
    (∀ leaf ∈ node.leaves, leaf.kind ≠ .swizzle) ∧
    node.kind.FitsLine marker (after.takeWhile fun token => !token.newlineBefore)

/-- Whether the nodes for lines of the preprocessor in a tree, wherever they stand, take those of a
stream. -/
def Tree.TakesLines (tokens : List Token) (tree : Tree) : Prop :=
  ∀ node ∈ tree.root.descendants, node.kind.isLine = true → node.TakesLine tokens

theorem isExtensionName_iff (name : String) :
    isExtensionName name = true ↔ name = "all" ∨ ∃ rest, rest ≠ "" ∧ name = "cl_" ++ rest := by
  unfold isExtensionName
  simp only [Bool.or_eq_true, beq_iff_eq, Bool.and_eq_true, decide_eq_true_eq, List.isPrefixOf_iff_prefix]
  refine or_congr Iff.rfl ⟨?_, ?_⟩
  · rintro ⟨⟨rest, split⟩, longer⟩
    have name_eq : name = "cl_" ++ String.ofList rest := by
      rw [← String.toList_inj, String.toList_append, String.toList_ofList, String.toList_ofList]
      exact split.symm
    refine ⟨String.ofList rest, ?_, name_eq⟩
    rintro none
    rw [name_eq, none] at longer
    exact absurd longer (by decide)
  · rintro ⟨rest, nonempty, rfl⟩
    refine ⟨⟨rest.toList, by rw [String.toList_append]; rfl⟩, ?_⟩
    rw [String.length_append]
    exact Nat.lt_add_of_pos_right (Nat.pos_of_ne_zero (mt String.length_eq_zero_iff.mp nonempty))

section Pragma

variable {line : List Token} {marker vendor word name colon behavior version : Token}

theorem isExtensionLine_iff : IsExtensionLine [vendor, word, name, colon, behavior] ↔
    vendor.text = "OPENCL" ∧ word.text = "EXTENSION" ∧ colon.text = ":" ∧ name.kind = .identifier ∧
      isExtensionName name.text = true ∧ pragmaBehaviors.contains behavior.text = true := by
  rw [isExtensionName_iff]
  simp [IsExtensionLine, pragmaBehaviors, and_assoc]

theorem isVersionLine_iff : IsVersionLine [vendor, version] ↔
    vendor.text = "OPENCL" ∧ version.kind = .number ∧ pragmaVersions.contains version.text = true := by
  simp [IsVersionLine, pragmaVersions]

theorem IsExtensionLine.words (extension : IsExtensionLine line) :
    ∃ vendor word name colon behavior, line = [vendor, word, name, colon, behavior] := by
  obtain ⟨name, behavior, texts, _⟩ := extension
  simp only [List.map_eq_cons_iff, List.map_eq_nil_iff] at texts
  obtain ⟨_, _, rfl, _, _, _, rfl, _, _, _, rfl, _, _, _, rfl, _, _, _, rfl, _, rfl⟩ := texts
  exact ⟨_, _, _, _, _, rfl⟩

theorem IsVersionLine.words (version : IsVersionLine line) :
    ∃ vendor version, line = [vendor, version] := by
  obtain ⟨version, texts, _⟩ := version
  simp only [List.map_eq_cons_iff, List.map_eq_nil_iff] at texts
  obtain ⟨_, _, rfl, _, _, _, rfl, _, rfl⟩ := texts
  exact ⟨_, _, rfl⟩

theorem IsExtensionLine.not_isVersionLine (extension : IsExtensionLine line) : ¬ IsVersionLine line := by
  intro version
  obtain ⟨_, _, _, _, _, rfl⟩ := extension.words
  obtain ⟨_, _, words⟩ := version.words
  cases words

/-- The kind of the node of a pragma is the one that the words on its line ask for. -/
theorem kind_pragmaNode (marker : Token) (line : List Token) :
    IsExtensionLine line ∧ (pragmaNode marker line).kind = .pragmaDirective ∨
    IsVersionLine line ∧ (pragmaNode marker line).kind = .versionPragma ∨
    (¬ IsExtensionLine line ∧ ¬ IsVersionLine line) ∧ (pragmaNode marker line).kind = .pragmaLine := by
  unfold pragmaNode
  split
  · split
    · rename_i holds
      exact .inl ⟨isExtensionLine_iff.mpr holds, rfl⟩
    · rename_i fails
      refine .inr (.inr ⟨⟨mt isExtensionLine_iff.mp fails, fun version => ?_⟩, rfl⟩)
      obtain ⟨_, _, words⟩ := version.words
      cases words
  · split
    · rename_i holds
      exact .inr (.inl ⟨isVersionLine_iff.mpr holds, rfl⟩)
    · rename_i fails
      refine .inr (.inr ⟨⟨fun extension => ?_, mt isVersionLine_iff.mp fails⟩, rfl⟩)
      obtain ⟨_, _, _, _, _, words⟩ := extension.words
      cases words
  · rename_i noFive noTwo
    refine .inr (.inr ⟨⟨fun extension => ?_, fun version => ?_⟩, rfl⟩)
    · obtain ⟨_, _, _, _, _, words⟩ := extension.words
      exact noFive _ _ _ _ _ words
    · obtain ⟨_, _, words⟩ := version.words
      exact noTwo _ _ words

theorem leaves_pragmaNode (marker : Token) (line : List Token) :
    (pragmaNode marker line).leaves = marker :: line := by
  unfold pragmaNode
  split <;> try split
  all_goals simp [pragmaNode.otherLine, Node.leaves_make, Node.ofToken, Node.as, Token.toChild]

end Pragma

namespace Node.OfLine

variable {marker : Token} {line : List Token} {node : Node}

theorem leaves (made : node.OfLine marker line) : node.leaves = marker :: line := by
  cases made with
  | pragma => exact leaves_pragmaNode marker line
  | directive => simp [leaves_make, Token.as]

theorem fitsLine (made : node.OfLine marker line) : node.kind.FitsLine marker line := by
  cases made with
  | pragma isMarker =>
    rcases kind_pragmaNode marker line with
      ⟨extension, kind⟩ | ⟨version, kind⟩ | ⟨⟨noExtension, noVersion⟩, kind⟩
    · have noVersion := extension.not_isVersionLine
      rw [kind]
      constructor <;> simp [isMarker, extension, noVersion]
    · have noExtension : ¬ IsExtensionLine line := fun extension => extension.not_isVersionLine version
      rw [kind]
      constructor <;> simp [isMarker, version, noExtension]
    · rw [kind]
      constructor <;> simp [isMarker, noExtension, noVersion]
  | directive isMarker =>
    constructor <;> simp [isMarker]

end Node.OfLine

section Located

variable {size : Nat} {tokens line : List Token} {marker : Token} (place : Span → Span)

theorem isExtensionLine_mapSpan : IsExtensionLine (line.map (·.mapSpan place)) ↔ IsExtensionLine line := by
  simp only [IsExtensionLine, List.map_map]
  rfl

theorem isVersionLine_mapSpan : IsVersionLine (line.map (·.mapSpan place)) ↔ IsVersionLine line := by
  simp only [IsVersionLine, List.map_map]
  rfl

/-- What a line is made into does not depend on where it stands. -/
theorem NodeKind.FitsLine.mapSpan {kind : NodeKind} (fits : kind.FitsLine marker line) :
    kind.FitsLine (marker.mapSpan place) (line.map (·.mapSpan place)) where
  directive := fits.directive
  extension := by
    rw [isExtensionLine_mapSpan]
    exact fits.extension
  version := by
    rw [isVersionLine_mapSpan]
    exact fits.version
  other := by
    rw [isExtensionLine_mapSpan, isVersionLine_mapSpan]
    exact fits.other

/-- A line that is located ends in front of the first token behind the marker that a newline stands
before. -/
theorem IsLine.located (ordered : Token.Ordered size 0 tokens) (simple : ∀ token ∈ tokens, token.IsSimple)
    (taken : IsLine tokens marker line) :
    ∃ before after, tokens = before ++ marker.mapSpan (Span.placeIn tokens size) :: after ∧
      line.map (·.mapSpan (Span.placeIn tokens size)) =
        after.takeWhile (fun token => !token.newlineBefore) := by
  obtain ⟨start, stop, covers, ends⟩ := taken.covers
  have plain : ∀ leaf ∈ (marker :: line).map (·.mapSpan (Span.placeIn tokens size)),
      leaf.kind ≠ .swizzle :=
    List.forall_mem_map.mpr taken.plain
  have whole := covers.parts ordered simple
  rw [Token.flatMap_parts plain, List.map_cons] at whole
  have within : ∀ token ∈ line.map (·.mapSpan (Span.placeIn tokens size)),
      (!token.newlineBefore) = true := by
    refine List.forall_mem_map.mpr fun leaf member => ?_
    rw [Token.mapSpan, taken.within leaf member]
    rfl
  -- The next token begins a line of its own, if there is one.
  have behindLine : (tokens.drop stop).takeWhile (fun token => !token.newlineBefore) = [] := by
    cases behind : tokens.drop stop with
    | nil => rfl
    | cons token rest =>
      have atNext : tokens[stop]? = some token := by
        rw [← Nat.add_zero stop, ← List.getElem?_drop, behind, List.getElem?_cons_zero]
      rw [List.takeWhile_cons, ends token atNext]
      rfl
  refine ⟨tokens.take start, line.map (·.mapSpan (Span.placeIn tokens size)) ++ tokens.drop stop, ?_, ?_⟩
  · have split : tokens.take start ++ ((tokens.drop start).take (stop - start) ++
        (tokens.drop start).drop (stop - start)) = tokens := by
      rw [List.take_append_drop, List.take_append_drop]
    rw [← whole, List.drop_drop, Nat.add_sub_cancel' covers.tiles.start_le_stop, List.cons_append] at split
    exact split.symm
  · rw [List.takeWhile_append_of_pos within, behindLine, List.append_nil]

end Located

/-- Wherever a line of the preprocessor stands, it takes its marker and all that is left of the line,
and it is an extension, a language version or any other pragma just as the words on it say. -/
theorem parse_lines (source : String) : (parse source).tree.TakesLines (tokenize source).1 := by
  intro node member isLine
  rcases Node.mem_descendants_iff.mp member with rfl | below
  · rw [parse_root] at isLine
    cases isLine
  · obtain ⟨inner, shaped, _, rfl⟩ := parse_shaped source node below
    rw [Node.kind_mapSpan] at isLine
    obtain ⟨marker, line, taken, made⟩ := shaped.line isLine
    obtain ⟨before, after, split, located⟩ :=
      taken.located (tokenize_ordered source) (tokenize_simple source)
    refine ⟨before, _, after, split, ?_, ?_, ?_⟩
    · rw [Node.leaves_mapSpan, made.leaves, List.map_cons, located]
    · rw [Node.leaves_mapSpan, made.leaves]
      exact List.forall_mem_map.mpr taken.plain
    · rw [← located, Node.kind_mapSpan]
      exact made.fitsLine.mapSpan _

end OpenCLTree
