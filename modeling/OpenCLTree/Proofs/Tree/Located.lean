import OpenCLTree.Proofs.Tree.Classified
import OpenCLTree.Proofs.Tree.MapTokens
import OpenCLTree.Proofs.Tree.Qualified

namespace OpenCLTree

namespace QualifierSet

theorem contains_mapSpan (place : Span → Span) (set : QualifierSet) (qualifier : Qualifier) :
    (set.mapSpan place).contains qualifier = set.contains qualifier := by
  rw [contains, mapSpan, List.any_map]
  rfl

theorem ofEntries_mapSpan (place : Span → Span) (entries : List QualifierEntry) :
    ofEntries (entries.map fun entry => ⟨entry.qualifier, place entry.span⟩) =
      (ofEntries entries).mapSpan place := by
  have from_ (set : QualifierSet) :
      (entries.map fun entry => (⟨entry.qualifier, place entry.span⟩ : QualifierEntry)).foldl
        (fun set entry => (set.insert entry.qualifier entry.span).toOption.getD set) (set.mapSpan place) =
      (entries.foldl (fun set entry =>
        (set.insert entry.qualifier entry.span).toOption.getD set) set).mapSpan place := by
    induction entries generalizing set with
    | nil => rfl
    | cons entry rest ih =>
      rw [List.map_cons, List.foldl_cons, List.foldl_cons, insert_mapSpan, ← ih]
      cases set.insert entry.qualifier entry.span <;> rfl
  exact from_ .empty

end QualifierSet

namespace Node

variable (place : Span → Span)

mutual

/-- Where the tokens of a tree stand does not matter to the tree if they are changed as though they
stood elsewhere. -/
theorem mapTokens_mapSpan (change : Token → Token) (node : Node) :
    (node.mapSpan place).mapTokens change = node.mapTokens fun token => change (token.mapSpan place) := by
  cases node with
  | mk kind span children =>
    rw [mapSpan, mapTokens, mapTokens, mapTokensOfChildren_mapSpan change children]

theorem mapTokensOfChildren_mapSpan (change : Token → Token) (children : List Child) :
    mapTokensOfChildren change (mapSpanOfChildren place children) =
      mapTokensOfChildren (fun token => change (token.mapSpan place)) children := by
  match children with
  | [] => rw [mapSpanOfChildren, mapTokensOfChildren, mapTokensOfChildren]
  | .token field leaf :: rest =>
    rw [mapSpanOfChildren, mapTokensOfChildren, mapTokensOfChildren, mapTokensOfChildren_mapSpan change rest]
    rfl
  | .node field inner :: rest =>
    rw [mapSpanOfChildren, mapTokensOfChildren, mapTokensOfChildren, mapTokens_mapSpan change inner,
      mapTokensOfChildren_mapSpan change rest]

end

/-- Moved trees are the same without their places. -/
theorem mapTokens_unplaced (node : Node) :
    (node.mapSpan place).mapTokens Token.unplaced = node.mapTokens Token.unplaced :=
  mapTokens_mapSpan place Token.unplaced node

theorem declaresFunction_mapSpan (node : Node) :
    (node.mapSpan place).declaresFunction = node.declaresFunction := by
  rw [← declaresFunction_mapTokens Token.unplaced, mapTokens_unplaced, declaresFunction_mapTokens]

theorem mayBeVector_mapSpan (node : Node) : (node.mapSpan place).mayBeVector = node.mayBeVector := by
  rw [← mayBeVector_mapTokens Token.unplaced, mapTokens_unplaced, mayBeVector_mapTokens]

theorem parameterNames_mapSpan (node : Node) :
    (node.mapSpan place).parameterNames = node.parameterNames := by
  have text (token : Token) : token.unplaced.text = token.text := rfl
  rw [← parameterNames_mapTokens Token.unplaced _ text, mapTokens_unplaced, parameterNames_mapTokens _ _ text]

theorem declaredText_mapSpan (node : Node) :
    (node.mapSpan place).declaratorName?.map (·.text) = node.declaratorName?.map (·.text) := by
  have same := congrArg (·.map (·.text)) (congrArg declaratorName? (mapTokens_unplaced place node))
  simpa only [declaratorName?_mapTokens, Option.map_map, Function.comp_def, Token.unplaced, Token.mapSpan]
    using same

theorem namesFunction_mapSpan (node : Node) :
    (node.mapSpan place).NamesFunction ↔ node.NamesFunction := by
  rw [← declaresFunction_iff, declaresFunction_mapSpan, declaresFunction_iff]

theorem firstDeclarator?_mapSpan (node : Node) :
    (node.mapSpan place).firstDeclarator? = node.firstDeclarator?.map (·.mapSpan place) := by
  rw [firstDeclarator?, fieldNode?_mapSpan, firstDeclarator?]
  cases node.fieldNode? .declarator with
  | none => rfl
  | some declarator =>
    simp only [Option.map_some, Option.bind_some, kind_mapSpan, fieldNode?_mapSpan]
    split <;> rfl

theorem qualifierEntry?_mapSpan (node : Node) : Node.qualifierEntry? (node.mapSpan place) =
    node.qualifierEntry?.map fun entry => ⟨entry.qualifier, place entry.span⟩ := by
  unfold qualifierEntry?
  rw [kind_mapSpan, childTokens_mapSpan]
  split
  · rcases node.childTokens with _ | ⟨⟨kind, text, span, newline⟩, rest⟩
    · rfl
    · cases kind <;> rfl
  · rfl

theorem qualifierSet_mapSpan (node : Node) :
    (node.mapSpan place).qualifierSet = node.qualifierSet.mapSpan place := by
  have entries : (node.mapSpan place).childNodes.filterMap qualifierEntry? =
      (node.childNodes.filterMap qualifierEntry?).map fun entry => ⟨entry.qualifier, place entry.span⟩ := by
    rw [childNodes, children_mapSpan, nodes_mapSpanOfChildren, List.filterMap_map, List.map_filterMap]
    exact congrArg (List.filterMap · _) (funext fun node => qualifierEntry?_mapSpan place node)
  unfold qualifierSet
  rw [entries]
  exact QualifierSet.ofEntries_mapSpan place _

theorem length_fieldsNamed_mapSpan (node : Node) (field : Field) :
    ((node.mapSpan place).fieldsNamed field).length = (node.fieldsNamed field).length := by
  have fields (child : Child) : (child.mapSpan place).field? = child.field? := by
    cases child <;> rfl
  rw [fieldsNamed, children_mapSpan, mapSpanOfChildren_eq, List.filter_map, List.length_map, fieldsNamed]
  simp only [Function.comp_def, fields]

/-- How a declaration is classified does not depend on where it stands. -/
theorem IsClassified.mapSpan {node : Node} (classified : node.IsClassified) :
    (node.mapSpan place).IsClassified where
  type := (length_fieldsNamed_mapSpan place node .type).trans classified.type
  kernel isKernel := by
    rw [qualifierSet_mapSpan, QualifierSet.contains_mapSpan]
    exact classified.kernel ((kind_mapSpan place node).symm.trans isKernel)
  function isFunction := by
    rw [qualifierSet_mapSpan, QualifierSet.contains_mapSpan, QualifierSet.contains_mapSpan]
    exact classified.function ((kind_mapSpan place node).symm.trans isFunction)
  defined isDefinition := by
    rw [kind_mapSpan] at isDefinition
    obtain ⟨⟨declarator, atDeclarator, function⟩, body, atBody, compound⟩ := classified.defined isDefinition
    refine ⟨⟨declarator.mapSpan place, ?_, (namesFunction_mapSpan place declarator).mpr function⟩,
      body.mapSpan place, ?_, by rwa [kind_mapSpan]⟩
    · rw [fieldNode?_mapSpan, atDeclarator, Option.map_some]
    · rw [fieldNode?_mapSpan, atBody, Option.map_some]
  typedef declaration := by
    rw [kind_mapSpan] at declaration ⊢
    rw [qualifierSet_mapSpan, QualifierSet.contains_mapSpan, QualifierSet.contains_mapSpan]
    exact classified.typedef declaration

theorem IsReported.mapSpan {node : Node} {reports : List ParseError} (reported : node.IsReported reports) :
    (node.mapSpan place).IsReported (reports.map (·.mapSpan place)) := by
  obtain ⟨declarator, first, report⟩ := reported
  refine ⟨declarator.mapSpan place, by rw [firstDeclarator?_mapSpan, first, Option.map_some], ?_⟩
  rw [namesFunction_mapSpan, kind_mapSpan, span_mapSpan]
  rcases report with ⟨function, name, atName, report⟩ | ⟨other, report⟩
  · have text := declaredText_mapSpan place declarator
    rw [atName, Option.map_some] at text
    obtain ⟨name', atName', same⟩ := Option.map_eq_some_iff.mp text
    exact .inl ⟨function, name', atName', same ▸ List.mem_map_of_mem report⟩
  · exact .inr ⟨other, List.mem_map_of_mem report⟩

end Node

end OpenCLTree
