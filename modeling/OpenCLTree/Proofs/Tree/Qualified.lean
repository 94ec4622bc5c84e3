import OpenCLTree.Proofs.Tree.Declarator
import OpenCLTree.Proofs.Tree.Operands
import OpenCLTree.Syntax.Diagnostic
import OpenCLTree.Syntax.QualifierSet

namespace OpenCLTree

namespace NodeKind

/-- The kinds of nodes that have qualifiers of their own. -/
def holdsQualifiers : NodeKind → Bool
  | .declaration | .typeDefinition | .functionDefinition | .kernelFunctionDefinition
  | .fieldDeclaration | .parameterDeclaration | .typeDescriptor | .pointerDeclarator
  | .abstractPointerDeclarator => true
  | _ => false

/-- Whether nodes of a kind are no qualifiers, not even ones that do not count. -/
def isApart (kind : NodeKind) : Bool :=
  kind != .error && !kind.isQualifier

theorem isApart_of_isDeclarator {kind : NodeKind} (isDeclarator : kind.isDeclarator = true) :
    kind.isApart = true := by
  cases kind <;> first | rfl | cases isDeclarator

end NodeKind

/-- Whether there is no qualifier among some children. -/
def Child.Apart (children : List Child) : Prop :=
  ∀ node ∈ nodes children, node.kind.isApart = true

namespace Child

variable {front back rest : List Child} {node : Node} {field : Option Field}

theorem apart_nil : Apart [] :=
  List.forall_mem_nil _

theorem apart_append : Apart (front ++ back) ↔ Apart front ∧ Apart back := by
  rw [Apart, nodes_append, List.forall_mem_append]
  rfl

theorem apart_node : Apart (.node field node :: rest) ↔ node.kind.isApart = true ∧ Apart rest :=
  List.forall_mem_cons

end Child

/-- Where a child stands among some and one more. -/
theorem Child.split_concat {children before after : List Child} {child last : Child}
    (found : children ++ [last] = before ++ child :: after) :
    children = before ∧ last = child ∨ ∃ rest, children = before ++ child :: rest := by
  rcases List.eq_nil_or_concat after with rfl | ⟨rest, final, rfl⟩
  · exact .inl ((List.append_inj' found rfl).imp_right List.singleton_inj.mp)
  · rw [List.concat_eq_append, ← List.cons_append, ← List.append_assoc] at found
    exact .inr ⟨rest, (List.append_inj' found rfl).1⟩

namespace QualifierSet

variable {set larger : QualifierSet} {qualifier : Qualifier} {span : Span}

/-- The set of some qualifiers, of which the first of each category counts. -/
def ofEntries (entries : List QualifierEntry) : QualifierSet :=
  entries.foldl (fun set entry => (set.insert entry.qualifier entry.span).toOption.getD set) .empty

theorem ofEntries_concat (entries : List QualifierEntry) (entry : QualifierEntry) :
    ofEntries (entries ++ [entry]) =
      ((ofEntries entries).insert entry.qualifier entry.span).toOption.getD (ofEntries entries) := by
  rw [ofEntries, List.foldl_append]
  rfl

theorem insert_eq_ok (inserted : set.insert qualifier span = .ok larger) :
    larger.entries = set.entries ++ [⟨qualifier, span⟩] ∧
      ∀ entry ∈ set.entries, entry.qualifier.category ≠ qualifier.category := by
  unfold insert at inserted
  split at inserted
  · cases inserted
  · rename_i free
    cases inserted
    refine ⟨rfl, fun entry member => ?_⟩
    simpa using List.find?_eq_none.mp free entry member

theorem insert_eq_error {earlier : QualifierEntry} (inserted : set.insert qualifier span = .error earlier) :
    earlier ∈ set.entries ∧ earlier.qualifier.category = qualifier.category := by
  unfold insert at inserted
  split at inserted
  · rename_i found
    cases inserted
    exact ⟨List.mem_of_find?_eq_some found, by simpa using List.find?_some found⟩
  · cases inserted

/-- Moves the places of all qualifiers. -/
def mapSpan (place : Span → Span) (set : QualifierSet) : QualifierSet :=
  ⟨set.entries.map fun entry => ⟨entry.qualifier, place entry.span⟩⟩

theorem get?_mapSpan (place : Span → Span) (category : QualifierCategory) :
    (set.mapSpan place).get? category =
      (set.get? category).map fun entry => ⟨entry.qualifier, place entry.span⟩ := by
  rw [get?, get?, mapSpan, List.find?_map]
  rfl

theorem insert_mapSpan (place : Span → Span) :
    (set.mapSpan place).insert qualifier (place span) =
      match set.insert qualifier span with
      | .ok larger => .ok (larger.mapSpan place)
      | .error earlier => .error ⟨earlier.qualifier, place earlier.span⟩ := by
  unfold insert
  rw [get?_mapSpan]
  cases set.get? qualifier.category with
  | some earlier => rfl
  | none => simp [mapSpan]

end QualifierSet

/-- The qualifier that a token is, with its place. -/
def Token.qualifier? (token : Token) : Option QualifierEntry :=
  match token.kind with
  | .qualifier qualifier => some ⟨qualifier, token.span⟩
  | _ => none

theorem Token.qualifier?_eq {token : Token} {qualifier : Qualifier}
    (kind : token.kind = .qualifier qualifier) :
    token.qualifier? = some ⟨qualifier, token.span⟩ := by
  rw [qualifier?, kind]

/-- How the qualifiers among some children make up a set: one whose category is already taken stands
in an error node, and its error is among those reported. -/
inductive Qualifies (reports : List ParseError) : List Child → QualifierSet → Prop
  | nothing : Qualifies reports [] .empty
  | other {children : List Child} {set : QualifierSet} {child : Child} :
      Qualifies reports children set → Child.Apart [child] →
      Qualifies reports (children ++ [child]) set
  | qualifier {children : List Child} {set larger : QualifierSet} {qualifier : Qualifier}
      {token : Token} :
      Qualifies reports children set → token.kind = .qualifier qualifier →
      set.insert qualifier token.span = .ok larger →
      Qualifies reports (children ++ [(Node.ofToken qualifier.nodeKind token).toChild]) larger
  | duplicate {children : List Child} {set : QualifierSet} {qualifier : Qualifier} {token : Token}
      {earlier : QualifierEntry} :
      Qualifies reports children set → token.kind = .qualifier qualifier →
      set.insert qualifier token.span = .error earlier →
      .duplicateQualifier qualifier.category earlier.span token.span ∈ reports →
      Qualifies reports (children ++ [(Node.ofToken .error token).toChild]) set

namespace Qualifies

variable {reports later : List ParseError} {children others : List Child} {set : QualifierSet}

theorem mono (qualifies : Qualifies reports children set) (kept : reports ⊆ later) :
    Qualifies later children set := by
  induction qualifies with
  | nothing => exact .nothing
  | other _ apart ih => exact ih.other apart
  | qualifier _ kind inserted ih => exact ih.qualifier kind inserted
  | duplicate _ kind inserted reported ih => exact ih.duplicate kind inserted (kept reported)

theorem append (qualifies : Qualifies reports children set) (apart : Child.Apart others) :
    Qualifies reports (children ++ others) set := by
  induction others generalizing children with
  | nil => simpa using qualifies
  | cons child rest ih =>
    obtain ⟨here, after⟩ := Child.apart_append.mp (show Child.Apart ([child] ++ rest) from apart)
    simpa using ih (qualifies.other here) after

/-- Qualifiers may as well stand behind children that are none. -/
theorem behind (qualifies : Qualifies reports children set) (apart : Child.Apart others) :
    Qualifies reports (others ++ children) set := by
  induction qualifies with
  | nothing => simpa using nothing.append apart
  | other _ here ih => exact List.append_assoc .. ▸ ih.other here
  | qualifier _ kind inserted ih => exact List.append_assoc .. ▸ ih.qualifier kind inserted
  | duplicate _ kind inserted reported ih =>
    exact List.append_assoc .. ▸ ih.duplicate kind inserted reported

end Qualifies

/-- The qualifiers written among some children, whether they count or not. -/
def Child.writtenQualifiers (children : List Child) : List QualifierEntry :=
  (nodes children).flatMap fun inner =>
    if inner.kind.isApart then [] else inner.childTokens.filterMap Token.qualifier?

theorem Child.writtenQualifiers_append (front back : List Child) :
    writtenQualifiers (front ++ back) = writtenQualifiers front ++ writtenQualifiers back := by
  rw [writtenQualifiers, nodes_append, List.flatMap_append]
  rfl

theorem Qualifier.isQualifier_nodeKind (qualifier : Qualifier) :
    qualifier.nodeKind.isQualifier = true := by
  cases qualifier <;> rfl

theorem Child.writtenQualifiers_ofToken {kind : NodeKind} {token : Token} {qualifier : Qualifier}
    (counts : kind.isApart = false) (isQualifier : token.kind = .qualifier qualifier) :
    writtenQualifiers [(Node.ofToken kind token).toChild] = [⟨qualifier, token.span⟩] := by
  simp [writtenQualifiers, Node.toChild, nodes, Node.ofToken, counts, Node.childTokens, tokens,
    Token.toChild, Token.qualifier?_eq isQualifier]

theorem Child.writtenQualifiers_apart {children : List Child} (apart : Apart children) :
    writtenQualifiers children = [] := by
  rw [writtenQualifiers, List.flatMap_eq_nil_iff]
  intro inner member
  rw [if_pos (apart inner member)]

theorem Node.qualifierEntry?_ofToken {token : Token} {qualifier : Qualifier}
    (kind : token.kind = .qualifier qualifier) :
    Node.qualifierEntry? (ofToken qualifier.nodeKind token) = some ⟨qualifier, token.span⟩ := by
  obtain ⟨_, text, span, newline⟩ := token
  cases kind
  unfold qualifierEntry?
  rw [ofToken, kind_make, if_pos qualifier.isQualifier_nodeKind]
  rfl

theorem Node.qualifierEntry?_of_not {node : Node} (other : node.kind.isQualifier = false) :
    node.qualifierEntry? = none := by
  unfold qualifierEntry?
  rw [other]
  rfl

theorem Child.mapSpan_ofToken (place : Span → Span) (kind : NodeKind) (token : Token) :
    (Node.ofToken kind token).toChild.mapSpan place =
      (Node.ofToken kind (token.mapSpan place)).toChild := by
  have extent (leaf : Token) : extent [leaf.toChild] = leaf.span := by
    simp [Child.extent, Token.toChild, Child.span, Span.cover]
  rw [Node.toChild, mapSpan, Node.ofToken, Node.make, Node.mapSpan, Node.mapSpanOfChildren_eq, extent,
    Node.ofToken, Node.make, List.map_singleton, Token.toChild, mapSpan, ← Token.toChild, extent]
  rfl

namespace Qualifies

variable {reports : List ParseError} {children : List Child} {set : QualifierSet}

/-- The entries of the set are those of the qualifier nodes, in order. -/
theorem entries (qualifies : Qualifies reports children set) :
    (Child.nodes children).filterMap Node.qualifierEntry? = set.entries := by
  induction qualifies with
  | nothing => rfl
  | @other _ _ child _ apart ih =>
    rw [Child.nodes_append, List.filterMap_append, ih, List.append_right_eq_self,
      List.filterMap_eq_nil_iff]
    intro node member
    refine Node.qualifierEntry?_of_not ?_
    have here := apart node member
    simp only [NodeKind.isApart, Bool.and_eq_true, Bool.not_eq_true'] at here
    exact here.2
  | qualifier _ kind inserted ih =>
    rw [Child.nodes_append, List.filterMap_append, ih, (QualifierSet.insert_eq_ok inserted).1,
      Node.toChild, Child.nodes, Child.nodes, List.filterMap_cons, Node.qualifierEntry?_ofToken kind]
    rfl
  | duplicate _ _ _ _ ih =>
    rw [Child.nodes_append, List.filterMap_append, ih, List.append_right_eq_self]
    rfl

/-- Every qualifier node has an entry. -/
theorem held (qualifies : Qualifies reports children set) : ∀ inner ∈ Child.nodes children,
    inner.kind.isQualifier = true → ∃ entry, inner.qualifierEntry? = some entry := by
  induction qualifies with
  | nothing => exact List.forall_mem_nil _
  | other _ apart ih =>
    rw [Child.nodes_append]
    refine List.forall_mem_append.mpr ⟨ih, fun inner member isQualifier => ?_⟩
    have here := apart inner member
    rw [NodeKind.isApart, isQualifier, Bool.not_true, Bool.and_false] at here
    cases here
  | qualifier _ kind _ ih =>
    rw [Child.nodes_append]
    refine List.forall_mem_append.mpr ⟨ih, List.forall_mem_singleton.mpr fun _ => ?_⟩
    exact ⟨_, Node.qualifierEntry?_ofToken kind⟩
  | duplicate _ _ _ _ ih =>
    rw [Child.nodes_append]
    refine List.forall_mem_append.mpr ⟨ih, List.forall_mem_singleton.mpr fun isQualifier => ?_⟩
    cases isQualifier

/-- No two of them have one category. -/
theorem distinct (qualifies : Qualifies reports children set) :
    set.entries.Pairwise fun one two => one.qualifier.category ≠ two.qualifier.category := by
  induction qualifies with
  | nothing => exact .nil
  | other _ _ ih | duplicate _ _ _ _ ih => exact ih
  | qualifier _ _ inserted ih =>
    obtain ⟨grown, free⟩ := QualifierSet.insert_eq_ok inserted
    rw [grown, List.pairwise_append]
    refine ⟨ih, List.pairwise_singleton _ _, fun entry member other isLast => ?_⟩
    rw [List.mem_singleton.mp isLast]
    exact free entry member

theorem ofEntries_entries (qualifies : Qualifies reports children set) :
    QualifierSet.ofEntries set.entries = set := by
  induction qualifies with
  | nothing => rfl
  | other _ _ ih | duplicate _ _ _ _ ih => exact ih
  | qualifier _ _ inserted ih =>
    rw [(QualifierSet.insert_eq_ok inserted).1, QualifierSet.ofEntries_concat, ih, inserted]
    rfl

/-- Inserting all qualifiers that are written gives the same set. -/
theorem ofEntries_written (qualifies : Qualifies reports children set) :
    QualifierSet.ofEntries (Child.writtenQualifiers children) = set := by
  induction qualifies with
  | nothing => rfl
  | other _ apart ih =>
    rw [Child.writtenQualifiers_append, Child.writtenQualifiers_apart apart, List.append_nil, ih]
  | @qualifier _ _ _ qualifier _ _ kind inserted ih =>
    have counts : qualifier.nodeKind.isApart = false := by
      rw [NodeKind.isApart, qualifier.isQualifier_nodeKind, Bool.not_true, Bool.and_false]
    rw [Child.writtenQualifiers_append, Child.writtenQualifiers_ofToken counts kind,
      QualifierSet.ofEntries_concat, ih, inserted]
    rfl
  | duplicate _ kind inserted _ ih =>
    rw [Child.writtenQualifiers_append, Child.writtenQualifiers_ofToken rfl kind,
      QualifierSet.ofEntries_concat, ih, inserted]
    rfl

/-- An error node among the children holds a qualifier whose category is taken by an earlier one. -/
theorem earlier (qualifies : Qualifies reports children set) {before after : List Child}
    {field : Option Field} {node : Node} (found : children = before ++ .node field node :: after)
    (isError : node.kind = .error) : ∃ token qualifier earlier,
      node = .ofToken .error token ∧ token.kind = .qualifier qualifier ∧
        earlier ∈ (Child.nodes before).filterMap Node.qualifierEntry? ∧
        earlier.qualifier.category = qualifier.category ∧
        .duplicateQualifier qualifier.category earlier.span token.span ∈ reports := by
  induction qualifies generalizing after with
  | nothing => simp at found
  | other _ apart ih =>
    rcases Child.split_concat found with ⟨rfl, rfl⟩ | ⟨rest, within⟩
    · have here := (Child.apart_node.mp apart).1
      rw [isError] at here
      cases here
    · exact ih within
  | @qualifier _ _ _ qualifier _ _ _ _ ih =>
    rcases Child.split_concat found with ⟨rfl, same⟩ | ⟨rest, within⟩
    · cases same
      have isQualifier := qualifier.isQualifier_nodeKind
      rw [show qualifier.nodeKind = .error from isError] at isQualifier
      cases isQualifier
    · exact ih within
  | @duplicate _ set qualifier token earlier qualifies kind inserted reported ih =>
    rcases Child.split_concat found with ⟨rfl, same⟩ | ⟨rest, within⟩
    · cases same
      obtain ⟨member, category⟩ := QualifierSet.insert_eq_error inserted
      exact ⟨token, qualifier, earlier, rfl, kind, qualifies.entries.symm ▸ member, category, reported⟩
    · exact ih within

theorem mapSpan (qualifies : Qualifies reports children set) (place : Span → Span) :
    Qualifies (reports.map (·.mapSpan place)) (Node.mapSpanOfChildren place children)
      (set.mapSpan place) := by
  rw [Node.mapSpanOfChildren_eq]
  induction qualifies with
  | nothing => exact .nothing
  | @other _ _ child _ apart ih =>
    rw [List.map_append]
    refine ih.other ?_
    cases child with
    | token => exact Child.apart_nil
    | node field node =>
      obtain ⟨kind, _⟩ := Child.apart_node.mp apart
      exact Child.apart_node.mpr ⟨by rwa [Node.kind_mapSpan], Child.apart_nil⟩
  | @qualifier _ set larger qualifier token _ kind inserted ih =>
    have moved : (set.mapSpan place).insert qualifier (token.mapSpan place).span =
        .ok (larger.mapSpan place) := by
      rw [Token.mapSpan, QualifierSet.insert_mapSpan, inserted]
    have isQualifier : (token.mapSpan place).kind = .qualifier qualifier := kind
    rw [List.map_append, List.map_singleton, Child.mapSpan_ofToken]
    exact ih.qualifier isQualifier moved
  | @duplicate _ set qualifier token earlier _ kind inserted reported ih =>
    have moved : (set.mapSpan place).insert qualifier (token.mapSpan place).span =
        .error ⟨earlier.qualifier, place earlier.span⟩ := by
      rw [Token.mapSpan, QualifierSet.insert_mapSpan, inserted]
    have isQualifier : (token.mapSpan place).kind = .qualifier qualifier := kind
    rw [List.map_append, List.map_singleton, Child.mapSpan_ofToken]
    exact ih.duplicate isQualifier moved (List.mem_map_of_mem reported)

end Qualifies

end OpenCLTree
