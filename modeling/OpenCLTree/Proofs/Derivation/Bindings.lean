import OpenCLTree.Proofs.Derivation.Declarator

namespace OpenCLTree

namespace NodeKind

variable {parent kind : NodeKind} {field : Field}

theorem roleOf_declarator (binds : parent.bindingField? = some field)
    (noAttribute : kind ≠ .attributeSpecifier) (noInit : kind ≠ .initDeclarator) :
    parent.roleOf (some field) kind = .declarator := by
  have body : field ≠ .body := by
    rintro rfl
    cases parent <;> cases binds
  rw [roleOf, if_neg noAttribute, if_neg (by simp [body]), if_pos ⟨rfl, binds.symm, noInit⟩]

theorem roleOf_init (parent : NodeKind) : parent.roleOf (some .declarator) .initDeclarator = .other := by
  simp [roleOf]

/-- A child in no field that matters to names. -/
theorem roleOf_other {field : Option Field} (free : field ≠ parent.bindingField? ∨ field = none)
    (body : field ≠ some .body) (kind : NodeKind) :
    parent.roleOf field kind = .attribute ∨ parent.roleOf field kind = .other := by
  unfold roleOf
  split
  · exact .inl rfl
  · rw [if_neg (by simp [body])]
    rcases free with different | rfl
    · exact .inr (if_neg fun same => different same.2.1)
    · exact .inr (if_neg (by simp))

end NodeKind

namespace Walk.Reaches

variable {parent : NodeKind} {sort : NameSort} {walk : Walk} {after : Scopes} {node : Node}
  {field : Option Field} {children : List Child}

/-- The name of a declarator is pending behind it. -/
theorem declarator {declarator : Node} {field : Field} (binds : parent.bindingField? = some field)
    (noAttribute : declarator.kind ≠ .attributeSpecifier) (noInit : declarator.kind ≠ .initDeclarator)
    (walks : declarator.Walks sort (walk.settle sort) after)
    (uses : declarator.UsesNames parent.isBlock (some field) (walk.settle sort) after) :
    Reaches parent sort walk [.node (some field) declarator] ⟨after, some declarator⟩ := by
  have role := NodeKind.roleOf_declarator binds noAttribute noInit
  have here : Reaches parent sort walk [.node (some field) declarator] _ :=
    .node (by rw [role]; exact walks) (by rw [role]; exact uses)
  rwa [role] at here

/-- What comes next settles a pending name. -/
theorem other (role : parent.roleOf field node.kind = .other)
    (walks : node.Walks sort (walk.settle sort) after)
    (uses : node.UsesNames parent.isBlock field (walk.settle sort) after) :
    Reaches parent sort walk [.node field node] ⟨after, none⟩ := by
  have here : Reaches parent sort walk [.node field node] _ :=
    .node (by rw [role]; exact walks) (by rw [role]; exact uses)
  rwa [role] at here

end Walk.Reaches

namespace Derivation

variable {tokens : List Token} {first middle last : GrammarState} {name : Token} {rest : List Child}

/-- The name of an enumerator is declared behind it, before the value. -/
theorem enumerator (atName : Derivation tokens first [name.toChild] middle)
    (atRest : Derivation tokens (middle.mapScopes (·.declare name.text .ordinary))
      (rest.map Child.tagged) last)
    (begins : rest = [] ∨ ∃ leaf value, rest = [Token.toChild leaf, Node.as value .value]) :
    Derivation tokens first
      [(Node.make .enumerator ((Node.ofToken .identifier name).as .name :: rest)).toChild] last := by
  have ident := atName.leaf .identifier rfl
  have moved : Stretch tokens middle [] (middle.mapScopes (·.declare name.text .ordinary)) :=
    .still atName.ready rfl List.prefix_rfl (middle.scopes.since_declare _ _)
  refine .node ((ident.toStretch.join moved).join atRest.toStretch) (by simp) ?_ nofun nofun
    (fun free sort => ?_) fun _ => Node.usesNames_of_other rfl
  · refine Node.shaped_of_common ?_ rfl rfl
    have plain := atRest.plain
    rwa [Child.tokens_tagged] at plain
  · simp only [Child.nodes_append, Node.errors_append, List.append_eq_nil_iff] at free
    obtain ⟨⟨inName, _⟩, inRest⟩ := free
    have later := (atRest.resolves inRest).of_tagged
    have named : Walk.Reaches .enumerator .ordinary ⟨first.scopes, none⟩
        [(Node.ofToken .identifier name).as .name] ⟨middle.scopes, some (.ofToken .identifier name)⟩ :=
      .declarator rfl nofun nofun ((ident.resolves inName).single.1 _)
        (Node.usesNames_of_other rfl)
    rcases begins with rfl | ⟨leaf, value, rfl⟩
    · rw [(Resolves.tokens_iff []).mp later]
      exact Node.walks_make rfl named
    · cases later with
      | token later =>
        have settled : Walk.Reaches .enumerator .ordinary
            ⟨middle.scopes, some (.ofToken .identifier name)⟩ [leaf.toChild]
            ⟨middle.scopes.declare name.text .ordinary, none⟩ := .token none leaf
        have valued : Walk.Reaches .enumerator .ordinary
            ⟨middle.scopes.declare name.text .ordinary, none⟩ [value.as .value] ⟨last.scopes, none⟩ :=
          Resolves.reaches (show Resolves NodeKind.enumerator.isBlock _ _ _ from later) fun field inner member => by
            cases List.mem_singleton.mp member
            exact NodeKind.roleOf_other (.inl (by decide)) (by decide) _
        exact Node.walks_make rfl ((named.append settled).append valued)

end Derivation

end OpenCLTree
