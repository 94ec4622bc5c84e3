import OpenCLTree.Proofs.Derivation.Statement
import OpenCLTree.Grammar.SourceFile

namespace OpenCLTree

theorem Node.IsReported.mono {reports later : List ParseError} {node : Node}
    (reported : node.IsReported reports) (kept : reports ⊆ later) : node.IsReported later := by
  obtain ⟨declarator, first, ⟨function, name, atName, report⟩ | ⟨other, report⟩⟩ := reported
  · exact ⟨declarator, first, .inl ⟨function, name, atName, kept report⟩⟩
  · exact ⟨declarator, first, .inr ⟨other, kept report⟩⟩

/-- What a top-level item is that has been read on the way from one state to another. Below it no
kernel is defined, and if it is a declaration of one that has been reported. -/
structure Item (tokens : List Token) (first : GrammarState) (node : Node) (last : GrammarState) : Prop
    extends Onward tokens first last where
  shaped : node.Shaped tokens
  below : ∀ inner ∈ node.descendants.tail, inner.Shaped tokens ∧ inner.kind ≠ .kernelFunctionDefinition
  resolves : Node.errors [node] = [] → Resolves false first.scopes [node.toChild] last.scopes
  reported : node.kind = .declaration → node.qualifierSet.contains .kernel = true →
    node.IsReported last.reports

theorem Derivation.item {tokens : List Token} {first last : GrammarState} {node : Node}
    (read : Derivation tokens first [node.toChild] last)
    (reported : node.kind = .declaration → node.qualifierSet.contains .kernel = true →
      node.IsReported last.reports) : Item tokens first node last := by
  have shaped := read.shaped
  obtain ⟨kind, span, children⟩ := node
  rw [Node.toChild, Child.nodes, Child.nodes, ← Node.descendants, Node.descendants_mk] at shaped
  obtain ⟨here, below⟩ := List.forall_mem_cons.mp shaped
  exact ⟨read.toOnward, here.1, by rwa [Node.descendants_mk], read.resolves, reported⟩

namespace Scopes

theorem since_declareAll (scopes : Scopes) (names : List String) :
    scopes.Since (names.foldl (·.declare · .ordinary) scopes) := by
  induction names generalizing scopes with
  | nil => exact .refl scopes
  | cons name rest ih => exact (scopes.since_declare name .ordinary).trans (ih _)

end Scopes

/-- The state at the start of a body, where the parameters are in scope. -/
def GrammarState.enterWith (state : GrammarState) (parameters : List String) : GrammarState :=
  state.mapScopes (·.enterWith parameters)

section Definition

variable {tokens : List Token} {first named inner : GrammarState} {kind : NodeKind}
  {specifiers : Specifiers} {declared : Declared} {body : Node}

/-- The definition of a function: its name is in scope from before its body on, and its parameters in
its body. -/
theorem Declaring.definition
    (sofar : Declaring tokens .ordinary first (specifiers.children ++ declared.children)
      (some declared.declarator) named)
    (read : Derivation tokens ((named.settle .ordinary (some declared.declarator)).enterWith
      declared.declarator.parameterNames) [body.toChild] inner)
    (isBody : body.kind = .compoundStatement) (isDefinition : kind.isDefinition = true)
    (classified :
      (Node.make kind (specifiers.children ++ (declared.children ++ [body.as .body]))).IsClassified) :
    Item tokens first (.make kind (specifiers.children ++ declared.children ++ [body.as .body]))
      (inner.mapScopes Scopes.leave) := by
  have settled : Stretch tokens named [] (named.settle .ordinary (some declared.declarator)) :=
    .still sofar.ready rfl List.prefix_rfl (named.since_settle _ _)
  have enter : Stretch tokens (named.settle .ordinary (some declared.declarator)) []
      ((named.settle .ordinary (some declared.declarator)).enterWith declared.declarator.parameterNames) :=
    .still settled.ready rfl List.prefix_rfl
      ((Scopes.since_enter _).trans (Scopes.since_declareAll _ _))
  have leave : Stretch tokens inner [] (inner.mapScopes Scopes.leave) :=
    .still read.ready rfl List.prefix_rfl inner.scopes.since_leave
  have stretch := ((sofar.toStretch.join settled).join (enter.join (read.toStretch.join leave))).refield
    (specifiers.children ++ declared.children ++ [body.as .body]) (by simp)
  rw [← List.append_assoc] at classified
  have other (kind' : NodeKind) (plain : kind'.isDefinition = false) : kind ≠ kind' := by
    rintro rfl
    cases plain.symm.trans isDefinition
  have known : kind.Declares ∧ kind.opensScope = false ∧ kind.isDeclaration = true ∧
      kind.usesNames = false ∧ ∀ outer, kind.boundSort outer = .ordinary := by
    cases kind <;> first | exact ⟨⟨rfl, rfl⟩, rfl, rfl, rfl, fun _ => rfl⟩ | cases isDefinition
  obtain ⟨declares, closed, isDeclaration, unused, bound⟩ := known
  refine ⟨stretch.toOnward, Node.shaped_of_classified stretch.plain isDeclaration classified, ?_,
    fun free => ?_, fun declaration => absurd declaration (other _ rfl)⟩
  · rw [Node.descendants_make]
    exact stretch.shaped
  · rw [Node.errors_make (other _ rfl), Child.nodes_append, Node.errors_append,
      List.append_eq_nil_iff] at free
    obtain ⟨walks, uses⟩ := (read.resolves free.2).single
    have role : kind.roleOf (some .body) body.kind = .body := by
      rw [isBody]
      simp [NodeKind.roleOf, isDefinition]
    have atBody : Walk.Reaches kind .ordinary ⟨named.scopes, some declared.declarator⟩
        [body.as .body] ⟨inner.scopes.leave, none⟩ := by
      have here : Walk.Reaches kind .ordinary ⟨named.scopes, some declared.declarator⟩
          [body.as .body] _ := .node (by rw [role]; exact walks _) (by
        rw [role, declares.block]
        exact Node.usesNames_of_other (by rw [isBody]; rfl))
      rwa [role] at here
    have reaches := (sofar.reaches free.1 kind declares).append atBody
    refine .node (fun outer => ?_) (Node.usesNames_of_other unused) (.nothing _)
    rw [← bound outer] at reaches
    exact Node.walks_make closed reaches

end Definition

/-- What the items of a source are that have been read on the way from one state to another. -/
structure Items (tokens : List Token) (first : GrammarState) (items : List Node) (last : GrammarState) :
    Prop extends Onward tokens first last where
  shaped : ∀ node ∈ Node.preorder items, node.Shaped tokens
  below : ∀ item ∈ items, ∀ inner ∈ item.descendants.tail, inner.kind ≠ .kernelFunctionDefinition
  resolves : Node.errors items = [] → Resolves false first.scopes (items.map Node.toChild) last.scopes
  reported : ∀ item ∈ items, item.kind = .declaration → item.qualifierSet.contains .kernel = true →
    item.IsReported last.reports

namespace Items

variable {tokens : List Token} {first middle last : GrammarState} {items : List Node} {node : Node}

theorem nothing (ready : first.Ready tokens) : Items tokens first [] first where
  toOnward := .refl ready
  shaped := by
    rw [Node.preorder_nil]
    exact List.forall_mem_nil _
  below := List.forall_mem_nil _
  resolves _ := .nothing _
  reported := List.forall_mem_nil _

theorem concat (sofar : Items tokens first items middle) (item : Item tokens middle node last) :
    Items tokens first (items ++ [node]) last where
  toOnward := sofar.toOnward.trans item.toOnward
  shaped := by
    rw [Node.preorder_append]
    refine List.forall_mem_append.mpr ⟨sofar.shaped, ?_⟩
    obtain ⟨kind, span, children⟩ := node
    have below := item.below
    rw [Node.descendants_mk] at below
    rw [← Node.descendants, Node.descendants_mk]
    exact List.forall_mem_cons.mpr ⟨item.shaped, fun inner member => (below inner member).1⟩
  below := List.forall_mem_append.mpr
    ⟨sofar.below, List.forall_mem_singleton.mpr fun inner member => (item.below inner member).2⟩
  resolves free := by
    rw [Node.errors_append, List.append_eq_nil_iff] at free
    rw [List.map_append]
    exact (sofar.resolves free.1).append (item.resolves free.2)
  reported := List.forall_mem_append.mpr
    ⟨fun item' member declaration kernel =>
      (sofar.reported item' member declaration kernel).mono item.reports.subset,
      List.forall_mem_singleton.mpr item.reported⟩

end Items

namespace Rule

variable {tokens : List Token} {sub : Grammar} {first state : GrammarState} {specifiers : Specifiers}
  {declared : Declared}

theorem definitionAfter_leads {kind : NodeKind} (derives : sub.Derives tokens)
    (proper : specifiers.Proper) (isDeclarator : declared.Proper)
    (function : declared.declarator.declaresFunction = true)
    (definition : kind = .kernelFunctionDefinition ∧ specifiers.qualifiers.isKernel = true ∨
      kind = .functionDefinition ∧ specifiers.qualifiers.isKernel = false ∧
        specifiers.qualifiers.isTypedef = false)
    (sofar : Declaring tokens .ordinary first (specifiers.children ++ declared.children)
      (some declared.declarator) state) :
    (definitionAfter sub kind specifiers declared).Leads state (Item tokens first) (Onward tokens first) := by
  have isDefinition : kind.isDefinition = true := by
    rcases definition with ⟨rfl, _⟩ | ⟨rfl, _⟩ <;> rfl
  have settled : Onward tokens state (state.settle .ordinary (some declared.declarator)) :=
    (Onward.refl sofar.ready).still rfl List.prefix_rfl (state.since_settle _ _)
  have keeps := sofar.toOnward.trans settled
  unfold definitionAfter
  rw [leads_bind]
  refine declareName_leads ?_
  rw [leads_bind]
  refine ((inScope_leads (fun body after => Derivation tokens
    ((state.settle .ordinary (some declared.declarator)).enterWith declared.declarator.parameterNames)
      [body.toChild] after) settled.ready ?_).gives definitionBody_gives).mono ?_
    fun _ failed => keeps.trans failed
  · have ready : ((state.settle .ordinary (some declared.declarator)).enterWith
        declared.declarator.parameterNames).Ready tokens := settled.ready.still rfl
    rw [leads_bind, mapScopes, leads_modify]
    refine (compoundStatement_derives derives ready).mono (fun _ _ read => read) fun _ failed => ?_
    have entered : ((state.settle .ordinary (some declared.declarator)).mapScopes Scopes.enter).Ready
        tokens := settled.ready.still rfl
    have enter : Onward tokens ((state.settle .ordinary (some declared.declarator)).mapScopes Scopes.enter)
        ((state.settle .ordinary (some declared.declarator)).enterWith declared.declarator.parameterNames) :=
      (Onward.refl entered).still rfl List.prefix_rfl (Scopes.since_declareAll _ _)
    exact enter.trans failed
  · rintro body _ ⟨isBody, inner, rfl, read⟩
    exact sofar.definition read isBody isDefinition
      (proper.classified_definition isDeclarator isBody function definition)

/-- A declaration of a kernel, of which something has been reported at its first declarator. -/
theorem kernelAsDeclaration_leads {error : ParseError} (derives : sub.Derives tokens)
    (ready : first.Ready tokens) (proper : specifiers.Proper) (isDeclarator : declared.Proper)
    (isKernel : specifiers.qualifiers.isKernel = true) {middle : GrammarState}
    (before : Derivation tokens first (parts specifiers) middle)
    (atName : Derivation tokens middle (parts declared) state) (reported : error ∈ state.reports)
    (names : declared.declarator.declaresFunction = true ∧
        (∃ name, declared.declarator.declaratorName? = some name ∧
          error = .missingBody name.text declared.declarator.span) ∨
      declared.declarator.declaresFunction = false ∧ error = .unexpectedToken .functionDeclarator
        declared.declarator.kind.name declared.declarator.span) :
    (kernelAfter.asDeclaration sub specifiers declared).Leads state (Item tokens first)
      (Onward tokens first) := by
  unfold kernelAfter.asDeclaration
  rw [leads_bind]
  refine ((declarationRest_leads derives isDeclarator (proper.declaring ready before) atName).gives
    (declarationRest_opens derives.declarators isDeclarator)).mono ?_ fun _ keeps => keeps
  rintro rest last ⟨opens, passed, inside⟩
  have classified : (Node.make .declaration (specifiers.children ++ rest)).IsClassified :=
    proper.classified_declaration opens.apart opens.fields (.inl rfl) fun plain => by
      cases plain.symm.trans isKernel
  refine (inside.wrap (.inl ⟨rfl, rfl⟩) classified).item fun _ _ =>
    ⟨declared.declarator, proper.firstDeclarator? isDeclarator opens, ?_⟩
  have kept := passed.reports.subset reported
  rcases names with ⟨function, name, atName, rfl⟩ | ⟨other, rfl⟩
  · exact .inl ⟨(Node.declaresFunction_iff _).mp function, name, atName, kept⟩
  · refine .inr ⟨fun function => ?_, kept⟩
    cases other.symm.trans ((Node.declaresFunction_iff _).mpr function)

theorem kernelAfter_leads (derives : sub.Derives tokens) (ready : first.Ready tokens)
    (proper : specifiers.Proper) (isKernel : specifiers.qualifiers.isKernel = true)
    (sofar : Derivation tokens first (parts specifiers) state) :
    (kernelAfter sub specifiers).Leads state (Item tokens first) (Onward tokens first) := by
  unfold kernelAfter
  refine sofar.stepWith (Derives.withFact (requiredDeclarator_derives derives)
    (requiredDeclarator_gives derives.declarators) sofar.ready) fun declarator s1 kind atName behind => ?_
  split
  · rename_i function
    refine behind.stepWith (Derives.withFact (attributes_derives derives) attributes_gives behind.ready)
      fun attributes s2 areAttributes atAttributes sofar' => ?_
    have atDeclared : Derivation tokens state (parts (⟨declarator, attributes⟩ : Declared)) s2 := by
      simpa using atName.join atAttributes
    have isDeclarator : Declared.Proper ⟨declarator, attributes⟩ := ⟨kind, areAttributes⟩
    rw [leads_bind, leads_check]
    split
    · exact definitionAfter_leads derives proper isDeclarator function (.inl ⟨rfl, isKernel⟩)
        ((proper.declaring ready sofar).declarator isDeclarator atDeclared)
    · obtain ⟨name, named⟩ := Node.declaratorName?_of_nameNode? declarator
        (fun inner member => (atName.shaped inner member).1.name) (Node.nameNode?_of_declaresFunction function)
      rw [leads_bind, report, leads_modify]
      refine kernelAsDeclaration_leads derives ready proper isDeclarator isKernel sofar
        (atDeclared.report _) (List.mem_append_right _ (List.mem_singleton_self _))
        (.inl ⟨function, name, named, ?_⟩)
      rw [named]
      rfl
  · rename_i other
    rw [leads_bind, report, leads_modify]
    refine (behind.report (.unexpectedToken .functionDeclarator declarator.kind.name declarator.span)).stepWith
      (Derives.withFact (attributes_derives derives) attributes_gives (behind.report _).ready)
      fun attributes s2 areAttributes atAttributes _ => ?_
    have atDeclared : Derivation tokens state (parts (⟨declarator, attributes⟩ : Declared)) s2 := by
      simpa using (atName.report _).join atAttributes
    refine kernelAsDeclaration_leads derives ready proper ⟨kind, areAttributes⟩ isKernel sofar atDeclared
      (atAttributes.reports.subset (List.mem_append_right _ (List.mem_singleton_self _)))
      (.inr ⟨by simpa using other, rfl⟩)

theorem externalDeclaration_leads (derives : sub.Derives tokens) (ready : state.Ready tokens) :
    (externalDeclaration sub).Leads state (Item tokens state) (Onward tokens state) := by
  refine (Derivation.nothing ready).stepWith (Derives.withFact (declarationSpecifiers_derives derives)
    declarationSpecifiers_gives ready) fun specifiers s1 proper _ sofar => ?_
  split
  · rename_i isKernel
    exact kernelAfter_leads derives ready proper isKernel sofar
  · rename_i plain
    have noKernel : specifiers.qualifiers.isKernel = false := by simpa using plain
    refine declarationAfter_leads derives proper ready sofar (fun node after read same => ?_) ?_
    · refine read.item fun _ isKernel => ?_
      rw [same] at isKernel
      cases noKernel.symm.trans isKernel
    · intro declared body middle definition noTypedef isDeclarator atName
      split at definition
      · rename_i function
        cases definition
        exact definitionAfter_leads derives proper isDeclarator function
          (.inr ⟨rfl, noKernel, noTypedef⟩) atName
      · cases definition

theorem pragmaLine_gives : pragmaLine.Gives fun node => node.kind ≠ .declaration := by
  refine gives_bind fun marker => gives_bind fun line => gives_pure ?_
  unfold pragmaNode
  split <;> try split
  all_goals nofun

theorem directiveLine_gives : directiveLine.Gives fun node => node.kind ≠ .declaration :=
  gives_bind fun _ => gives_bind fun _ => gives_pure nofun

theorem topLevelItem_leads (derives : sub.Derives tokens) (ready : state.Ready tokens) :
    (topLevelItem sub).Leads state (Item tokens state) (Onward tokens state) := by
  have line {rule : Rule Node} (derives : rule.Derives tokens)
      (gives : rule.Gives fun node => node.kind ≠ .declaration) :
      rule.Leads state (Item tokens state) (Onward tokens state) :=
    (Derives.withFact derives gives ready).mono
      (fun _ _ known => known.2.item fun declaration => absurd declaration known.1) fun _ keeps => keeps
  unfold topLevelItem
  rw [leads_bind, leads_currentKind]
  split
  · exact line pragmaLine_derives pragmaLine_gives
  · exact line directiveLine_derives directiveLine_gives
  · exact externalDeclaration_leads derives ready

theorem sourceItems_leads (derives : sub.Derives tokens) (ready : state.Ready tokens) :
    (sourceItems sub).Leads state (Items tokens state) (Onward tokens state) := by
  unfold sourceItems many
  refine Leads.loop (Items tokens state) ?_ (.nothing ready)
  intro items s1 sofar
  rw [leads_bind, leads_bind, leads_atEnd]
  split
  · exact sofar
  · rw [leads_bind]
    refine (recovering_leads (topLevelItem_leads derives sofar.ready) fun node after read isError => ?_).mono
      (fun node after item => sofar.concat item) fun _ keeps => sofar.toOnward.trans keeps
    exact read.item fun declaration => by cases isError.symm.trans declaration

end Rule

end OpenCLTree
