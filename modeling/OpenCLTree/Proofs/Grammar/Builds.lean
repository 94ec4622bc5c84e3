import OpenCLTree.Proofs.Grammar.Gives
import OpenCLTree.Proofs.Grammar.Reads
import OpenCLTree.Grammar.Declaration
import OpenCLTree.Grammar.Expression

namespace OpenCLTree

/-- Values of rules that stand for children read. -/
class HasChildren (α : Type) where
  children : α → List Child

instance : HasChildren Unit := ⟨fun _ => []⟩

instance : HasChildren Token := ⟨fun token => [token.toChild]⟩

instance : HasChildren Node := ⟨fun node => [node.toChild]⟩

instance : HasChildren Child := ⟨fun child => [child]⟩

instance {α : Type} [HasChildren α] : HasChildren (List α) :=
  ⟨fun values => values.flatMap HasChildren.children⟩

instance : HasChildren Specifiers := ⟨Specifiers.children⟩

instance : HasChildren Declared := ⟨Declared.children⟩

instance : HasChildren ParenthesizedType := ⟨ParenthesizedType.children⟩

instance {α : Type} [HasChildren α] : HasChildren (Option α) :=
  ⟨fun value => (value.map HasChildren.children).getD []⟩

/-- The children that a value stands for, without their fields. -/
def pieces {α : Type} [HasChildren α] (value : α) : List Child :=
  (HasChildren.children value).map Child.bare

@[simp]
theorem pieces_unit (value : Unit) : pieces value = [] := rfl

@[simp]
theorem pieces_token (token : Token) : pieces token = [token.toChild] := rfl

@[simp]
theorem pieces_node (node : Node) : pieces node = [node.toChild] := rfl

@[simp]
theorem pieces_child (child : Child) : pieces child = [child.bare] := rfl

@[simp]
theorem pieces_children (children : List Child) : pieces children = children.map Child.bare := by
  simp [pieces, HasChildren.children]

@[simp]
theorem pieces_tokens (tokens : List Token) : pieces tokens = tokens.map Token.toChild := by
  induction tokens with
  | nil => rfl
  | cons token rest ih => exact congrArg (token.toChild :: ·) ih

@[simp]
theorem pieces_nodes (nodes : List Node) : pieces nodes = nodes.map Node.toChild := by
  induction nodes with
  | nil => rfl
  | cons node rest ih => exact congrArg (node.toChild :: ·) ih

@[simp]
theorem pieces_nil {α : Type} [HasChildren α] : pieces ([] : List α) = [] := rfl

theorem pieces_concat {α : Type} [HasChildren α] (values : List α) (value : α) :
    pieces (values ++ [value]) = pieces values ++ pieces value := by
  simp [pieces, HasChildren.children]

@[simp]
theorem pieces_specifiers (specifiers : Specifiers) :
    pieces specifiers = specifiers.children.map Child.bare := rfl

@[simp]
theorem pieces_declared (declared : Declared) :
    pieces declared = declared.declarator.toChild :: declared.attributes.map Child.bare := rfl

@[simp]
theorem pieces_parenthesizedType (parts : ParenthesizedType) :
    pieces parts = [parts.opener.toChild, parts.type.toChild, parts.closer.toChild] := rfl

@[simp]
theorem pieces_none {α : Type} [HasChildren α] : pieces (none : Option α) = [] := rfl

@[simp]
theorem pieces_some {α : Type} [HasChildren α] (value : α) : pieces (some value) = pieces value :=
  rfl

/-- A failure after some children have been read. -/
def Halts (remarks : Prop) (first : GrammarState) (_ : ParseError) (last : GrammarState) : Prop :=
  ∃ children, ReadsWith remarks first children last

/-- Whether one state lies on the way behind another, whatever is read in between. -/
def Passes (first last : GrammarState) : Prop :=
  ∃ children, Reads first children last

theorem Passes.refl (state : GrammarState) : Passes state state :=
  ⟨[], .nothing state⟩

theorem Passes.trans {first middle last : GrammarState} (front : Passes first middle)
    (back : Passes middle last) : Passes first last := by
  obtain ⟨before, readFront⟩ := front
  obtain ⟨after, readBack⟩ := back
  exact ⟨before ++ after, readFront.join readBack⟩

theorem Passes.remaining_le {first last : GrammarState} (passes : Passes first last) :
    last.remaining ≤ first.remaining := by
  obtain ⟨_, reads⟩ := passes
  exact reads.remaining_le

theorem Passes.reports_subset {first last : GrammarState} (passes : Passes first last) :
    first.reports ⊆ last.reports := by
  obtain ⟨_, reads⟩ := passes
  exact reads.reports_subset

theorem Passes.reports_le {first last : GrammarState} (passes : Passes first last) :
    first.reports.length ≤ last.reports.length := by
  obtain ⟨_, reads⟩ := passes
  obtain ⟨added, atLast, _⟩ := reads.reports
  simp [atLast]

/-- A failure with an error of the grammar. -/
def Stops (remarks : Prop) (first : GrammarState) (error : ParseError) (last : GrammarState) :
    Prop :=
  error.IsGrammatical ∧ Halts remarks first error last

theorem Stops.allow {remarks : Prop} {first last : GrammarState} {error : ParseError}
    (stops : Stops False first error last) : Stops remarks first error last := by
  obtain ⟨grammatical, children, reads⟩ := stops
  exact ⟨grammatical, children, reads.allow⟩

namespace ReadsWith

variable {remarks : Prop} {first middle last : GrammarState} {children : List Child}
  {error : ParseError}

theorem halts (reads : ReadsWith remarks first children middle)
    (halts : Halts remarks middle error last) : Halts remarks first error last := by
  obtain ⟨more, reading⟩ := halts
  exact ⟨children ++ more, reads.join reading⟩

theorem stops (reads : ReadsWith remarks first children middle)
    (stops : Stops remarks middle error last) : Stops remarks first error last :=
  ⟨stops.1, reads.halts stops.2⟩

theorem passes (reads : Reads first children last) : Passes first last :=
  ⟨children, reads⟩

theorem stopsHere (reads : ReadsWith remarks first children last) (grammatical : error.IsGrammatical) :
    Stops remarks first error last :=
  ⟨grammatical, children, reads⟩

end ReadsWith

namespace Cursor

/-- A cursor where a rule may start: dots are read as dots, and all that can be read instead
of a dot is an accessor. -/
structure Lawful (cursor : Cursor) : Prop where
  mode : cursor.mode = .normal
  accessor : ∀ word ∈ cursor.rest, ∀ accessor, word.accessor = some accessor →
    accessor.kind = .swizzle

end Cursor

/-- Whether a rule may start in a state with less than `room` tokens to come. -/
structure GrammarState.Fits (room : Nat) (state : GrammarState) : Prop where
  lawful : state.cursor.Lawful
  fewer : state.remaining < room

theorem GrammarState.Fits.weaken {room : Nat} {state : GrammarState} (fits : state.Fits room) :
    state.Fits (room + 1) :=
  ⟨fits.lawful, Nat.lt_succ_of_lt fits.fewer⟩

theorem GrammarState.Fits.deepen {room : Nat} {state : GrammarState} (fits : state.Fits room) :
    state.deepen.Fits room :=
  ⟨fits.lawful, fits.fewer⟩

theorem GrammarState.Fits.mapScopes {room : Nat} {state : GrammarState} (fits : state.Fits room)
    (change : Scopes → Scopes) : (state.mapScopes change).Fits room :=
  ⟨fits.lawful, fits.fewer⟩

namespace ReadsWith

variable {remarks : Prop} {room : Nat} {first last : GrammarState} {children : List Child}

theorem lawful (reads : ReadsWith remarks first children last) (lawful : first.cursor.Lawful) :
    last.cursor.Lawful where
  mode := reads.mode.trans lawful.mode
  accessor word member := lawful.accessor word (reads.rest.1.subset member)

theorem fits (reads : ReadsWith remarks first children last) (fits : first.Fits room) :
    last.Fits room where
  lawful := reads.lawful fits.lawful
  fewer := Nat.lt_of_le_of_lt reads.remaining_le fits.fewer

/-- After a token has been taken there is less room to fill. -/
theorem fits_pred (reads : ReadsWith remarks first children last) (fits : first.Fits (room + 1))
    (nonempty : children ≠ []) : last.Fits room where
  lawful := reads.lawful fits.lawful
  fewer := Nat.lt_of_lt_of_le (reads.remaining_lt nonempty) (Nat.le_of_lt_succ fits.fewer)

end ReadsWith

namespace Rule

variable {α β : Type}

/-- Whether a rule, started in a state, reads the children that its value stands for, or fails
with an error of the grammar, but is not exhausted. -/
def Builds [HasChildren α] (rule : Rule α) (state : GrammarState) : Prop :=
  rule.Meets state (fun value after => Reads state (pieces value) after) (Stops False state)

/-- Whether a rule builds a value of which more is known. -/
def BuildsWith [HasChildren α] (rule : Rule α) (fact : α → GrammarState → Prop)
    (state : GrammarState) : Prop :=
  rule.Meets state (fun value after => fact value after ∧ Reads state (pieces value) after)
    (Stops False state)

theorem BuildsWith.builds [HasChildren α] {rule : Rule α} {fact : α → GrammarState → Prop}
    {state : GrammarState} (builds : rule.BuildsWith fact state) : rule.Builds state :=
  Meets.mono builds (fun _ _ outcome => outcome.2) fun _ _ stops => stops

theorem BuildsWith.gives [HasChildren α] {rule : Rule α} {fact : α → GrammarState → Prop}
    {holds : α → Prop} {state : GrammarState} (builds : rule.BuildsWith fact state)
    (gives : rule.Gives holds) : rule.BuildsWith (fun value after => holds value ∧ fact value after) state :=
  Meets.mono (Meets.gives builds gives)
    (fun _ _ ⟨holds, known, reads⟩ => ⟨⟨holds, known⟩, reads⟩) fun _ _ stops => stops

theorem Builds.withNothing [HasChildren α] {rule : Rule α} {state : GrammarState}
    (builds : rule.Builds state) : rule.BuildsWith (fun _ _ => True) state :=
  Meets.mono builds (fun _ _ reads => ⟨trivial, reads⟩) fun _ _ stops => stops

end Rule

/-- Whether no infix operator of a level or a tighter one comes next. -/
def GrammarState.Past (level : Level) (state : GrammarState) : Prop :=
  ∀ token operator, state.cursor.peek? 0 = some token →
    Operator.find? .infixOp token.kind = some operator → operator.level < level

/-- Whether every declarator that the rules of a grammar read is one as its mode asks. -/
def Grammar.ReadsDeclarators (sub : Grammar) : Prop :=
  ∀ mode, (sub.declarator mode).Gives fun found => ∀ node ∈ found, node.IsDeclarator mode

/-- Whether the rules of a grammar can be called in every state with less than `room` tokens
to come. -/
structure Grammar.Serves (sub : Grammar) (room : Nat) : Prop where
  expressionBinds (level : Level) {state : GrammarState} : state.Fits room →
    (sub.expression level).BuildsWith (fun node after => level ≤ node.level ∧ after.Past level) state
  castBinds {state : GrammarState} : state.Fits room →
    sub.castExpression.BuildsWith (fun node _ => .suffix ≤ node.level) state
  unaryBinds {state : GrammarState} : state.Fits room →
    sub.unaryExpression.BuildsWith (fun node _ => .suffix ≤ node.level) state
  initializerBinds {state : GrammarState} : state.Fits room →
    sub.initializer.BuildsWith (fun node _ => .assignment ≤ node.level) state
  typeSpecifier {state : GrammarState} : state.Fits room → sub.typeSpecifier.Builds state
  declarationSpecifiers {state : GrammarState} : state.Fits room →
    sub.declarationSpecifiers.Meets state
      (fun specifiers after => specifiers.children ≠ [] ∧
        Qualifies after.reports specifiers.children specifiers.qualifiers ∧
        Reads state (pieces specifiers) after)
      (Stops False state)
  declarator (mode : DeclaratorMode) {state : GrammarState} : state.Fits room →
    (sub.declarator mode).Builds state
  specifierFields : sub.declarationSpecifiers.Gives fun specifiers =>
    Child.LackDeclarators specifiers.children
  declarators : sub.ReadsDeclarators
  statement {state : GrammarState} : state.Fits room → sub.statement.Builds state

namespace Grammar.Serves

variable {sub : Grammar} {room : Nat} {state : GrammarState}

theorem expression (serves : sub.Serves room) (level : Level) (fits : state.Fits room) :
    (sub.expression level).Builds state :=
  (serves.expressionBinds level fits).builds

theorem expressionLevel (serves : sub.Serves room) (level : Level) (fits : state.Fits room) :
    (sub.expression level).BuildsWith (fun node _ => level ≤ node.level) state :=
  Rule.Meets.mono (serves.expressionBinds level fits)
    (fun _ _ outcome => ⟨outcome.1.1, outcome.2⟩) fun _ _ stops => stops

end Grammar.Serves

section Steps

open Rule

variable {α β σ : Type} {remarks : Prop} {room : Nat} {first state : GrammarState}
  {front : List Child}
  {done : α → GrammarState → Prop}

/-- One rule after another: what has been read so far goes on with what the next rule reads,
and its failures are failures of the whole. -/
theorem ReadsWith.step {rule : Rule β} {next : β → Rule α} {read : β → List Child}
    (sofar : ReadsWith remarks first front state)
    (meets : rule.Meets state (fun value after => Reads state (read value) after)
      (Stops False state))
    (goesOn : ∀ value after, Reads state (read value) after →
      ReadsWith remarks first (front ++ read value) after →
      (next value).Meets after done (Stops remarks first)) :
    (rule >>= next).Meets state done (Stops remarks first) := by
  rw [meets_bind]
  refine meets.mono ?_ fun _ _ stops => sofar.stops stops.allow
  intro value after reads
  exact goesOn value after reads (sofar.join reads.allow)

/-- The same after a rule of whose value more is known. -/
theorem ReadsWith.stepWith {rule : Rule β} {next : β → Rule α} {read : β → List Child}
    {fact : β → GrammarState → Prop} (sofar : ReadsWith remarks first front state)
    (meets : rule.Meets state (fun value after => fact value after ∧ Reads state (read value) after)
      (Stops False state))
    (goesOn : ∀ value after, fact value after → Reads state (read value) after →
      ReadsWith remarks first (front ++ read value) after →
      (next value).Meets after done (Stops remarks first)) :
    (rule >>= next).Meets state done (Stops remarks first) := by
  rw [meets_bind]
  refine meets.mono ?_ fun _ _ stops => sofar.stops stops.allow
  rintro value after ⟨known, reads⟩
  exact goesOn value after known reads (sofar.join reads.allow)

namespace Rule

@[simp]
theorem meets_report {done : Unit → GrammarState → Prop}
    {failed : ParseError → GrammarState → Prop} (error : ParseError) :
    (report error).Meets state done failed ↔ done () (state.report error) :=
  Iff.rfl

theorem failExpecting_stops (sofar : ReadsWith remarks first front state) (expected : Expected) :
    (failExpecting expected : Rule α).Meets state done (Stops remarks first) := by
  unfold failExpecting
  rw [meets_bind, meets_current]
  split
  · exact sofar.stopsHere ⟨by simp [ParseError.kind], by simp [ParseError.kind]⟩
  · exact sofar.stopsHere ⟨by simp [ParseError.kind], by simp [ParseError.kind]⟩

theorem advance_meets {token : Token} {failed : ParseError → GrammarState → Prop}
    (current : state.cursor.peek? 0 = some token) :
    advance.Meets state (fun _ after => Reads state [token.toChild] after) failed := by
  unfold advance
  rw [meets_modify]
  unfold Cursor.peek? Word.peek? at current
  obtain ⟨⟨found, rest⟩, read, rfl⟩ := Option.map_eq_some_iff.mp current
  simp only [Cursor.advance?, read, Option.map_some]
  exact .token read

theorem accept_builds (state : GrammarState) (kind : TokenKind) : (accept kind).Builds state := by
  unfold accept Builds
  rw [meets_bind, meets_current]
  cases current : state.cursor.peek? 0 with
  | none => exact .nothing state
  | some token =>
    simp only
    split
    · exact (ReadsWith.nothing state).step (advance_meets current) fun _ after _ sofar => sofar
    · exact .nothing state

theorem expect_builds (state : GrammarState) (kind : TokenKind) : (expect kind).Builds state := by
  refine (ReadsWith.nothing state).step (accept_builds state kind) fun found after _ sofar => ?_
  cases found with
  | none => exact failExpecting_stops sofar _
  | some token => exact sofar

theorem nested_buildsWith [HasChildren α] {rule : Rule α} {fact : α → Prop}
    (builds : rule.BuildsWith (fun value _ => fact value) state.deepen) :
    (nested rule).BuildsWith (fun value _ => fact value) state := by
  unfold nested BuildsWith
  rw [meets_bind, meets_get]
  split
  · exact failExpecting_stops (.nothing state) _
  · rw [meets_bind, meets_modify, meets_closing]
    refine Meets.mono builds (fun value after outcome => ⟨outcome.1, .deeper outcome.2⟩)
      fun error after stops => ?_
    obtain ⟨grammatical, children, reads⟩ := stops
    exact ⟨grammatical, children, .deeper reads⟩

theorem nested_builds [HasChildren α] {rule : Rule α} (builds : rule.Builds state.deepen) :
    (nested rule).Builds state :=
  have anything : (nested rule).BuildsWith (fun _ _ => True) state :=
    nested_buildsWith builds.withNothing
  anything.builds

theorem inScope_builds [HasChildren α] {rule : Rule α}
    (builds : rule.Builds (state.mapScopes Scopes.enter)) : (inScope rule).Builds state := by
  unfold inScope Builds
  rw [meets_bind, mapScopes, meets_modify, meets_closing]
  refine builds.mono (fun value after reads => .inScope reads) fun error after stops => ?_
  obtain ⟨grammatical, children, reads⟩ := stops
  exact ⟨grammatical, children, .inScope reads⟩

theorem unlessAt_builds {closer : TokenKind} {rule : Rule (List Child)}
    (builds : rule.Builds state) : (unlessAt closer rule).Builds state := by
  unfold unlessAt Builds
  rw [meets_bind, meets_check]
  split
  · exact .nothing state
  · exact builds

/-- A node that may be missing in front of a token. -/
theorem unlessAt_only_buildsWith {closer : TokenKind} {place : Node → Child} {rule : Rule Node}
    {fact : Node → Prop} (builds : rule.BuildsWith (fun node _ => fact node) state)
    (same : ∀ node, (place node).bare = node.toChild) :
    (unlessAt closer (only place rule)).BuildsWith
      (fun children _ => ∀ node ∈ Child.nodes children, fact node) state := by
  unfold unlessAt BuildsWith
  rw [meets_bind, meets_check]
  split
  · exact ⟨List.forall_mem_nil _, .nothing state⟩
  · refine (ReadsWith.nothing state).stepWith builds fun node after known _ sofar => ?_
    have inside : Child.nodes [place node] = [node] := by
      rw [← Child.nodes_bare, List.map_singleton, same]
      rfl
    refine ⟨fun inner member => ?_, by simpa [same] using sofar⟩
    rw [inside, List.mem_singleton] at member
    exact member ▸ known

theorem only_builds {place : Node → Child} {rule : Rule Node} (builds : rule.Builds state)
    (same : ∀ node, (place node).bare = node.toChild) : (only place rule).Builds state := by
  refine (ReadsWith.nothing state).step builds fun node _ _ sofar => ?_
  simpa [same] using sofar

theorem declare_builds {name : String} (sort : NameSort) (read : state.HasRead name) :
    (declare name sort).Builds state :=
  ReadsWith.declared state sort read

theorem many_builds [HasChildren α] {step : Rule (Option α)} (fits : first.Fits room)
    (nonempty : ∀ value : α, pieces value ≠ [])
    (round : ∀ state : GrammarState, state.Fits room → step.Builds state) :
    (many step).Builds first := by
  unfold many Builds
  refine Meets.loop (fun collected state => Reads first (pieces collected) state) ?_
    (.nothing first)
  intro collected state sofar
  refine sofar.step (round state (sofar.fits fits)) fun found after reads sofar => ?_
  cases found with
  | none => simpa using sofar
  | some value =>
    refine ⟨?_, reads.remaining_lt (nonempty value)⟩
    rw [pieces_concat]
    exact sofar

theorem commaSeparated_buildsWith {closer : TokenKind} {item : Rule Node} {fact : Node → Prop}
    (fits : first.Fits room)
    (round : ∀ state : GrammarState, state.Fits room → item.BuildsWith (fun node _ => fact node) state) :
    (commaSeparated closer item).BuildsWith
      (fun children _ => ∀ node ∈ Child.nodes children, fact node) first := by
  unfold commaSeparated BuildsWith
  refine Meets.loop (fun children state => (∀ node ∈ Child.nodes children, fact node) ∧
    Reads first (pieces children) state) ?_ ⟨List.forall_mem_nil _, .nothing first⟩
  rintro children state ⟨known, sofar⟩
  rw [meets_bind, meets_check]
  split
  · exact ⟨known, sofar⟩
  · refine sofar.stepWith (round state (sofar.fits fits)) fun node after here readNode sofar => ?_
    refine sofar.step (accept_builds after _) fun found last readComma sofar => ?_
    have all (back : List Child) (single : Child.nodes back = [node]) :
        ∀ inner ∈ Child.nodes (children ++ back), fact inner := by
      rw [Child.nodes_append, single]
      exact List.forall_mem_append.mpr ⟨known, List.forall_mem_singleton.mpr here⟩
    cases found with
    | none => exact ⟨all _ rfl, by simpa using sofar⟩
    | some comma => exact ⟨⟨all _ rfl, by simpa using sofar⟩, (readNode.join readComma).remaining_lt (by simp)⟩

theorem commaSeparated_builds {closer : TokenKind} {item : Rule Node} (fits : first.Fits room)
    (round : ∀ state : GrammarState, state.Fits room → item.Builds state) :
    (commaSeparated closer item).Builds first :=
  have anything : (commaSeparated closer item).BuildsWith
      (fun children _ => ∀ node ∈ Child.nodes children, True) first :=
    commaSeparated_buildsWith fits fun state fits => (round state fits).withNothing
  anything.builds

end Rule

end Steps

end OpenCLTree
