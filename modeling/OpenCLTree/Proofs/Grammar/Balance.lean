import OpenCLTree.Proofs.Grammar.SourceFile

namespace OpenCLTree

namespace Scopes

/-- Closing the scope above others leaves the others. -/
theorem layers_leave_of_tail {scopes : Scopes} {outer : List Scope} (below : scopes.layers.tail = outer)
    (some : outer ≠ []) : scopes.leave.layers = outer := by
  rw [layers_leave]
  cases layers : scopes.layers with
  | nil =>
    rw [layers] at below
    exact absurd below.symm some
  | cons inner rest =>
    rw [layers, List.tail_cons] at below
    cases rest with
    | nil => exact absurd below.symm some
    | cons => exact below

theorem tail_layers_declare (scopes : Scopes) (name : String) (sort : NameSort) :
    (scopes.declare name sort).layers.tail = scopes.layers.tail := by
  rw [layers_declare]
  cases scopes.layers <;> rfl

theorem depth_declare (scopes : Scopes) (name : String) (sort : NameSort) :
    (scopes.declare name sort).depth = scopes.depth := by
  rw [depth, layers_declare, depth]
  cases scopes.layers <;> rfl

end Scopes

/-- What is read changes no scope but the innermost one. -/
theorem ReadsWith.tail_layers {remarks : Prop} {first last : GrammarState} {children : List Child}
    (reads : ReadsWith remarks first children last) (some : first.scopes.layers ≠ []) :
    last.scopes.layers.tail = first.scopes.layers.tail := by
  induction reads with
  | nothing | token | remarked => rfl
  | join front _ ihFront ihBack =>
    have open_ := (front.layers (fun _ _ => trivial) some).ne_nil some
    exact (ihBack open_).trans (ihFront some)
  | node _ _ ih | duplicate _ ih | deeper _ ih => exact ih some
  | recovered taken _ _ _ ihTaken ihSkipped =>
    have open_ := (taken.layers (fun _ _ => trivial) some).ne_nil some
    exact (ihSkipped open_).trans (ihTaken some)
  | declared state sort _ => exact state.scopes.tail_layers_declare _ sort
  | inScope _ ih =>
    have below := ih (List.cons_ne_nil _ _)
    exact congrArg List.tail (Scopes.layers_leave_of_tail below some)

namespace GrammarState

/-- Whether what one state keeps besides the tokens is what another kept before. Only the names of
the innermost scope may differ. -/
structure Balanced (first last : GrammarState) : Prop where
  nesting : last.nesting = first.nesting
  depth : last.scopes.depth = first.scopes.depth
  outer : last.scopes.layers.tail = first.scopes.layers.tail
  mode : last.cursor.mode = first.cursor.mode
  rest : last.cursor.rest <:+ first.cursor.rest

/-- Whether a rule may start in a state with less than `room` tokens to come; a scope is open. -/
structure Poised (room : Nat) (state : GrammarState) : Prop where
  fits : state.Fits room
  scope : state.scopes.layers ≠ []

variable {first middle last state : GrammarState} {room : Nat}

namespace Balanced

theorem refl (state : GrammarState) : state.Balanced state :=
  ⟨rfl, rfl, rfl, rfl, List.suffix_rfl⟩

theorem trans (front : first.Balanced middle) (back : middle.Balanced last) : first.Balanced last where
  nesting := back.nesting.trans front.nesting
  depth := back.depth.trans front.depth
  outer := back.outer.trans front.outer
  mode := back.mode.trans front.mode
  rest := back.rest.trans front.rest

theorem remaining_le (balanced : first.Balanced last) : last.remaining ≤ first.remaining :=
  balanced.rest.length_le

theorem declare (state : GrammarState) (name : String) (sort : NameSort) :
    state.Balanced (state.mapScopes (·.declare name sort)) :=
  ⟨rfl, state.scopes.depth_declare name sort, state.scopes.tail_layers_declare name sort, rfl,
    List.suffix_rfl⟩

theorem deepen (balanced : first.deepen.Balanced last) : first.Balanced last.surface :=
  ⟨congrArg (· - 1) balanced.nesting, balanced.depth, balanced.outer, balanced.mode, balanced.rest⟩

/-- What is done in a scope of its own leaves all scopes around it as they were. -/
theorem layers_leave (balanced : (first.mapScopes Scopes.enter).Balanced last)
    (some : first.scopes.layers ≠ []) : last.scopes.leave.layers = first.scopes.layers :=
  Scopes.layers_leave_of_tail balanced.outer some

theorem leave (balanced : (first.mapScopes Scopes.enter).Balanced last)
    (some : first.scopes.layers ≠ []) : first.Balanced (last.mapScopes Scopes.leave) where
  nesting := balanced.nesting
  depth := congrArg List.length (balanced.layers_leave some)
  outer := congrArg List.tail (balanced.layers_leave some)
  mode := balanced.mode
  rest := balanced.rest

end Balanced

/-- Whether not even the names of the innermost scope differ. -/
structure Settled (first last : GrammarState) : Prop extends first.Balanced last where
  layers : last.scopes.layers = first.scopes.layers

theorem Settled.refl (state : GrammarState) : state.Settled state :=
  ⟨.refl state, rfl⟩

theorem Settled.trans (front : first.Settled middle) (back : middle.Settled last) : first.Settled last :=
  ⟨front.toBalanced.trans back.toBalanced, back.layers.trans front.layers⟩

/-- What is done in a scope of its own leaves all scopes as they were. -/
theorem Balanced.settled (balanced : (first.mapScopes Scopes.enter).Balanced last)
    (some : first.scopes.layers ≠ []) : first.Settled (last.mapScopes Scopes.leave) :=
  ⟨balanced.leave some, balanced.layers_leave some⟩

namespace Poised

theorem behind (poised : first.Poised room) (balanced : first.Balanced last) : last.Poised room where
  fits.lawful.mode := balanced.mode.trans poised.fits.lawful.mode
  fits.lawful.accessor word member := poised.fits.lawful.accessor word (balanced.rest.subset member)
  fits.fewer := Nat.lt_of_le_of_lt balanced.remaining_le poised.fits.fewer
  scope none := by
    have depth := balanced.depth
    rw [Scopes.depth, Scopes.depth, none, List.length_nil] at depth
    exact poised.scope (List.length_eq_zero_iff.mp depth.symm)

/-- Behind a token there is less room to fill. -/
theorem behind_pred (poised : first.Poised (room + 1)) (balanced : first.Balanced last)
    (fewer : last.remaining < first.remaining) : last.Poised room where
  fits.lawful := (poised.behind balanced).fits.lawful
  fits.fewer := Nat.lt_of_lt_of_le fewer (Nat.le_of_lt_succ poised.fits.fewer)
  scope := (poised.behind balanced).scope

theorem weaken (poised : state.Poised room) : state.Poised (room + 1) :=
  ⟨poised.fits.weaken, poised.scope⟩

theorem deepen (poised : state.Poised room) : state.deepen.Poised room :=
  ⟨poised.fits.deepen, poised.scope⟩

theorem enter (poised : state.Poised room) : (state.mapScopes Scopes.enter).Poised room :=
  ⟨poised.fits.mapScopes _, List.cons_ne_nil _ _⟩

end Poised

end GrammarState

/-- Whatever has been read, the bookkeeping is balanced. -/
theorem ReadsWith.balanced {remarks : Prop} {first last : GrammarState} {children : List Child}
    (reads : ReadsWith remarks first children last) (some : first.scopes.layers ≠ []) :
    first.Balanced last where
  nesting := reads.nesting
  depth := (reads.layers (fun _ _ => trivial) some).length_eq.symm
  outer := reads.tail_layers some
  mode := reads.mode
  rest := reads.rest.1

namespace Rule

variable {α β σ : Type} {room : Nat} {state : GrammarState} {rule : Rule α}

/-- Whether a rule, started in a state, ends, and leaves the bookkeeping balanced whether it succeeds
or fails. -/
def Balances (rule : Rule α) (state : GrammarState) : Prop :=
  rule.Meets state (fun _ after => state.Balanced after) fun _ after => state.Balanced after

/-- Whether a rule does so, and leaves all scopes as they were, the innermost one too. -/
def Settles (rule : Rule α) (state : GrammarState) : Prop :=
  rule.Meets state (fun _ after => state.Settled after) fun _ after => state.Settled after

/-- Whether a rule leaves the bookkeeping balanced, and takes a token if it succeeds, at least with a
value of some sort. -/
def Takes (rule : Rule α) (sort : α → Prop) (state : GrammarState) : Prop :=
  rule.Meets state
    (fun value after => state.Balanced after ∧ (sort value → after.remaining < state.remaining))
    fun _ after => state.Balanced after

theorem Takes.balances {sort : α → Prop} (takes : rule.Takes sort state) : rule.Balances state :=
  Meets.mono takes (fun _ _ outcome => outcome.1) fun _ _ balanced => balanced

theorem Balances.takesNothing (balances : rule.Balances state) : rule.Takes (fun _ => False) state :=
  Meets.mono balances (fun _ _ balanced => ⟨balanced, nofun⟩) fun _ _ balanced => balanced

theorem Balances.bind {first : Rule β} {next : β → Rule α} (balances : first.Balances state)
    (later : ∀ value middle, state.Balanced middle → (next value).Balances middle) :
    (first >>= next).Balances state := by
  unfold Balances
  rw [meets_bind]
  refine Meets.mono balances (fun value middle front => ?_) fun _ _ balanced => balanced
  exact (later value middle front).mono (fun _ _ back => front.trans back) fun _ _ back => front.trans back

theorem Takes.step {first : Rule β} {next : β → Rule α} {sort : β → Prop} (takes : first.Takes sort state)
    (later : ∀ value middle, state.Balanced middle → (sort value → middle.remaining < state.remaining) →
      (next value).Balances middle) : (first >>= next).Balances state := by
  unfold Balances
  rw [meets_bind]
  refine Meets.mono takes (fun value middle ⟨front, fewer⟩ => ?_) fun _ _ balanced => balanced
  have balances := later value middle front fewer
  exact balances.mono (fun _ _ back => front.trans back) fun _ _ back => front.trans back

theorem Balances.bindTakes {first : Rule β} {next : β → Rule α} {sort : α → Prop}
    (balances : first.Balances state)
    (later : ∀ value middle, state.Balanced middle → (next value).Takes sort middle) :
    (first >>= next).Takes sort state := by
  unfold Takes
  rw [meets_bind]
  refine Meets.mono balances (fun value middle front => ?_) fun _ _ balanced => balanced
  refine (later value middle front).mono (fun _ _ back => ?_) fun _ _ back => front.trans back
  exact ⟨front.trans back.1, fun isSort => Nat.lt_of_lt_of_le (back.2 isSort) front.remaining_le⟩

theorem Takes.bind {first : Rule β} {next : β → Rule α} {sort : α → Prop}
    (takes : first.Takes (fun _ => True) state)
    (later : ∀ value middle, state.Balanced middle → middle.remaining < state.remaining →
      (next value).Balances middle) : (first >>= next).Takes sort state := by
  unfold Takes
  rw [meets_bind]
  refine Meets.mono takes (fun value middle ⟨front, fewer⟩ => ?_) fun _ _ balanced => balanced
  refine (later value middle front (fewer trivial)).mono (fun _ _ back => ?_) fun _ _ back => front.trans back
  exact ⟨front.trans back, fun _ => Nat.lt_of_le_of_lt back.remaining_le (fewer trivial)⟩

theorem pure_balances (value : α) (state : GrammarState) : (pure value : Rule α).Balances state :=
  .refl state

/-- What is made of a value in the end keeps the bookkeeping balanced. -/
theorem Balances.made {first : Rule β} {make : β → α} (balances : first.Balances state) :
    (first >>= fun value => pure (make value)).Balances state :=
  balances.bind fun _ middle _ => pure_balances _ middle

theorem pure_takes {value : α} {sort : α → Prop} (other : ¬ sort value) (state : GrammarState) :
    (pure value : Rule α).Takes sort state :=
  ⟨.refl state, fun isSort => absurd isSort other⟩

theorem Takes.made {first : Rule β} {make : β → α} {sort : α → Prop}
    (takes : first.Takes (fun _ => True) state) :
    (first >>= fun value => pure (make value)).Takes sort state :=
  takes.bind fun _ middle _ _ => pure_balances _ middle

theorem failExpecting_takes (expected : Expected) {sort : α → Prop} (state : GrammarState) :
    (failExpecting expected : Rule α).Takes sort state := by
  unfold failExpecting Takes
  rw [meets_bind, meets_current]
  split <;> exact .refl state

theorem failExpecting_balances (expected : Expected) (state : GrammarState) :
    (failExpecting expected : Rule α).Balances state :=
  have takes : (failExpecting expected : Rule α).Takes (fun _ => True) state := failExpecting_takes _ _
  takes.balances

theorem report_balances (error : ParseError) (state : GrammarState) : (report error).Balances state :=
  ⟨rfl, rfl, rfl, rfl, List.suffix_rfl⟩

theorem Builds.balances [HasChildren α] (builds : rule.Builds state) (poised : state.Poised room) :
    rule.Balances state := by
  refine Meets.mono builds (fun _ _ reads => reads.balanced poised.scope) ?_
  rintro _ _ ⟨_, _, reads⟩
  exact reads.balanced poised.scope

/-- What is made of children that have been read takes tokens. -/
theorem Builds.takes [HasChildren α] (builds : rule.Builds state) (poised : state.Poised room)
    (nonempty : ∀ value : α, pieces value ≠ []) : rule.Takes (fun _ => True) state := by
  refine Meets.mono builds (fun value _ reads => ?_) ?_
  · exact ⟨reads.balanced poised.scope, fun _ => reads.remaining_lt (nonempty value)⟩
  · rintro _ _ ⟨_, _, reads⟩
    exact reads.balanced poised.scope

theorem advance_takes {token : Token} (poised : state.Poised room)
    (current : state.cursor.peek? 0 = some token) : advance.Takes (fun _ => True) state := by
  have meets : advance.Meets state (fun _ after => Reads state [token.toChild] after) fun _ _ => False :=
    advance_meets current
  refine meets.mono (fun _ _ reads => ?_) fun _ _ never => never.elim
  exact ⟨reads.balanced poised.scope, fun _ => reads.remaining_lt (List.cons_ne_nil _ _)⟩

theorem expect_takes (poised : state.Poised room) (kind : TokenKind) :
    (expect kind).Takes (fun _ => True) state :=
  (expect_builds state kind).takes poised fun _ => List.cons_ne_nil _ _

theorem nested_balances (balances : rule.Balances state.deepen) :
    (nested rule).Balances state := by
  unfold nested Balances
  rw [meets_bind, meets_get]
  split
  · exact failExpecting_balances _ state
  · rw [meets_bind, meets_modify, meets_closing]
    exact Meets.mono balances (fun _ _ balanced => balanced.deepen) fun _ _ balanced => balanced.deepen

theorem Settles.balances (settles : rule.Settles state) : rule.Balances state :=
  Meets.mono settles (fun _ _ settled => settled.toBalanced) fun _ _ settled => settled.toBalanced

theorem inScope_settles (poised : state.Poised room)
    (balances : rule.Balances (state.mapScopes Scopes.enter)) : (inScope rule).Settles state := by
  unfold inScope Settles
  rw [meets_bind, mapScopes, meets_modify, meets_closing]
  refine Meets.mono balances (fun _ _ balanced => ?_) fun _ _ balanced => ?_
  · exact balanced.settled poised.scope
  · exact balanced.settled poised.scope

theorem inScope_balances (poised : state.Poised room)
    (balances : rule.Balances (state.mapScopes Scopes.enter)) : (inScope rule).Balances state :=
  (inScope_settles poised balances).balances

/-- A token is accepted, or nothing has happened. -/
theorem accept_meets (poised : state.Poised room) (kind : TokenKind) :
    (accept kind).Meets state
      (fun found after =>
        if found.isSome then state.Balanced after ∧ after.remaining < state.remaining else after = state)
      fun _ _ => False := by
  unfold accept
  rw [meets_bind, meets_current]
  cases current : state.cursor.peek? 0 with
  | none => rfl
  | some token =>
    dsimp only
    split
    · rw [meets_bind]
      have meets : advance.Meets state (fun _ after => Reads state [token.toChild] after) fun _ _ => False :=
        advance_meets current
      refine meets.mono (fun _ _ reads => ?_) fun _ _ never => never
      exact ⟨reads.balanced poised.scope, reads.remaining_lt (List.cons_ne_nil _ _)⟩
    · rfl

section Sequences

variable {next : Token → Rule α} {next? : Option Token → Rule α} {kind : TokenKind} {sort : α → Prop}

theorem expect_bind (poised : state.Poised (room + 1))
    (later : ∀ token middle, middle.Poised room → (next token).Balances middle) :
    (expect kind >>= next).Balances state :=
  (expect_takes poised kind).step fun token middle balanced fewer =>
    later token middle (poised.behind_pred balanced (fewer trivial))

theorem accept_bind_takes (poised : state.Poised (room + 1))
    (found : ∀ token middle, middle.Poised room → (next? (some token)).Balances middle)
    (missing : (next? none).Takes sort state) : (accept kind >>= next?).Takes sort state := by
  unfold Takes
  rw [meets_bind]
  refine (accept_meets poised kind).mono (fun token? middle outcome => ?_) fun _ _ never => never.elim
  cases token? with
  | none =>
    obtain rfl : middle = state := outcome
    exact missing
  | some token =>
    obtain ⟨front, fewer⟩ : state.Balanced middle ∧ middle.remaining < state.remaining := outcome
    have balances := found token middle (poised.behind_pred front fewer)
    refine balances.mono (fun _ _ back => ⟨front.trans back, fun _ => ?_⟩) fun _ _ back => front.trans back
    exact Nat.lt_of_le_of_lt back.remaining_le fewer

theorem accept_bind (poised : state.Poised (room + 1))
    (found : ∀ token middle, middle.Poised room → (next? (some token)).Balances middle)
    (missing : (next? none).Balances state) : (accept kind >>= next?).Balances state :=
  (accept_bind_takes poised found missing.takesNothing).balances

/-- A rule that does not take a token, or of which that is not known. -/
theorem step (poised : state.Poised room) {first : Rule β} {then_ : β → Rule α}
    (balances : first.Balances state)
    (later : ∀ value middle, middle.Poised room → (then_ value).Balances middle) :
    (first >>= then_).Balances state :=
  balances.bind fun value middle balanced => later value middle (poised.behind balanced)

end Sequences

/-- A loop whose rounds take a token if they go on. -/
theorem loop_balances (poised : state.Poised room) {round : σ → Rule (Sum σ α)} (start : σ)
    (rounds : ∀ current state, state.Poised room → (round current).Takes (·.isLeft = true) state) :
    (loop round start).Balances state := by
  refine Meets.loop (fun _ middle => state.Balanced middle) (fun current middle front => ?_) (.refl state)
  refine (rounds current middle (poised.behind front)).mono (fun answer after outcome => ?_)
    fun _ _ back => front.trans back
  cases answer with
  | inl next => exact ⟨front.trans outcome.1, outcome.2 rfl⟩
  | inr result => exact front.trans outcome.1

theorem many_balances (poised : state.Poised room) {round : Rule (Option α)}
    (rounds : ∀ state, state.Poised room → round.Takes (·.isSome = true) state) :
    (many round).Balances state := by
  refine loop_balances poised [] fun collected middle poised => ?_
  unfold Takes
  rw [meets_bind]
  refine (rounds middle poised).mono (fun found after outcome => ?_) fun _ _ balanced => balanced
  cases found with
  | none => exact ⟨outcome.1, nofun⟩
  | some value => exact ⟨outcome.1, fun _ => outcome.2 rfl⟩

theorem unlessAt_balances {closer : TokenKind} {rule : Rule (List Child)} (balances : rule.Balances state) :
    (unlessAt closer rule).Balances state := by
  unfold unlessAt Balances
  rw [meets_bind, meets_check]
  split
  · exact pure_balances _ state
  · exact balances

theorem only_balances {place : Node → Child} {rule : Rule Node} (balances : rule.Balances state) :
    (only place rule).Balances state :=
  balances.made

theorem advance_balances (poised : state.Poised room) : advance.Balances state := by
  cases current : state.cursor.peek? 0 with
  | some token => exact (advance_takes poised current).balances
  | none =>
    have missing : Word.read? state.cursor.mode state.cursor.rest = none := Option.map_eq_none_iff.mp current
    unfold advance Balances
    rw [meets_modify, Cursor.advance?, missing]
    exact .refl state

end Rule

end OpenCLTree
