import OpenCLTree.Proofs.Echo.Steps

namespace OpenCLTree

namespace Rule

variable {α σ : Type} [Echoed α] [Echoed σ] {e : Echo} {pre mid post guard : Guard}
  {margin gain : Nat} {state after : GrammarState}

/-- One round of collecting answers. -/
def collect {α : Type} (step : Rule (Option α)) (collected : List α) : Rule (List α ⊕ List α) := do
  match ← step with
  | some value => pure (.inl (collected ++ [value]))
  | none => pure (.inr collected)

namespace EchoesAt

section Loops

variable {step step' : σ → Rule (Sum σ α)}

/-- The rule for loops: rounds that echo from where a property holds, and keep it when they go on,
make a loop that echoes. The second run may have more rounds left. -/
theorem loopFor (keeps : σ → GrammarState → Prop)
    (round : ∀ current state, keeps current state →
      (step current).EchoesAt e guard guard 1 0 (step' (e.image current)) state)
    (goesOn : ∀ current state next after, keeps current state →
      step current state = .done (.inl next) after → keeps next after)
    {rounds rounds' : Nat} (enough : rounds ≤ rounds') {current : σ} (begins : keeps current state) :
    (Rule.loopFor step rounds current).EchoesAt e guard guard 1 0
      (Rule.loopFor step' rounds' (e.image current)) state := by
  induction rounds generalizing rounds' current state with
  | zero =>
    intro sound
    trivial
  | succ rounds ih =>
    obtain ⟨more, rfl⟩ := Nat.exists_eq_add_of_le' enough
    refine bind (round current state begins) fun answer after run => ?_
    cases answer with
    | inl next => exact ih (Nat.le_add_left rounds more) (goesOn current state next after begins run)
    | inr result => exact ofValue rfl

/-- A loop takes at least what its first round takes. -/
theorem loop (keeps : σ → GrammarState → Prop)
    (round : ∀ current state, keeps current state →
      (step current).EchoesAt e guard guard 1 0 (step' (e.image current)) state)
    (goesOn : ∀ current state next after, keeps current state →
      step current state = .done (.inl next) after → keeps next after)
    {start : σ} (begins : keeps start state)
    (first : (step start).EchoesAt e guard guard 1 gain (step' (e.image start)) state) :
    (Rule.loop step start).EchoesAt e guard guard 1 gain (Rule.loop step' (e.image start))
      state := by
  intro sound
  have rounds {count : Nat} (enough : state.remaining + 1 ≤ count) :
      (Rule.loopFor step (state.remaining + 1) start).EchoesAt e guard guard 1 gain
        (Rule.loopFor step' count (e.image start)) state := by
    obtain ⟨more, rfl⟩ := Nat.exists_eq_add_of_le' enough
    refine bind first fun answer after run => ?_
    rw [Nat.sub_self]
    cases answer with
    | inl next =>
      exact loopFor keeps round goesOn (Nat.le_add_left _ more) (goesOn start state next after begins run)
    | inr result => exact ofValue rfl
  have more (other : GrammarState) (agrees : e.Agrees state other) :
      state.remaining + 1 ≤ other.remaining + 1 := by
    unfold GrammarState.remaining
    rw [agrees.rest, List.length_append, List.length_map]
    omega
  have bounded : Rule.loop step start state =
      Rule.loopFor step (state.remaining + 1) start state := rfl
  rw [bounded]
  cases run : Rule.loopFor step (state.remaining + 1) start state with
  | exhausted => trivial
  | failed error after =>
    obtain ⟨trails, follows⟩ := (rounds (Nat.le_refl _)).failed sound run
    refine ⟨trails, fun guards => ⟨(follows guards).1, fun other agrees => ?_⟩⟩
    exact (((rounds (more other agrees)).failed sound run).2 guards).2 other agrees
  | done value after =>
    obtain ⟨trails, keeps, _⟩ := (rounds (Nat.le_refl _)).done sound run
    refine ⟨trails, keeps, fun clear other agrees => ?_⟩
    exact ((rounds (more other agrees)).done sound run).2.2 clear other agrees

/-- A loop whose rounds echo from everywhere. -/
theorem repeatedFrom {start : σ}
    (round : ∀ current state,
      (step current).EchoesAt e guard guard 1 0 (step' (e.image current)) state)
    (first : (step start).EchoesAt e guard guard 1 gain (step' (e.image start)) state) :
    (Rule.loop step start).EchoesAt e guard guard 1 gain (Rule.loop step' (e.image start))
      state :=
  loop (fun _ _ => True) (fun current state _ => round current state) (fun _ _ _ _ _ _ => trivial)
    trivial first

theorem repeated {start : σ}
    (round : ∀ current state,
      (step current).EchoesAt e guard guard 1 0 (step' (e.image current)) state) :
    (Rule.loop step start).EchoesAt e guard guard 1 0 (Rule.loop step' (e.image start)) state :=
  repeatedFrom round (round start state)

theorem manyFrom {step step' : Rule (Option α)}
    (round : ∀ state, step.EchoesAt e guard guard 1 0 step' state)
    (first : step.EchoesAt e guard guard 1 gain step' state) :
    (Rule.many step).EchoesAt e guard guard 1 gain (Rule.many step') state := by
  have collects {state : GrammarState} {gain : Nat} (collected : List α)
      (here : step.EchoesAt e guard guard 1 gain step' state) :
      (collect step collected).EchoesAt e guard guard 1 gain (collect step' (e.image collected))
        state := by
    refine bind here fun found after _ => ?_
    rw [Nat.sub_self]
    cases found with
    | none => exact ofValue rfl
    | some value => exact ofValue (congrArg Sum.inl (e.image_append collected [value]).symm)
  exact repeatedFrom (fun collected state => collects collected (round state)) (collects [] first)

theorem many {step step' : Rule (Option α)}
    (round : ∀ state, step.EchoesAt e guard guard 1 0 step' state) :
    (Rule.many step).EchoesAt e guard guard 1 0 (Rule.many step') state :=
  manyFrom round (round state)

theorem commaSeparated {closer : TokenKind} {item item' : Rule Node}
    (round : ∀ state, item.EchoesAt e guard guard 1 0 item' state) :
    (Rule.commaSeparated closer item).EchoesAt e guard guard 1 0
      (Rule.commaSeparated closer item') state := by
  refine repeated fun children state => ?_
  refine check (fun _ _ _ _ => ofValue rfl) fun _ => ?_
  refine bind (round state) fun node after _ => ?_
  refine acceptStays rfl (fun word rest _ _ => ?_) fun _ => ?_
  · exact ofValue (by simp)
  · exact ofValue (by simp)

theorem unlessAt {closer : TokenKind} {rule rule' : Rule (List Child)}
    (echoes : rule.EchoesAt e guard guard 1 gain rule' state) :
    (Rule.unlessAt closer rule).EchoesAt e guard guard 1 0 (Rule.unlessAt closer rule') state := by
  refine check (fun _ _ _ _ => ofValue rfl) fun _ => ?_
  exact echoes.anyGain

theorem only {place : Node → Child} {rule rule' : Rule Node}
    (echoes : rule.EchoesAt e pre post margin gain rule' state)
    (same : ∀ node, place (e.image node) = e.image (place node)) :
    (Rule.only place rule).EchoesAt e pre post margin gain (Rule.only place rule') state :=
  give echoes fun node => congrArg (fun child : Child => [child]) (same node)

end Loops

end EchoesAt

end Rule

end OpenCLTree
