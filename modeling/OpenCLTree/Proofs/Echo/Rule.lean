import OpenCLTree.Proofs.Echo.Setting

namespace OpenCLTree

/-- Values of rules that have an image in a second run. -/
class Echoed (α : Type) where
  image : Echo → α → α

/-- What a value of the first run is in the second. -/
abbrev Echo.image {α : Type} [Echoed α] (e : Echo) (value : α) : α :=
  Echoed.image e value

instance : Echoed Unit := ⟨fun _ value => value⟩

instance : Echoed Bool := ⟨fun _ value => value⟩

instance : Echoed Token := ⟨Echo.token⟩

instance : Echoed Node := ⟨fun e => Node.mapTokens e.token⟩

instance : Echoed Child := ⟨fun e => Child.mapTokens e.token⟩

instance {α : Type} [Echoed α] : Echoed (List α) := ⟨fun e => List.map e.image⟩

instance {α : Type} [Echoed α] : Echoed (Option α) := ⟨fun e => Option.map e.image⟩

instance {σ α : Type} [Echoed σ] [Echoed α] : Echoed (σ × α) :=
  ⟨fun e => Prod.map e.image e.image⟩

instance {σ α : Type} [Echoed σ] [Echoed α] : Echoed (Sum σ α) :=
  ⟨fun e => Sum.map e.image e.image⟩

namespace Echo

variable {α : Type} [Echoed α] (e : Echo)

@[simp]
theorem image_token (leaf : Token) : e.image leaf = e.token leaf := rfl

@[simp]
theorem image_node (node : Node) : e.image node = node.mapTokens e.token := rfl

@[simp]
theorem image_child (child : Child) : e.image child = child.mapTokens e.token := rfl

@[simp]
theorem image_children (children : List Child) :
    e.image children = children.map (Child.mapTokens e.token) := rfl

@[simp]
theorem image_none : e.image (none : Option α) = none := rfl

@[simp]
theorem image_some (value : α) : e.image (some value) = some (e.image value) := rfl

@[simp]
theorem image_inl {β : Type} [Echoed β] (value : α) :
    e.image (.inl value : Sum α β) = .inl (e.image value) := rfl

@[simp]
theorem image_inr {β : Type} [Echoed β] (value : α) :
    e.image (.inr value : Sum β α) = .inr (e.image value) := rfl

@[simp]
theorem image_pair {β : Type} [Echoed β] (value : α) (other : β) :
    e.image (value, other) = (e.image value, e.image other) := rfl

@[simp]
theorem image_fst {β : Type} [Echoed β] (value : α × β) : (e.image value).1 = e.image value.1 := rfl

@[simp]
theorem image_snd {β : Type} [Echoed β] (value : α × β) : (e.image value).2 = e.image value.2 := rfl

@[simp]
theorem image_bool (value : Bool) : e.image value = value := rfl

@[simp]
theorem image_unit (value : Unit) : e.image value = value := rfl

theorem image_list (values : List α) : e.image values = values.map e.image := rfl

@[simp]
theorem image_nil : e.image ([] : List α) = [] := rfl

@[simp]
theorem isEmpty_image (values : List α) : (e.image values).isEmpty = values.isEmpty :=
  List.isEmpty_map

@[simp]
theorem image_append (front back : List α) :
    e.image (front ++ back) = e.image front ++ e.image back :=
  List.map_append

end Echo

namespace Rule

theorem failExpecting_eq {α : Type} (expected : Expected) (state : GrammarState) :
    (failExpecting expected : Rule α) state = .failed (state.unexpected expected) state := by
  have looked : current state = .done (state.cursor.peek? 0) state := rfl
  unfold failExpecting GrammarState.unexpected
  rw [bind_done looked]
  cases state.cursor.peek? 0 <;> rfl

variable {α β σ : Type} [Echoed α] [Echoed β] [Echoed σ]

/-- Whether a rule of the second run ends as the first run did, wherever the states agree. -/
def EndsAlike (e : Echo) (rule : Rule α) (state : GrammarState) (outcome : Outcome α) : Prop :=
  ∀ other, e.Agrees state other →
    match outcome with
    | .done value after =>
      ∃ last, rule other = .done (e.image value) last ∧ e.Agrees after last ∧ other.Trails 0 last
    | .failed _ after =>
      ∃ error last, rule other = .failed error last ∧ e.Late error ∧ e.Agrees after last ∧
        other.Trails 0 last
    | .exhausted => True

/-- What a rule does to the brackets, from the guard in front of it to the guard behind it. -/
def Keeps (e : Echo) (pre post : Guard) (words later : List Word) : Prop :=
  post = none ∨ ∀ depth, e.Guards pre depth words ↔ e.Guards post depth later

/-- Whether nothing that comes later can change what a rule has done. Where brackets do not
matter, the rule must have been quiet. -/
def Clear (e : Echo) (post : Guard) (margin : Nat) (state after : GrammarState) : Prop :=
  e.after = [] ∨
    margin ≤ after.remaining ∧ (post = none → after.reports.length ≤ state.reports.length)

/-- Whether a second run echoes a rule of the first run. When the rule succeeds, the second run
does too, if `margin` words are left. When it fails, so does the second run, if the guard in
front of the rule made sure that there were words left. -/
def EchoesAt (e : Echo) (pre post : Guard) (margin gain : Nat) (one two : Rule α)
    (state : GrammarState) : Prop :=
  e.Sound state →
    match one state with
    | .done value after =>
      state.Trails gain after ∧ Keeps e pre post state.cursor.rest after.cursor.rest ∧
        (Clear e post margin state after → two.EndsAlike e state (.done value after))
    | .failed error after =>
      state.Trails 0 after ∧
        (e.Guards pre 0 state.cursor.rest →
          e.Guards (some 0) 0 after.cursor.rest ∧ two.EndsAlike e state (.failed error after))
    | .exhausted => True

variable {e : Echo} {pre mid post guard : Guard} {margin near gain more : Nat}
  {state after : GrammarState}

theorem Keeps.refl (e : Echo) (guard : Guard) (words : List Word) : Keeps e guard guard words words :=
  .inr fun _ => Iff.rfl

theorem Keeps.trans {words later last : List Word} [late : mid.Covers post]
    (front : Keeps e pre mid words later) (back : Keeps e mid post later last) :
    Keeps e pre post words last := by
  rcases back with none | back
  · exact .inl none
  · rcases front with none | front
    · exact .inl (late.loose none)
    · exact .inr fun depth => (front depth).trans (back depth)

theorem Keeps.guards {words later : List Word} [early : mid.Covers pre]
    (keeps : Keeps e pre mid words later) (guards : e.Guards pre 0 words) : e.Guards mid 0 later := by
  rcases keeps with none | keeps
  · rw [early.loose none, Echo.guards_none] at guards
    exact .inl guards
  · exact (keeps 0).mp guards

/-- A rule ends alike if the second run comes to where another rule does. -/
theorem EndsAlike.replay {one two : Rule α} {outcome : Outcome α} (alike : two.EndsAlike e after outcome)
    (replays : ∀ other, e.Agrees state other → ∃ middle, e.Agrees after middle ∧
      other.Trails 0 middle ∧ one other = two middle) : one.EndsAlike e state outcome := by
  intro other agrees
  obtain ⟨middle, agrees', trails, same⟩ := replays other agrees
  have ends := alike middle agrees'
  cases outcome with
  | exhausted => trivial
  | failed error last =>
    obtain ⟨error', last', run, late, agrees'', trails'⟩ := ends
    exact ⟨error', last', same.trans run, late, agrees'', trails.trans trails'⟩
  | done result last =>
    obtain ⟨last', run, agrees'', trails'⟩ := ends
    exact ⟨last', same.trans run, agrees'', trails.trans trails'⟩

theorem EndsAlike.bind {first : Rule β} {next : β → Rule α} {value : β} {outcome : Outcome α}
    (alike : first.EndsAlike e state (.done value after))
    (later : (next (e.image value)).EndsAlike e after outcome) :
    (first >>= next).EndsAlike e state outcome := by
  refine later.replay fun other agrees => ?_
  obtain ⟨middle, run, agrees', trails⟩ := alike other agrees
  exact ⟨middle, agrees', trails, bind_done run⟩

theorem EndsAlike.bind_failed {first : Rule β} {next : β → Rule α} {error : ParseError}
    (alike : first.EndsAlike e state (.failed error after)) :
    (first >>= next).EndsAlike e state (.failed error after) := by
  intro other agrees
  obtain ⟨error', last, run, ends⟩ := alike other agrees
  exact ⟨error', last, Rule.bind_failed run, ends⟩

namespace EchoesAt

variable {one two : Rule α}

theorem done (echoes : one.EchoesAt e pre post margin gain two state) (sound : e.Sound state)
    {value : α} (run : one state = .done value after) :
    state.Trails gain after ∧ Keeps e pre post state.cursor.rest after.cursor.rest ∧
      (Clear e post margin state after → two.EndsAlike e state (.done value after)) := by
  have outcome := echoes sound
  rwa [run] at outcome

theorem failed (echoes : one.EchoesAt e pre post margin gain two state) (sound : e.Sound state)
    {error : ParseError} (run : one state = .failed error after) :
    state.Trails 0 after ∧
      (e.Guards pre 0 state.cursor.rest →
        e.Guards (some 0) 0 after.cursor.rest ∧ two.EndsAlike e state (.failed error after)) := by
  have outcome := echoes sound
  rwa [run] at outcome

theorem ofValue {value image : α} (same : image = e.image value) :
    (pure value : Rule α).EchoesAt e guard guard margin 0 (pure image) state := by
  intro sound
  refine ⟨.refl state, .refl e guard _, fun _ other agrees => ?_⟩
  exact ⟨other, by rw [same]; rfl, agrees, .refl other⟩

/-- Rules that run alike in a state and in those that agree with it echo alike. -/
theorem congr {one' two' : Rule α} (echoes : one.EchoesAt e pre post margin gain two state)
    (here : e.Sound state → one' state = one state)
    (there : ∀ other, e.Sound state → e.Agrees state other → two' other = two other) :
    one'.EchoesAt e pre post margin gain two' state := by
  intro sound
  have replays (other : GrammarState) (agrees : e.Agrees state other) : ∃ middle,
      e.Agrees state middle ∧ other.Trails 0 middle ∧ two' other = two middle :=
    ⟨other, agrees, .refl other, there other sound agrees⟩
  rw [here sound]
  cases run : one state with
  | exhausted => trivial
  | failed error after =>
    obtain ⟨trails, follows⟩ := echoes.failed sound run
    exact ⟨trails, fun guards => (follows guards).imp_right fun alike => alike.replay replays⟩
  | done value after =>
    obtain ⟨trails, keeps, follows⟩ := echoes.done sound run
    exact ⟨trails, keeps, fun clear => (follows clear).replay replays⟩

theorem weaken {margin' gain' : Nat} (echoes : one.EchoesAt e pre post margin gain two state)
    (above : margin ≤ margin') (below : gain' ≤ gain) :
    one.EchoesAt e pre post margin' gain' two state := by
  intro sound
  cases run : one state with
  | done value after =>
    obtain ⟨trails, keeps, follows⟩ := echoes.done sound run
    refine ⟨trails.weaken below, keeps, fun clear => follows ?_⟩
    exact clear.imp_right fun ⟨enough, quiet⟩ => ⟨Nat.le_trans above enough, quiet⟩
  | failed error after => exact echoes.failed sound run
  | exhausted => trivial

theorem anyGain (echoes : one.EchoesAt e pre post margin gain two state) :
    one.EchoesAt e pre post margin 0 two state :=
  echoes.weaken (Nat.le_refl margin) (Nat.zero_le gain)

/-- One rule after another. The second takes what the first leaves. -/
theorem chain {first first' : Rule β} {next next' : β → Rule α}
    (echoes : first.EchoesAt e pre mid near more first' state)
    (later : ∀ value after, first state = .done value after →
      (next value).EchoesAt e mid post margin (gain - more) (next' (e.image value)) after)
    (room : near ≤ margin + (gain - more))
    (stops : ∀ value after, first state = .done value after →
      e.Guards mid 0 after.cursor.rest → e.Reaches near after)
    [early : mid.Covers pre] [late : mid.Covers post] :
    (first >>= next).EchoesAt e pre post margin gain (first' >>= next') state := by
  intro sound
  cases runFirst : first state with
  | exhausted =>
    rw [bind_exhausted runFirst]
    trivial
  | failed error after =>
    obtain ⟨trails, follows⟩ := echoes.failed sound runFirst
    rw [Rule.bind_failed runFirst]
    exact ⟨trails, fun guards => (follows guards).imp_right EndsAlike.bind_failed⟩
  | done value middle =>
    obtain ⟨trails, keeps, follows⟩ := echoes.done sound runFirst
    have echoes' := later value middle runFirst
    have sound' := sound.trail trails
    rw [bind_done runFirst]
    cases runNext : next value middle with
    | exhausted => trivial
    | failed error after =>
      obtain ⟨trails', follows'⟩ := echoes'.failed sound' runNext
      refine ⟨(trails.trans trails').weaken (Nat.zero_le _), fun guards => ?_⟩
      have inside := keeps.guards guards
      have clear : Clear e mid near state middle := by
        by_cases none : mid = none
        · rw [none, Echo.guards_none] at inside
          exact .inl inside
        · exact (stops value middle runFirst inside).imp_right fun enough =>
            ⟨enough, fun isNone => absurd isNone none⟩
      exact (follows' inside).imp_right (follows clear).bind
    | done result after =>
      obtain ⟨trails', keeps', follows'⟩ := echoes'.done sound' runNext
      have fewer := trails'.fewer
      refine ⟨(trails.trans trails').weaken (by omega), keeps.trans keeps', fun clear => ?_⟩
      have fewer' := trails.reports.length_le
      have more := trails'.reports.length_le
      have clear' : Clear e post margin middle after := clear.imp_right fun ⟨enough, quiet⟩ =>
        ⟨enough, fun isNone => Nat.le_trans (quiet isNone) fewer'⟩
      have clear : Clear e mid near state middle := clear.imp_right fun ⟨enough, quiet⟩ =>
        ⟨by omega, fun isNone => Nat.le_trans more (quiet (late.loose isNone))⟩
      exact (follows clear).bind (follows' clear')

theorem bind {first first' : Rule β} {next next' : β → Rule α}
    (echoes : first.EchoesAt e pre mid near more first' state)
    (later : ∀ value after, first state = .done value after →
      (next value).EchoesAt e mid post margin (gain - more) (next' (e.image value)) after)
    [seen : Seen near margin (gain - more)] [mid.Covers pre] [mid.Covers post] :
    (first >>= next).EchoesAt e pre post margin gain (first' >>= next') state :=
  chain echoes later seen.room fun _ _ _ guards => guards.reaches seen.near

/-- A rule whose value is put into another form at its end. -/
theorem give {first first' : Rule β} {form form' : β → α}
    (echoes : first.EchoesAt e pre post margin gain first' state)
    (same : ∀ value, form' (e.image value) = e.image (form value)) :
    (first >>= fun value => pure (form value)).EchoesAt e pre post margin gain
      (first' >>= fun value => pure (form' value)) state := by
  intro sound
  cases run : first state with
  | exhausted =>
    rw [bind_exhausted run]
    trivial
  | failed error after =>
    obtain ⟨trails, follows⟩ := echoes.failed sound run
    rw [Rule.bind_failed run]
    exact ⟨trails, fun guards => (follows guards).imp_right EndsAlike.bind_failed⟩
  | done value after =>
    obtain ⟨trails, keeps, follows⟩ := echoes.done sound run
    rw [bind_done run]
    refine ⟨trails, keeps, fun clear => (follows clear).bind fun other agrees => ?_⟩
    exact ⟨other, by rw [same]; rfl, agrees, .refl other⟩

/-- A rule that looks at the state before it goes on. In the second run it may have to see up to
`near` words. -/
theorem look {γ : Type} {query query' : Rule γ} {found found' : γ} {next next' : γ → Rule α}
    (here : e.Sound state → query state = .done found state)
    (there : ∀ other, e.Sound state → e.Agrees state other → e.Reaches near state →
      query' other = .done found' other)
    (later : (next found).EchoesAt e pre post margin gain (next' found') state)
    (room : near ≤ margin + gain)
    (stops : e.Guards pre 0 state.cursor.rest → e.Reaches near state) :
    (query >>= next).EchoesAt e pre post margin gain (query' >>= next') state := by
  intro sound
  rw [bind_done (here sound)]
  have goesOn (reaches : e.Reaches near state) {outcome : Outcome α}
      (follows : (next' found').EndsAlike e state outcome) :
      (query' >>= next').EndsAlike e state outcome :=
    follows.replay fun other agrees =>
      ⟨other, agrees, .refl other, bind_done (there other sound agrees reaches)⟩
  cases run : next found state with
  | exhausted => trivial
  | failed error after =>
    obtain ⟨trails, follows⟩ := later.failed sound run
    exact ⟨trails, fun guards => ⟨(follows guards).1, goesOn (stops guards) (follows guards).2⟩⟩
  | done value after =>
    obtain ⟨trails, keeps, follows⟩ := later.done sound run
    refine ⟨trails, keeps, fun clear => goesOn ?_ (follows clear)⟩
    refine clear.imp_right fun ⟨enough, _⟩ => ?_
    have fewer := trails.fewer
    omega

theorem failExpecting (expected expected' : Expected) :
    (Rule.failExpecting expected : Rule α).EchoesAt e pre post margin gain
      (Rule.failExpecting expected') state := by
  intro sound
  rw [failExpecting_eq]
  refine ⟨.refl state, fun guards => ⟨guards.base, fun other agrees => ?_⟩⟩
  have reaches := guards.reaches (Nat.le_refl 1)
  exact ⟨_, other, failExpecting_eq expected' other, agrees.late sound reaches expected', agrees,
    .refl other⟩

theorem fail (error : ParseError) {error' : ParseError} (late : e.Late error') :
    (Rule.fail error : Rule α).EchoesAt e pre post margin gain (Rule.fail error') state := by
  intro _
  refine ⟨.refl state, fun guards => ⟨guards.base, fun other agrees => ?_⟩⟩
  exact ⟨error', other, rfl, late, agrees, .refl other⟩

end EchoesAt

end Rule

end OpenCLTree
