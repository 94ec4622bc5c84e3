import OpenCLTree.Grammar.Cursor
import OpenCLTree.Grammar.Scopes
import OpenCLTree.Syntax.Diagnostic
import OpenCLTree.Syntax.Node

namespace OpenCLTree

/-- How deep expressions, statements and declarators may nest. -/
def nestingLimit : Nat := 256

/-- What the grammar keeps while it reads: its place, the names in scope, the errors reported
so far in order, and how deep it is nested. -/
structure GrammarState where
  cursor : Cursor
  scopes : Scopes
  reports : List ParseError
  nesting : Nat

namespace GrammarState

def ofTokens (tokens : List Token) : GrammarState :=
  ⟨Cursor.ofTokens tokens, Scopes.file, [], 0⟩

/-- The number of tokens still to come. -/
def remaining (state : GrammarState) : Nat :=
  state.cursor.rest.length

end GrammarState

/-- How a rule ends. A failure leaves the state at the place where it happened. Exhaustion
means that the recursion was not given enough room; nothing catches it. -/
inductive Outcome (α : Type)
  | done (value : α) (state : GrammarState)
  | failed (error : ParseError) (state : GrammarState)
  | exhausted

/-- A rule of the grammar. -/
def Rule (α : Type) : Type :=
  GrammarState → Outcome α

namespace Rule

def ofValue {α : Type} (value : α) : Rule α :=
  fun state => .done value state

def andThen {α β : Type} (first : Rule α) (second : α → Rule β) : Rule β :=
  fun state =>
    match first state with
    | .done value after => second value after
    | .failed error after => .failed error after
    | .exhausted => .exhausted

instance : Monad Rule where
  pure := ofValue
  bind := andThen

def exhaust {α : Type} : Rule α :=
  fun _ => .exhausted

def fail {α : Type} (error : ParseError) : Rule α :=
  fun state => .failed error state

def get : Rule GrammarState :=
  fun state => .done state state

def modify (change : GrammarState → GrammarState) : Rule Unit :=
  fun state => .done () (change state)

/-- Runs a rule and hands over its error if it fails. -/
def attempt {α : Type} (rule : Rule α) : Rule (Except ParseError α) :=
  fun state =>
    match rule state with
    | .done value after => .done (.ok value) after
    | .failed error after => .done (.error error) after
    | .exhausted => .exhausted

/-- Makes a closing change after a rule, whether it succeeds or fails. -/
def closing {α : Type} (rule : Rule α) (change : GrammarState → GrammarState) : Rule α :=
  fun state =>
    match rule state with
    | .done value after => .done value (change after)
    | .failed error after => .failed error (change after)
    | .exhausted => .exhausted

/-- Repeats `step` until it answers with a result, for at most `rounds` rounds. -/
def loopFor {σ α : Type} (step : σ → Rule (Sum σ α)) : Nat → σ → Rule α
  | 0, _ => exhaust
  | rounds + 1, current => do
    match ← step current with
    | .inl next => loopFor step rounds next
    | .inr result => pure result

/-- Repeats `step` until it answers with a result. Every round that goes on takes a token, so
the tokens that remain bound the rounds. -/
def loop {σ α : Type} (step : σ → Rule (Sum σ α)) (start : σ) : Rule α :=
  fun state => loopFor step (state.remaining + 1) start state

/-- Collects the answers of `step` until there is none. -/
def many {α : Type} (step : Rule (Option α)) : Rule (List α) :=
  loop (fun collected => do
    match ← step with
    | some value => pure (.inl (collected ++ [value]))
    | none => pure (.inr collected)) []

def scopes : Rule Scopes := do
  pure (← get).scopes

def mapScopes (change : Scopes → Scopes) : Rule Unit :=
  modify fun state => { state with scopes := change state.scopes }

def declare (name : String) (sort : NameSort) : Rule Unit :=
  mapScopes (·.declare name sort)

/-- Runs a rule in a scope of its own. -/
def inScope {α : Type} (rule : Rule α) : Rule α := do
  mapScopes Scopes.enter
  closing rule fun state => { state with scopes := state.scopes.leave }

/-- Records an error that does not stop the rule. -/
def report (error : ParseError) : Rule Unit :=
  modify fun state => { state with reports := state.reports ++ [error] }

def setMode (mode : LexMode) : Rule Unit :=
  modify fun state => { state with cursor := state.cursor.setMode mode }

/-- Runs a rule with another reading of dots. -/
def inMode {α : Type} (mode : LexMode) (rule : Rule α) : Rule α := do
  let outer := (← get).cursor.mode
  setMode mode
  closing rule fun state => { state with cursor := state.cursor.setMode outer }

/-- The token after `ahead` others. -/
def peek (ahead : Nat) : Rule (Option Token) := do
  pure ((← get).cursor.peek? ahead)

def current : Rule (Option Token) :=
  peek 0

def currentKind : Rule (Option TokenKind) := do
  pure ((← current).map (·.kind))

def check (kind : TokenKind) : Rule Bool := do
  pure ((← currentKind) == some kind)

def atEnd : Rule Bool := do
  pure (← current).isNone

/-- Passes the current token. -/
def advance : Rule Unit :=
  modify fun state =>
    match state.cursor.advance? with
    | some (_, cursor) => { state with cursor }
    | none => state

/-- Takes the current token if it is of a kind. -/
def accept (kind : TokenKind) : Rule (Option Token) := do
  match ← current with
  | some token =>
    if token.kind = kind then
      advance
      pure (some token)
    else pure none
  | none => pure none

/-- Fails because something else was expected at the current token. -/
def failExpecting {α : Type} (expected : Expected) : Rule α := do
  match ← current with
  | some token => fail (.unexpectedToken expected token.description token.span)
  | none =>
    let place := (← get).cursor.place
    fail (.unexpectedEnd expected ⟨place, place⟩)

def expect (kind : TokenKind) : Rule Token := do
  match ← accept kind with
  | some token => pure token
  | none => failExpecting (.token kind)

/-- Reads some children, or none if a token stands there that goes without them. -/
def unlessAt (closer : TokenKind) (rule : Rule (List Child)) : Rule (List Child) := do
  if ← check closer then pure [] else rule

/-- Reads a node as the only child of its kind. -/
def only (place : Node → Child) (rule : Rule Node) : Rule (List Child) := do
  let node ← rule
  pure [place node]

/-- Runs a rule one level deeper. -/
def nested {α : Type} (rule : Rule α) : Rule α := do
  if nestingLimit ≤ (← get).nesting then failExpecting .shallowerNesting
  else
    modify fun state => { state with nesting := state.nesting + 1 }
    closing rule fun state => { state with nesting := state.nesting - 1 }

end Rule

/-- A point to which the grammar can go back. The journal of the scopes knows the rest. -/
structure Snapshot where
  cursor : Cursor
  reports : Nat
  scopes : Nat

namespace Rule

def snapshot : Rule Snapshot := do
  let state ← get
  pure ⟨state.cursor, state.reports.length, state.scopes.mark⟩

/-- Goes back to a snapshot. What was reported and declared since is forgotten. -/
def restore (snapshot : Snapshot) : Rule Unit :=
  modify fun state =>
    { state with
      cursor := snapshot.cursor
      reports := state.reports.take snapshot.reports
      scopes := state.scopes.undoTo snapshot.scopes }

/-- Reads items, each followed by a comma except perhaps the last, up to `closer`. The commas
are among the children. -/
def commaSeparated (closer : TokenKind) (item : Rule Node) : Rule (List Child) :=
  loop (fun children => do
    if ← check closer then pure (.inr children)
    else
      let node ← item
      match ← accept (.punct .comma) with
      | some comma => pure (.inl (children ++ [node.toChild, comma.toChild]))
      | none => pure (.inr (children ++ [node.toChild]))) []

end Rule

end OpenCLTree
