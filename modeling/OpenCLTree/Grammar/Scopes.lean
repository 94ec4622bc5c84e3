namespace OpenCLTree

/-- What a declared name stands for. -/
inductive NameSort
  | type | ordinary
  deriving DecidableEq

/-- What each name stands for in one scope, if the scope declares it. -/
abbrev Scope := String → Option NameSort

namespace Scope

def empty : Scope :=
  fun _ => none

/-- Binds a name, or frees it. -/
def assign (scope : Scope) (name : String) (sort : Option NameSort) : Scope :=
  fun other => if other = name then sort else scope other

theorem assign_assign_self (scope : Scope) (name : String) (sort : Option NameSort) :
    (scope.assign name sort).assign name (scope name) = scope := by
  funext other
  by_cases same : other = name <;> simp [assign, same]

end Scope

/-- A change to the scopes, with what it takes to revert it. -/
inductive ScopeEdit
  | opened
  | closed (scope : Scope)
  | declared (name : String) (earlier : Option NameSort)

/-- The open scopes, innermost first, and all changes made to them, latest first. The
outermost scope is the file. -/
structure Scopes where
  layers : List Scope
  journal : List ScopeEdit

namespace Scopes

def file : Scopes := ⟨[.empty], []⟩

def enter (scopes : Scopes) : Scopes :=
  ⟨.empty :: scopes.layers, .opened :: scopes.journal⟩

/-- Closes the innermost scope; the file scope stays open. -/
def leave (scopes : Scopes) : Scopes :=
  match scopes.layers with
  | inner :: outer :: rest => ⟨outer :: rest, .closed inner :: scopes.journal⟩
  | _ => scopes

/-- Declares a name in the innermost scope. -/
def declare (scopes : Scopes) (name : String) (sort : NameSort) : Scopes :=
  match scopes.layers with
  | [] => scopes
  | inner :: rest =>
    ⟨inner.assign name (some sort) :: rest, .declared name (inner name) :: scopes.journal⟩

/-- The number of changes so far, which stands for the present state. -/
def mark (scopes : Scopes) : Nat :=
  scopes.journal.length

def revert (scopes : List Scope) : ScopeEdit → List Scope
  | .opened => scopes.tail
  | .closed scope => scope :: scopes
  | .declared name earlier =>
    match scopes with
    | [] => []
    | inner :: rest => inner.assign name earlier :: rest

/-- Reverts all changes made since a mark, the latest first. -/
def undoTo (scopes : Scopes) (mark : Nat) : Scopes :=
  let count := scopes.journal.length - mark
  ⟨(scopes.journal.take count).foldl revert scopes.layers, scopes.journal.drop count⟩

def depth (scopes : Scopes) : Nat :=
  scopes.layers.length

/-- What a name stands for in the innermost scope that declares it. -/
def lookup (scopes : Scopes) (name : String) : Option NameSort :=
  scopes.layers.findSome? (· name)

def isType (scopes : Scopes) (name : String) : Bool :=
  scopes.lookup name == some .type

def isOrdinary (scopes : Scopes) (name : String) : Bool :=
  scopes.lookup name == some .ordinary

end Scopes

end OpenCLTree
