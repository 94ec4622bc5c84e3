namespace OpenCLTree

/-- Regular patterns over characters. -/
inductive Pattern
  | never
  | empty
  | one (accepts : Char → Bool)
  | seq (first second : Pattern)
  | either (left right : Pattern)
  | many (body : Pattern)

namespace Pattern

def char (c : Char) : Pattern :=
  one (· == c)

def text : List Char → Pattern
  | [] => empty
  | [c] => char c
  | c :: rest => seq (char c) (text rest)

def oneOf (choices : List Char) : Pattern :=
  one choices.contains

def anyOf : List Pattern → Pattern
  | [] => never
  | [pattern] => pattern
  | pattern :: rest => either pattern (anyOf rest)

def optional (body : Pattern) : Pattern :=
  either empty body

def atLeastOnce (body : Pattern) : Pattern :=
  seq body (many body)

/-- Whether the empty text matches. -/
def nullable : Pattern → Bool
  | never => false
  | empty => true
  | one _ => false
  | seq first second => first.nullable && second.nullable
  | either left right => left.nullable || right.nullable
  | many _ => true

def isNever : Pattern → Bool
  | never => true
  | _ => false

/-- Matches what `seq` matches, and stays `never` when the first part is. -/
def andThen : Pattern → Pattern → Pattern
  | never, _ => never
  | empty, second => second
  | first, second => seq first second

/-- Matches what `either` matches, without alternatives that are `never`. -/
def orElse : Pattern → Pattern → Pattern
  | never, right => right
  | left, never => left
  | left, right => either left right

/-- The pattern of what may follow `c`: it matches `rest` when the whole matches `c :: rest`. -/
def derivative (c : Char) : Pattern → Pattern
  | never => never
  | empty => never
  | one accepts => if accepts c then empty else never
  | seq first second =>
    if first.nullable then
      orElse (andThen (first.derivative c) second) (second.derivative c)
    else andThen (first.derivative c) second
  | either left right => orElse (left.derivative c) (right.derivative c)
  | many body => andThen (body.derivative c) (many body)

end Pattern

end OpenCLTree
