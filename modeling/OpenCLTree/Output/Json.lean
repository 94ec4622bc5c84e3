namespace OpenCLTree

/-- Values of the JSON texts that are written. Members keep their order. -/
inductive Json
  | string (text : String)
  | number (value : Nat)
  | array (elements : List Json)
  | object (members : List (String × Json))

namespace Json

/-- The last four hexadecimal digits of a number. -/
def hex4 (value : Nat) : List Char :=
  let digits := Nat.toDigits 16 value
  List.replicate (4 - digits.length) '0' ++ digits

/-- How a character is written in a string. -/
def escapedChar (c : Char) : List Char :=
  if c = '"' then ['\\', '"']
  else if c = '\\' then ['\\', '\\']
  else if c = '\x08' then ['\\', 'b']
  else if c = '\x0c' then ['\\', 'f']
  else if c = '\n' then ['\\', 'n']
  else if c = '\r' then ['\\', 'r']
  else if c = '\t' then ['\\', 't']
  else if c.toNat < 0x20 then ['\\', 'u'] ++ hex4 c.toNat
  else [c]

def escaped (text : String) : String :=
  String.ofList ('"' :: text.toList.flatMap escapedChar ++ ['"'])

mutual

/-- Writes a value without any blanks after `text`. -/
def compactAfter (text : String) : Json → String
  | .string content => text ++ escaped content
  | .number value => text ++ toString value
  | .array elements => compactElements (text ++ "[") true elements ++ "]"
  | .object members => compactMembers (text ++ "\x7b") true members ++ "\x7d"

def compactElements (text : String) (first : Bool) : List Json → String
  | [] => text
  | element :: rest =>
    compactElements (element.compactAfter (if first then text else text ++ ",")) false rest

def compactMembers (text : String) (first : Bool) : List (String × Json) → String
  | [] => text
  | (name, value) :: rest =>
    let text := (if first then text else text ++ ",") ++ escaped name ++ ":"
    compactMembers (value.compactAfter text) false rest

end

/-- The text without any blanks. -/
def compact (value : Json) : String :=
  value.compactAfter ""

def newLine (depth : Nat) : String :=
  String.ofList ('\n' :: List.replicate (2 * depth) ' ')

mutual

/-- Writes a value after `text`, with a line for each element and member. -/
def prettyAfter (text : String) (depth : Nat) : Json → String
  | .string content => text ++ escaped content
  | .number value => text ++ toString value
  | .array [] => text ++ "[]"
  | .array elements =>
    prettyElements (text ++ "[") (depth + 1) true elements ++ newLine depth ++ "]"
  | .object [] => text ++ "\x7b\x7d"
  | .object members =>
    prettyMembers (text ++ "\x7b") (depth + 1) true members ++ newLine depth ++ "\x7d"

def prettyElements (text : String) (depth : Nat) (first : Bool) : List Json → String
  | [] => text
  | element :: rest =>
    let text := (if first then text else text ++ ",") ++ newLine depth
    prettyElements (element.prettyAfter text depth) depth false rest

def prettyMembers (text : String) (depth : Nat) (first : Bool) : List (String × Json) → String
  | [] => text
  | (name, value) :: rest =>
    let text := (if first then text else text ++ ",") ++ newLine depth ++ escaped name ++ ": "
    prettyMembers (value.prettyAfter text depth) depth false rest

end

/-- The text with a line for each element and member, indented by two blanks for each level. -/
def pretty (value : Json) : String :=
  value.prettyAfter "" 0

end Json

end OpenCLTree
