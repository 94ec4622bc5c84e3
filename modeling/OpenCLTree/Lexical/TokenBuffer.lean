import OpenCLTree.Lexical.Lexer

namespace OpenCLTree

namespace Lexer

/-- What stands where the lexer is. After a dot the component names are looked for in the
source, from the end of the dot on. -/
def cutFinding? (lexer : Lexer) : Option (Finding × Nat) :=
  let found := findingAt lexer.rest
  match lexer.mode, found.1 with
  | .suffix, .token (.punct .dot) =>
    (dropBytes? (lexer.offset + byteLength (lexer.rest.take found.2)) lexer.source).map
      fun after =>
        match accessorName? after with
        | some name => (.token .swizzle, found.2 + name.length)
        | none => found
  | _, _ => some found

/-- Reads the next token and cuts every piece of text that takes part out of the source, by
the offsets of its ends. There is no answer where a cut leaves the source or splits a
character. -/
def cutNext? (lexer : Lexer) : Option (Option Token × Lexer) :=
  match _ : lexer.rest with
  | [] => some (none, lexer)
  | c :: rest => do
    let found ← lexer.cutFinding?
    let start := lexer.offset
    let stop := start + byteLength (c :: rest.take (found.2 - 1))
    let lexeme ← slice? lexer.source ⟨start, stop⟩
    let after := { lexer with
      offset := stop
      rest := rest.drop (found.2 - 1)
      errors := lexer.record found.1 lexeme }
    match found.1.tokenKind? with
    | none => cutNext? after
    | some kind =>
      let gap ← slice? lexer.source ⟨min lexer.lastEnd start, start⟩
      return (some ⟨kind, String.ofList lexeme, ⟨start, stop⟩, breaksLine gap⟩,
        { after with lastEnd := stop, since := some after.rest })
termination_by lexer.rest.length
decreasing_by
  simp only [*, List.length_drop, List.length_cons]
  omega

end Lexer

/-- A token and the mode it was read in. -/
structure BufferedToken where
  token : Token
  mode : LexMode

/-- The tokens of a source as far as they have been asked for, the lexer that reads more of
them, and a position among them. -/
structure TokenBuffer where
  lexer : Lexer
  tokens : List BufferedToken
  position : Nat
  mode : LexMode
  exhausted : Bool

namespace TokenBuffer

def ofText (source : List Char) : TokenBuffer :=
  ⟨.ofText source, [], 0, .normal, false⟩

def setMode (buffer : TokenBuffer) (mode : LexMode) : TokenBuffer :=
  { buffer with mode }

/-- Where the token before another one ends. -/
def endBefore (buffer : TokenBuffer) : Nat → Nat
  | 0 => 0
  | index + 1 => (buffer.tokens[index]?).elim 0 (·.token.span.stop)

/-- Forgets a token and all after it, if the mode reads it otherwise than it has been read.
The lexer goes back to where the token starts. -/
def revalidate? (buffer : TokenBuffer) (index : Nat) : Option TokenBuffer :=
  match buffer.tokens[index]? with
  | none => some buffer
  | some buffered =>
    if buffered.mode = buffer.mode ∨ buffered.token.kind.dependsOnMode = false then some buffer
    else
      (buffer.lexer.reset? buffered.token.span.start (buffer.endBefore index)).map fun lexer =>
        { buffer with lexer, tokens := buffer.tokens.take index, exhausted := false }

/-- Reads some more tokens, as many as the source has. -/
def readMore? : Nat → TokenBuffer → Option TokenBuffer
  | 0, buffer => some buffer
  | count + 1, buffer =>
    if buffer.exhausted then some buffer
    else do
      match ← { buffer.lexer with mode := buffer.mode }.cutNext? with
      | (some token, lexer) =>
        readMore? count { buffer with lexer, tokens := buffer.tokens ++ [⟨token, buffer.mode⟩] }
      | (none, lexer) => return { buffer with lexer, exhausted := true }

/-- The token with a number, which is read if it has not been yet. -/
def fill? (buffer : TokenBuffer) (index : Nat) : Option (Option Token × TokenBuffer) := do
  let buffer ← buffer.readMore? (index + 1 - buffer.tokens.length)
  return ((buffer.tokens[index]?).map (·.token), buffer)

/-- The token after `ahead` others, as the mode reads them all. -/
def peek? (buffer : TokenBuffer) (ahead : Nat) : Option (Option Token × TokenBuffer) := do
  let buffer ← (List.range' buffer.position (ahead + 1)).foldlM revalidate? buffer
  buffer.fill? (buffer.position + ahead)

/-- Passes the current token, in the mode it was read in. -/
def advance? (buffer : TokenBuffer) : Option (Option Token × TokenBuffer) := do
  match ← buffer.fill? buffer.position with
  | (some token, after) => return (some token, { after with position := after.position + 1 })
  | (none, after) => return (none, after)

/-- The tokens passed since a position. -/
def takenSince? (buffer : TokenBuffer) (start : Nat) : Option (List Token) :=
  if buffer.position ≤ buffer.tokens.length then
    some (((buffer.tokens.take buffer.position).drop (min start buffer.position)).map (·.token))
  else none

end TokenBuffer

/-- A place in a token buffer to which one can go back. -/
structure Checkpoint where
  position : Nat
  mode : LexMode

/-- What can be done with a token buffer. A rewind names its checkpoint by the number of those
that were set after it. -/
inductive BufferStep
  | setMode (mode : LexMode)
  | peek (ahead : Nat)
  | advance
  | takenSince (start : Nat)
  | checkpoint
  | rewind (newer : Nat)

/-- A token buffer in use, with the checkpoints that have not been passed by a rewind, the
latest first. -/
structure BufferSession where
  buffer : TokenBuffer
  checkpoints : List Checkpoint

namespace BufferSession

def ofText (source : List Char) : BufferSession :=
  ⟨.ofText source, []⟩

def step? (session : BufferSession) : BufferStep → Option BufferSession
  | .setMode mode => some { session with buffer := session.buffer.setMode mode }
  | .peek ahead => (session.buffer.peek? ahead).map fun (_, buffer) => { session with buffer }
  | .advance => session.buffer.advance?.map fun (_, buffer) => { session with buffer }
  | .takenSince start => (session.buffer.takenSince? start).map fun _ => session
  | .checkpoint =>
    some { session with
      checkpoints := ⟨session.buffer.position, session.buffer.mode⟩ :: session.checkpoints }
  | .rewind newer =>
    match session.checkpoints.drop newer with
    | [] => some session
    | target :: older =>
      some ⟨{ session.buffer with position := target.position, mode := target.mode },
        target :: older⟩

def run? (session : BufferSession) (steps : List BufferStep) : Option BufferSession :=
  steps.foldlM step? session

end BufferSession

end OpenCLTree
