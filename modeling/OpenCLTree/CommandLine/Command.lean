namespace OpenCLTree

inductive TreeFormat
  | sexp | json
  deriving DecidableEq

def TreeFormat.ofText? : String → Option TreeFormat
  | "sexp" => some .sexp
  | "json" => some .json
  | _ => none

/-- What the command line asks for. -/
inductive Command
  | parse (file : String) (format : TreeFormat) (verbose : Bool)
  | tokens (file : String)
  | check (file : String)
  | kinds
  deriving DecidableEq

/-- The ways in which reading a command line can end without a command to run. -/
inductive Ending
  | help | version | misuse
  deriving DecidableEq

inductive CommandName
  | parse | tokens | check | kinds
  deriving DecidableEq

namespace CommandName

def ofText? : String → Option CommandName
  | "parse" => some .parse
  | "tokens" => some .tokens
  | "check" => some .check
  | "kinds" => some .kinds
  | _ => none

def takesFile (name : CommandName) : Bool :=
  name != .kinds

end CommandName

/-- A word of a command line by its shape. A single dash is plain, as it names a file. -/
inductive Argument
  | separator
  | long (name : String) (value : Option String)
  | short (letters : List Char)
  | plain (text : String)
  deriving DecidableEq

def Argument.ofText (text : String) : Argument :=
  match text.toList with
  | ['-', '-'] => .separator
  | '-' :: '-' :: rest =>
    .long (String.ofList (rest.takeWhile (· != '=')))
      ((rest.dropWhile (· != '=')).tail?.map String.ofList)
  | '-' :: letter :: others => .short (letter :: others)
  | _ => .plain text

/-- What has been read of a command line. -/
structure Draft where
  name : Option CommandName
  file : Option String
  format : Option TreeFormat
  verboseBefore : Bool
  verboseAfter : Bool

namespace Draft

def empty : Draft := ⟨none, none, none, false, false⟩

/-- Takes a word that is no option: the command first, then its file, which has a name. -/
def place (draft : Draft) (word : String) : Except Ending Draft :=
  match draft.name with
  | none =>
    match CommandName.ofText? word with
    | some name => .ok { draft with name := some name }
    | none => .error .misuse
  | some name =>
    if name.takesFile && draft.file.isNone && word != "" then
      .ok { draft with file := some word }
    else .error .misuse

/-- Takes a word after the separator, where no command can stand any more. -/
def placeFile (draft : Draft) (word : String) : Except Ending Draft :=
  if draft.name.isNone then .error .misuse else draft.place word

/-- Turns on the verbose output; it may be asked for once before the command and once after. -/
def raise (draft : Draft) : Except Ending Draft :=
  if draft.name.isNone then
    if draft.verboseBefore then .error .misuse else .ok { draft with verboseBefore := true }
  else
    if draft.verboseAfter then .error .misuse else .ok { draft with verboseAfter := true }

/-- Only the command as a whole has a version. -/
def askVersion (draft : Draft) : Except Ending Draft :=
  if draft.name.isNone then .error .version else .error .misuse

def takeLetter (draft : Draft) (letter : Char) : Except Ending Draft :=
  if letter = 'v' then draft.raise
  else if letter = 'h' then .error .help
  else if letter = 'V' then draft.askVersion
  else .error .misuse

/-- Takes a long option that has no value. -/
def takeName (draft : Draft) (name : String) : Except Ending Draft :=
  if name = "verbose" then draft.raise
  else if name = "help" then .error .help
  else if name = "version" then draft.askVersion
  else .error .misuse

def setFormat (draft : Draft) (value : String) : Except Ending Draft :=
  match draft.name, draft.format, TreeFormat.ofText? value with
  | some .parse, none, some format => .ok { draft with format := some format }
  | _, _, _ => .error .misuse

/-- How the line ends after the word `help`, which may be followed by one command. -/
def helpOn : List String → Ending
  | [] => .help
  | [word] =>
    if word = "help" ∨ (CommandName.ofText? word).isSome then .help else .misuse
  | _ => .misuse

/-- Reads words from left to right. The first that ends the reading decides how it ends. -/
def readFrom (draft : Draft) : List String → Except Ending Draft
  | [] => .ok draft
  | word :: rest =>
    match Argument.ofText word with
    | .separator => rest.foldlM placeFile draft
    | .long "format" none =>
      match rest with
      | [] => .error .misuse
      | value :: others => (draft.setFormat value).bind (readFrom · others)
    | .long "format" (some value) => (draft.setFormat value).bind (readFrom · rest)
    | .long name none => (draft.takeName name).bind (readFrom · rest)
    | .long _ (some _) => .error .misuse
    | .short letters => (letters.foldlM takeLetter draft).bind (readFrom · rest)
    | .plain text =>
      if draft.name.isNone && text == "help" then .error (helpOn rest)
      else (draft.place text).bind (readFrom · rest)

/-- The command of a line that has been read to its end. -/
def command (draft : Draft) : Except Ending Command :=
  match draft.name, draft.file with
  | some .parse, some file =>
    .ok (.parse file (draft.format.getD .sexp) (draft.verboseBefore || draft.verboseAfter))
  | some .tokens, some file => .ok (.tokens file)
  | some .check, some file => .ok (.check file)
  | some .kinds, _ => .ok .kinds
  | _, _ => .error .misuse

end Draft

namespace Command

def ofArguments (arguments : List String) : Except Ending Command :=
  (Draft.empty.readFrom arguments).bind Draft.command

def file? : Command → Option String
  | .parse file _ _ | .tokens file | .check file => some file
  | .kinds => none

end Command

end OpenCLTree
