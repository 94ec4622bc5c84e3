import OpenCLTree.CommandLine.Command
import OpenCLTree.Output.Quoted
import OpenCLTree.Output.Sexp
import OpenCLTree.Output.TreeJson
import OpenCLTree.Parse

namespace OpenCLTree

/-- The exit code of a command, what it prints, and what it says on the side. -/
structure Response where
  exitCode : Nat
  output : String
  remarks : List String

namespace Response

def usageLine : String :=
  "usage: oclparse [-v] (parse [--format sexp|json] | tokens | check) FILE | kinds"

def versionLine : String :=
  "oclparse 0.1.0"

/-- The response to a command line without a command to run. -/
def ofEnding : Ending → Response
  | .help => ⟨0, usageLine ++ "\n", []⟩
  | .version => ⟨0, versionLine ++ "\n", []⟩
  | .misuse => ⟨2, "", [usageLine]⟩

end Response

namespace Command

def exitCodeFor (complaints : List String) : Nat :=
  if complaints.isEmpty then 0 else 1

def parseResponse (source : String) (format : TreeFormat) (verbose : Bool) : Response :=
  let parsed := OpenCLTree.parse source
  let step := if verbose then
      "step: Parsing " ++ toString (byteLength source.toList) ++ " bytes\n"
    else ""
  let tree := match format with
    | .sexp => parsed.tree.sexp
    | .json => parsed.tree.toJson.pretty
  let remarks := parsed.diagnostics.map (·.line)
  ⟨exitCodeFor remarks, step ++ tree ++ "\n", remarks⟩

def tokensResponse (source : String) : Response :=
  let read := tokenize source
  let remarks := read.2.map fun error => "Lexical error: " ++ error.message
  ⟨exitCodeFor remarks, "=== Tokens ===\n" ++ listTokens read.1 ++ "\n", remarks⟩

def checkResponse (file source : String) : Response :=
  let parsed := OpenCLTree.parse source
  let remarks := parsed.diagnostics.map (·.line)
  let verdict := if remarks.isEmpty then
      "ok: " ++ quoted file ++ " (" ++ toString parsed.tree.items.length ++ " top-level items)"
    else "failed: " ++ quoted file ++ " has " ++ toString remarks.length ++ " error(s)"
  ⟨exitCodeFor remarks, verdict ++ "\n", remarks⟩

/-- Carries out a command, given the text of its file if that could be read. -/
def run (command : Command) (content : Option String) : Response :=
  match command, content with
  | .kinds, _ => ⟨0, NodeKind.catalog.pretty ++ "\n", []⟩
  | .parse _ format verbose, some source => parseResponse source format verbose
  | .tokens _, some source => tokensResponse source
  | .check file, some source => checkResponse file source
  | _, none => ⟨1, "", ["error: the source file cannot be read"]⟩

end Command

end OpenCLTree
