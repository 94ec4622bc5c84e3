import OpenCLTree.CommandLine.Response

namespace OpenCLTree

/-- The text of a file, if it can be read and is UTF-8. -/
def readText (file : String) : IO (Option String) := do
  try
    let bytes ← IO.FS.readBinFile file
    return String.fromUTF8? bytes
  catch _ => return none

end OpenCLTree

open OpenCLTree in
def main (arguments : List String) : IO UInt32 := do
  let response ← match Command.ofArguments arguments with
    | .error ending => pure (Response.ofEnding ending)
    | .ok command =>
      let content ← match command.file? with
        | some file => readText file
        | none => pure none
      pure (command.run content)
  IO.print response.output
  response.remarks.forM IO.eprintln
  return response.exitCode.toUInt32
