import Calculator.CommandLine.Session

/-!
# The program

Reads the arguments, the file or the standard input, and writes what the session says. Lines of
the standard input are answered as they come.
-/

namespace Calculator.CommandLine

/-- Writes an output to the two streams. -/
def Output.emit (output : Output) : IO Unit := do
  IO.print output.out
  (← IO.getStdout).flush
  IO.eprint output.err

/-- Writes a response and returns its exit code. -/
def Response.emit (response : Response) : IO UInt32 := do
  response.output.emit
  return response.code

/-- The contents of a file, if it can be read and is a text. -/
def contentsOf (path : String) : IO (Option String) := do
  try
    return String.fromUTF8? (← IO.FS.readBinFile path)
  catch _ =>
    return none

/-- Answers the lines of the standard input until it ends. -/
partial def answerLines (settings : Settings) : IO Unit := do
  let line ← (← IO.getStdin).getLine
  unless line.isEmpty do
    (answerPromptLine settings line.toList).emit
    answerLines settings

end Calculator.CommandLine

open Calculator.CommandLine

/-- Answers the arguments of the command. -/
def main (arguments : List String) : IO UInt32 := do
  match Request.ofArguments arguments with
  | .ok (.run settings .prompt) =>
    answerLines settings
    return 0
  | .ok (.run _ (.file path)) =>
    let contents ← contentsOf path
    (respond (fun _ => contents) "" arguments).emit
  | _ => (respond (fun _ => none) "" arguments).emit
