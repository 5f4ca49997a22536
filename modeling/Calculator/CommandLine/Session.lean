import Calculator.Calculation
import Calculator.CommandLine.Request
import Calculator.Text.Lines
import Calculator.Text.White

/-!
# Sessions

A session deals with expressions one after the other. For each it writes the tokens, if they are
to be shown, and then the result, or else an error. Errors go to a stream of their own and never
keep later expressions from being dealt with.

The lines of a file and the lines of the standard input are treated alike: a line of nothing but
white space is passed over. The sessions differ in how they end: a file is a success only if all
its lines are, the prompt always is one.
-/

namespace Calculator.CommandLine

/-- What is written to the two streams. -/
structure Output where
  /-- Results. -/
  out : String
  /-- Errors. -/
  err : String
  deriving DecidableEq, Repr

namespace Output

/-- Nothing is written. -/
def none : Output :=
  ⟨"", ""⟩

/-- One output after another. -/
def append (first second : Output) : Output :=
  ⟨first.out ++ second.out, first.err ++ second.err⟩

instance : Append Output := ⟨append⟩

@[simp] theorem out_append (x y : Output) : (x ++ y).out = x.out ++ y.out := rfl
@[simp] theorem err_append (x y : Output) : (x ++ y).err = x.err ++ y.err := rfl

/-- A line of results. -/
def line (text : String) : Output :=
  ⟨text ++ "\n", ""⟩

/-- A line about an error. -/
def error (cause : Error) : Output :=
  ⟨"", cause.phase.name ++ " error: " ++ cause.message ++ "\n"⟩

end Output

/-- What is written for an expression or for several, and whether all of them succeeded. -/
structure Outcome where
  /-- What is written. -/
  output : Output
  /-- Whether all succeeded. -/
  succeeded : Bool
  deriving DecidableEq, Repr

namespace Outcome

/-- The outcome of no expression at all. -/
def empty : Outcome :=
  ⟨.none, true⟩

/-- The outcome of expressions after others. -/
def append (first second : Outcome) : Outcome :=
  ⟨first.output ++ second.output, first.succeeded && second.succeeded⟩

instance : Append Outcome := ⟨append⟩

@[simp] theorem output_append (x y : Outcome) : (x ++ y).output = x.output ++ y.output := rfl
@[simp] theorem succeeded_append (x y : Outcome) :
    (x ++ y).succeeded = (x.succeeded && y.succeeded) := rfl

/-- The outcome of an expression with a result or an error. -/
def ofResult : Except Error String → Outcome
  | .ok text => ⟨.line text, true⟩
  | .error cause => ⟨.error cause, false⟩

end Outcome

/-! ### One expression -/

/-- The result of an expression. -/
def result (settings : Settings) (source : String) : Except Error String :=
  if settings.check then (validate source).map fun _ => "ok"
  else (calculate source).map Number.text

/-- Deals with one expression. If its tokens are to be shown and it has none, that is the error. -/
def answerLine (settings : Settings) (source : String) : Outcome :=
  if settings.tokens then
    match tokenize source with
    | .error cause => ⟨.error (.lexical cause), false⟩
    | .ok tokens => ⟨.line (Token.textList tokens), true⟩ ++ .ofResult (result settings source)
  else .ofResult (result settings source)

/-! ### Several expressions -/

/-- Deals with the lines of a file. -/
def answerFile (settings : Settings) (contents : String) : Outcome :=
  let full := (Text.lines contents.toList).filter fun line => !Text.isEmptyLine line
  full.foldl (fun outcome line => outcome ++ answerLine settings (String.ofList line)) .empty

/-- Deals with one line of the standard input, which still has its end. -/
def answerPromptLine (settings : Settings) (line : List Char) : Output :=
  let line := Text.chomp line
  if Text.isEmptyLine line then .none else (answerLine settings (String.ofList line)).output

/-- Deals with the lines of the standard input as they come. -/
def answerPrompt (settings : Settings) (input : List Char) : Output :=
  match _found : Text.next? input with
  | none => .none
  | some (line, rest) => answerPromptLine settings line ++ answerPrompt settings rest
termination_by input.length
decreasing_by exact Text.length_lt_of_next? _found

/-! ### The command -/

/-- How the program ends. -/
structure Response where
  /-- The exit code. -/
  code : UInt32
  /-- What is written. -/
  output : Output
  deriving DecidableEq, Repr

/-- The exit code of a run over expressions. -/
def exitCode (succeeded : Bool) : UInt32 :=
  if succeeded then 0 else 1

/-- The name and the version of the program. -/
def versionText : String :=
  "descalc 0.1.0\n"

/-- How the program is called. -/
def usageText : String :=
  "Usage: descalc [OPTIONS] [EXPRESSION]\n"

/-- The summary of the options. -/
def helpText : String :=
  "descalc evaluates arithmetic expressions, keeping track of whether the result is an integer.\n\n"
    ++ usageText
    ++ "\nArguments:\n  [EXPRESSION]  The expression to evaluate\n"
    ++ "\nOptions:\n"
    ++ "  -t, --tokens       Print the recognized tokens before each result\n"
    ++ "  -c, --check        Only check the syntax; do not evaluate\n"
    ++ "  -f, --file <FILE>  Evaluate every non-blank line of this file\n"
    ++ "  -h, --help         Print help\n"
    ++ "  -V, --version      Print version\n"

/-- What is written if a file cannot be read. -/
def unreadable (path : String) : Output :=
  ⟨"", s!"Failed to read the input file '{path}'. Perhaps this file does not exist?\n"⟩

/-- What is written if the arguments are not understood. -/
def misused (cause : UsageError) : Output :=
  ⟨"", "error: " ++ cause.message ++ "\n\n" ++ usageText
    ++ "\nFor more information, try '--help'.\n"⟩

/-- The answer to a request, given the contents of the files that can be read and the standard
input. -/
def Request.respond (contents? : String → Option String) (input : String) : Request → Response
  | .help => ⟨0, ⟨helpText, ""⟩⟩
  | .version => ⟨0, ⟨versionText, ""⟩⟩
  | .run settings (.expression text) =>
    let outcome := answerLine settings text
    ⟨exitCode outcome.succeeded, outcome.output⟩
  | .run settings (.file path) =>
    match contents? path with
    | none => ⟨1, unreadable path⟩
    | some contents =>
      let outcome := answerFile settings contents
      ⟨exitCode outcome.succeeded, outcome.output⟩
  | .run settings .prompt => ⟨0, answerPrompt settings input.toList⟩

/-- The answer to the arguments of the command. -/
def respond (contents? : String → Option String) (input : String) (arguments : List String) :
    Response :=
  match Request.ofArguments arguments with
  | .error cause => ⟨2, misused cause⟩
  | .ok request => request.respond contents? input

end Calculator.CommandLine
