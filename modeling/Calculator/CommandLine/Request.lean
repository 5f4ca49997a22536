/-!
# Requests

The arguments of the command say where expressions come from and what is shown of them. They are
read from left to right: the first argument that asks for help or for the version settles the
matter, and so does the first mistake. Only that a file and an expression exclude each other is
seen at the end.

An argument that begins with a hyphen and is longer than it is an option, unless it stands behind
`--`. Short options can be joined, the last of them with its value.
-/

namespace Calculator.CommandLine

/-- What is shown of each expression. -/
structure Settings where
  /-- Whether the tokens are shown first. -/
  tokens : Bool
  /-- Whether the syntax is checked and nothing computed. -/
  check : Bool
  deriving DecidableEq, Repr

/-- Where expressions come from. -/
inductive Source where
  /-- A single expression among the arguments. -/
  | expression (text : String)
  /-- The lines of a file. -/
  | file (path : String)
  /-- The lines of the standard input. -/
  | prompt
  deriving DecidableEq, Repr

/-- What the arguments ask for. -/
inductive Request where
  /-- A summary of the options. -/
  | help
  /-- The name and the version of the program. -/
  | version
  /-- Expressions to be dealt with. -/
  | run (settings : Settings) (source : Source)
  deriving DecidableEq, Repr

/-- Why arguments are not understood. -/
inductive UsageError where
  /-- There is no such option, or there is no room for another expression. -/
  | unexpected (argument : String)
  /-- An option that can be given only once is repeated. -/
  | repeated (option : String)
  /-- An option that takes no value has one. -/
  | superfluousValue (option value : String)
  /-- An option that takes a value has none. -/
  | missingValue (option : String)
  /-- A file and an expression are both given. -/
  | conflict
  deriving DecidableEq, Repr

/-- The wording of a mistake. -/
def UsageError.message : UsageError → String
  | .unexpected argument => s!"unexpected argument '{argument}' found"
  | .repeated option => s!"the argument '{option}' cannot be used multiple times"
  | .superfluousValue option value =>
    s!"unexpected value '{value}' for '{option}' found; no more were expected"
  | .missingValue option => s!"a value is required for '{option}' but none was supplied"
  | .conflict => "the argument '--file <FILE>' cannot be used with '[EXPRESSION]'"

/-! ### Reading arguments -/

/-- What the arguments so far have given. -/
structure Given where
  /-- Whether the tokens are to be shown. -/
  tokens : Bool
  /-- Whether to check only. -/
  check : Bool
  /-- The path of the file. -/
  file : Option String
  /-- The expression. -/
  expression : Option String

namespace Given

/-- Nothing is given yet. -/
def nothing : Given :=
  ⟨false, false, none, none⟩

/-- Adds the wish to see the tokens. -/
def addTokens (given : Given) : Except UsageError Given :=
  if given.tokens then .error (.repeated "--tokens") else .ok { given with tokens := true }

/-- Adds the wish to check only. -/
def addCheck (given : Given) : Except UsageError Given :=
  if given.check then .error (.repeated "--check") else .ok { given with check := true }

/-- Adds the path of the file. -/
def addFile (given : Given) (path : String) : Except UsageError Given :=
  if given.file.isSome then .error (.repeated "--file <FILE>")
  else .ok { given with file := some path }

/-- Adds the expression. -/
def addExpression (given : Given) (text : String) : Except UsageError Given :=
  if given.expression.isSome then .error (.unexpected text)
  else .ok { given with expression := some text }

/-- What is asked for when all arguments are read. -/
def request (given : Given) : Except UsageError Request :=
  let run := Request.run ⟨given.tokens, given.check⟩
  match given.file, given.expression with
  | some _, some _ => .error .conflict
  | some path, none => .ok (run (.file path))
  | none, some text => .ok (run (.expression text))
  | none, none => .ok (run .prompt)

end Given

/-- What becomes of reading one argument. -/
inductive Step where
  /-- Reading goes on. -/
  | more (given : Given)
  /-- The next argument is the path of the file. -/
  | path (given : Given)
  /-- The request is settled. -/
  | settled (request : Request)

/-- Whether an argument is an option. A hyphen alone is none. -/
def isOption (argument : String) : Bool :=
  match argument.toList with
  | '-' :: _ :: _ => true
  | _ => false

/-- Reads the short options of one argument. The path of a file may follow its option, also behind
an equals sign. -/
def readShort (given : Given) : List Char → Except UsageError Step
  | [] => return .more given
  | 't' :: others => do readShort (← given.addTokens) others
  | 'c' :: others => do readShort (← given.addCheck) others
  | 'h' :: _ => return .settled .help
  | 'V' :: _ => return .settled .version
  | ['f'] => return .path given
  | 'f' :: '=' :: path => return .more (← given.addFile (String.ofList path))
  | 'f' :: path => return .more (← given.addFile (String.ofList path))
  | other :: _ => .error (.unexpected (String.ofList ['-', other]))

/-- Reads a long option, whose name may be followed by an equals sign and a value. -/
def readLong (given : Given) (option : List Char) : Except UsageError Step := do
  let name := String.ofList (option.takeWhile (· != '='))
  let value? :=
    match option.dropWhile (· != '=') with
    | [] => none
    | _ :: value => some (String.ofList value)
  match name, value? with
  | "file", none => return .path given
  | "file", some path => return .more (← given.addFile path)
  | "tokens", none => return .more (← given.addTokens)
  | "check", none => return .more (← given.addCheck)
  | "help", none => return .settled .help
  | "version", none => return .settled .version
  | name, some value =>
    if ["tokens", "check", "help", "version"].contains name then
      throw (.superfluousValue ("--" ++ name) value)
    else throw (.unexpected ("--" ++ name))
  | name, none => throw (.unexpected ("--" ++ name))

/-- Reads one argument in front of `--`. -/
def readArgument (given : Given) (argument : String) : Except UsageError Step :=
  match argument.toList with
  | '-' :: '-' :: option => readLong given option
  | '-' :: first :: others => readShort given (first :: others)
  | _ => return .more (← given.addExpression argument)

/-- Reads the arguments behind `--`, all of which are expressions. -/
def readExpressions (given : Given) : List String → Except UsageError Request
  | [] => given.request
  | argument :: others => do readExpressions (← given.addExpression argument) others

/-- Reads arguments from left to right. -/
def read (given : Given) : List String → Except UsageError Request
  | [] => given.request
  | argument :: others =>
    if argument = "--" then readExpressions given others
    else do
      match ← readArgument given argument with
      | .settled request => return request
      | .more given => read given others
      | .path given =>
        match others with
        | [] => throw (.missingValue "--file <FILE>")
        | path :: others =>
          if isOption path then throw (.missingValue "--file <FILE>")
          else read (← given.addFile path) others

/-- What the arguments ask for. -/
def Request.ofArguments (arguments : List String) : Except UsageError Request :=
  read .nothing arguments

end Calculator.CommandLine
