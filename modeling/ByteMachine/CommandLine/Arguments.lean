/-!
# Arguments

What a user asks for on the command line, and one way to read it off the arguments: from left to
right, and the first that settles the matter does, a call for help or for the version, or a mistake.
-/

namespace ByteMachine.CommandLine

inductive Request where
  | help
  | version
  | execute (program : String) (traced : Bool)
  deriving DecidableEq, Repr

inductive UsageError where
  | unexpectedArgument (argument : String)
  | repeatedOption (option : String)
  | emptyProgram
  | missingProgram
  deriving DecidableEq, Repr

def UsageError.message : UsageError → String
  | unexpectedArgument argument => "unexpected argument '" ++ argument ++ "'"
  | repeatedOption option => "the argument '" ++ option ++ "' cannot be used multiple times"
  | emptyProgram => "the program must not be empty"
  | missingProgram => "a program is required"

/-- What one argument is, as long as options may follow. -/
inductive Argument where
  | help
  | version
  | trace
  /-- After this one every argument is a program. -/
  | endOfOptions
  | program (path : String)
  | unknownOption
  deriving DecidableEq, Repr

/-- Of an option with one dash the first letter decides; a single dash is a program. -/
def Argument.ofString (argument : String) : Argument :=
  match argument.toList with
  | ['-'] => program argument
  | ['-', '-'] => endOfOptions
  | '-' :: '-' :: _ =>
    if argument = "--help" then help
    else if argument = "--version" then version
    else if argument = "--trace" then trace
    else unknownOption
  | '-' :: 'h' :: _ => help
  | '-' :: 'V' :: _ => version
  | '-' :: _ => unknownOption
  | _ => program argument

/-- Take up a program, which must be the only one. -/
def takeProgram (program : Option String) (path : String) : Except UsageError String :=
  if path = "" then .error .emptyProgram
  else if program.isSome then .error (.unexpectedArgument path)
  else .ok path

/-- What is asked for once no argument is left. -/
def conclude (program : Option String) (traced : Bool) : Except UsageError Request :=
  match program with
  | some path => .ok (.execute path traced)
  | none => .error .missingProgram

/-- Read arguments that are all programs. -/
def readPrograms (program : Option String) (traced : Bool) :
    List String → Except UsageError Request
  | [] => conclude program traced
  | path :: rest => do
    let path ← takeProgram program path
    readPrograms (some path) traced rest

def readArguments (program : Option String) (traced : Bool) :
    List String → Except UsageError Request
  | [] => conclude program traced
  | argument :: rest =>
    match Argument.ofString argument with
    | .help => .ok .help
    | .version => .ok .version
    | .trace =>
      if traced then .error (.repeatedOption argument) else readArguments program true rest
    | .endOfOptions => readPrograms program traced rest
    | .unknownOption => .error (.unexpectedArgument argument)
    | .program path => do
      let path ← takeProgram program path
      readArguments (some path) traced rest

def Request.ofArguments (arguments : List String) : Except UsageError Request :=
  readArguments none false arguments

end ByteMachine.CommandLine
