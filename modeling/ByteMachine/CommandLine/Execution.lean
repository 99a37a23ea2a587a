import ByteMachine.CommandLine.Arguments
import ByteMachine.Computer
import ByteMachine.Files.Loading

/-!
# Execution of a request

What the command line does with a request: the exit status, what it prints, and what it puts on the
console.
-/

namespace ByteMachine.CommandLine

/-- What the command line depends on. -/
structure Environment where
  reader : FileReader
  stdout : Sink := {}
  /-- What standard error takes of a trace. Of messages it may take anything; what it does not take
  of them is lost. -/
  stderr : Sink := {}
  /-- How arguments are read. -/
  parse : List String → Except UsageError Request := Request.ofArguments
  helpText : String

structure Report where
  status : Nat
  stdout : Sink
  stderr : Sink
  console : List Log.Entry

def usageStatus : Nat := 1

def loadFailureStatus : Nat := 2

def faultStatus : Nat := 3

/-- Messages are shown from this level on, unless the user chooses another. -/
def defaultLevel : Log.Level := .warn

def versionText : String := "ls8 0.1.0\n"

/-- A failure with all its causes, outermost first. -/
def failure (causes : List String) : Log.Entry :=
  .message .error .commandLine (String.intercalate ": " causes)

def faultContext (program : String) (computer : Computer) : String :=
  program ++ " faulted (" ++ computer.showProcessor ++ ")"

/-- Run the program at a path. -/
def execute (environment : Environment) (program : String) (traced : Bool) : Report :=
  match environment.reader.loadRam program with
  | (.error e, log) =>
    { status := loadFailureStatus
      stdout := environment.stdout
      stderr := environment.stderr
      console := log ++ [failure e.chain] }
  | (.ok ram, log) =>
    let computer : Computer :=
      { Computer.ofRam ram with
        output := environment.stdout
        diagnostics := environment.stderr
        log := log.toArray }
    let call : Computer.Call := if traced then .runTraced else .run
    match call.action .contents computer with
    | .error fault computer =>
      { status := faultStatus
        stdout := computer.output
        stderr := computer.diagnostics
        console := computer.log.toList ++
          [failure (faultContext program computer :: fault.chain)] }
    | .ok _ computer =>
      { status := 0
        stdout := computer.output
        stderr := computer.diagnostics
        console := computer.log.toList ++
          [.message .info .commandLine computer.showProcessor] }

/-- Print a text; whether it could be printed does not matter. -/
def display (environment : Environment) (text : String) : Report :=
  { status := 0
    stdout := (environment.stdout.write (Text.utf8Encode text)).2
    stderr := environment.stderr
    console := [] }

def run (environment : Environment) (arguments : List String) : Except UsageError Report := do
  match ← environment.parse arguments with
  | .help => return display environment environment.helpText
  | .version => return display environment versionText
  | .execute program traced => return execute environment program traced

end ByteMachine.CommandLine
