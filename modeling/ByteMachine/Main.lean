import ByteMachine.CommandLine.Execution
import ByteMachine.Conformance.Suite

/-!
# The command line program

Reads the files and the environment, hands them to the command line and writes what it reports.
-/

namespace ByteMachine.Main

/-- The number of a system error, which may come with its sign changed. -/
def errorNumber (code : UInt32) : Nat := (min code (0 - code)).toNat

def readError : IO.Error → ReadError
  | .noFileOrDirectory .. => .notFound
  | .inappropriateType _ code details | .permissionDenied _ code details
  | .invalidArgument _ code details | .resourceExhausted _ code details
  | .otherError code details => .ofCode (errorNumber code) details
  | e => .refused (toString e) 0

def readFile (path : String) : IO (Except ReadError (List UInt8)) := do
  try
    return .ok (← IO.FS.readBinFile path).toList
  catch e =>
    return .error (readError e)

/-- A reader that knows the one file a request is about. -/
def readerFor : Except CommandLine.UsageError CommandLine.Request → IO FileReader
  | .ok (.execute program _) => do
    let content ← readFile program
    return fun _ => content
  | _ => return fun _ => .error .notFound

/-- The level that the environment asks for, or else `own`. -/
def threshold (own : Log.Level) : IO (Option Log.Level) := do
  match ← IO.getEnv "RUST_LOG" with
  | some name => return Log.Level.ofName? name
  | none => return some own

def helpText : String :=
  "Run a program on an emulated LS-8.\n\n" ++
  "Usage: ls8 [OPTIONS] <PROGRAM>\n\n" ++
  "Arguments:\n" ++
  "  <PROGRAM>  Program image: one byte per line, in binary, `#` starts a comment\n\n" ++
  "Options:\n" ++
  "      --trace    Print PC, the next three bytes and every register to stderr before each\n" ++
  "                 instruction\n" ++
  "  -h, --help     Print help\n" ++
  "  -V, --version  Print version\n"

/-- Whether standard output takes the bytes. -/
def put (content : Array UInt8) : IO Bool := do
  try
    let stdout ← IO.getStdout
    stdout.write ⟨content⟩
    stdout.flush
    return true
  catch _ =>
    return false

/-- Whether standard error takes the entries. -/
def tell (own : Log.Level) (entries : List Log.Entry) : IO Bool := do
  let lines := Log.console (← threshold own) entries
  try
    for line in lines do
      IO.eprintln line
    return true
  catch _ =>
    return false

/-- The entries up to the first line of a trace, which are the same whatever the channels take. -/
def opening (entries : List Log.Entry) : List Log.Entry :=
  match entries.dropWhile Log.Entry.isMessage with
  | [] => []
  | line :: _ => entries.takeWhile Log.Entry.isMessage ++ [line]

/-- Report on a request. If a channel is full, the request is served again without it. -/
def serve (arguments : List String) : IO UInt32 := do
  let reader ← readerFor (CommandLine.Request.ofArguments arguments)
  let environment : CommandLine.Environment := { reader, helpText }
  match CommandLine.run environment arguments with
  | .error e =>
    IO.eprintln ("error: " ++ e.message)
    return CommandLine.usageStatus.toUInt32
  | .ok report =>
    let again (environment : CommandLine.Environment) : CommandLine.Report :=
      (CommandLine.run environment arguments).toOption.getD report
    let told := opening report.console
    let heard ← tell CommandLine.defaultLevel told
    let environment :=
      if heard then environment else { environment with stderr := .deviceFull }
    let report := again environment
    let written ← put report.stdout.accepted
    let report := if written then report else again { environment with stdout := .deviceFull }
    let _ ← tell CommandLine.defaultLevel (report.console.drop told.length)
    return report.status.toUInt32

/-- Run the conformance programs. -/
def checkConformance : IO UInt32 := do
  let report := Conformance.check Conformance.programs
  let _ ← tell Conformance.defaultLevel report.console
  IO.print report.stdout
  return report.status.toUInt32

end ByteMachine.Main

def main (arguments : List String) : IO UInt32 := ByteMachine.Main.serve arguments
