import ByteMachine.Conformance.Programs
import ByteMachine.Image
import ByteMachine.Machine.Run
import ByteMachine.Memory.Announced
import ByteMachine.Memory.Recorded

/-!
# The conformance suite

Each program runs on a machine of its own, whose bus accesses are counted and told to the log, and
its output is compared with what it must be.
-/

namespace ByteMachine.Conformance

inductive Failure where
  | badImage (cause : ImageError)
  | badMemory (cause : Fault)
  | faulted (fault : Fault) (processor : Processor)
  | notText
  deriving DecidableEq

def Failure.message : Failure → String
  | badImage cause => "bad image: " ++ cause.message
  | badMemory cause => cause.message
  | faulted fault processor => fault.message ++ " (" ++ processor.describe ++ ")"
  | notText => "output is not text"

abbrev Bus := Announced (Recorded Ram)

def machine (ram : Ram) : Machine Bus Sink :=
  { memory := { memory := { memory := ram }, origin := .conformance }
    output := {}
    diagnostics := {} }

def counts (name : String) (m : Machine Bus Sink) : Log.Entry :=
  .message .debug .conformance
    (name ++ ": " ++ Text.decimal m.processor.executed ++ " instructions, " ++
      Text.decimal m.memory.memory.reads ++ " reads, " ++
      Text.decimal m.memory.memory.writes ++ " writes")

/-- The output of a program, and what its run told the log. -/
def execute (name image : String) : Except Failure String × List Log.Entry :=
  match Image.parse image with
  | .error cause => (.error (.badImage cause), [])
  | .ok bytes =>
    match Bank.ofImage bytes with
    | .error cause => (.error (.badMemory cause), [])
    | .ok ram =>
      match Machine.run .contents (machine ram) with
      | .error fault m => (.error (.faulted fault m.processor), m.log.toList)
      | .ok _ m =>
        (match m.output.text? with
          | some text => .ok text
          | none => .error .notText,
        m.log.toList ++ [counts name m])

structure Verdict where
  passed : Bool
  log : List Log.Entry

def Program.verdict (program : Program) : Verdict :=
  let (result, log) := execute program.name program.image
  let misbehaved (what : String) : Verdict :=
    { passed := false
      log := log ++ [.message .error .conformance (program.name ++ ": " ++ what)] }
  match result with
  | .ok output =>
    if output = program.expected then
      { passed := true
        log := log ++ [.message .info .conformance (program.name ++ ": ok")] }
    else
      misbehaved ("expected " ++ Text.quoted program.expected ++ ", got " ++ Text.quoted output)
  | .error failure => misbehaved failure.message

structure Report where
  status : Nat
  stdout : String
  console : List Log.Entry

/-- Messages are shown from this level on, unless the user chooses another. -/
def defaultLevel : Log.Level := .info

def check (suite : List Program) : Report :=
  let verdicts := suite.map Program.verdict
  let failures := verdicts.countP fun verdict => !verdict.passed
  let total := Text.decimal suite.length
  { status := if failures = 0 then 0 else 1
    stdout :=
      if failures = 0 then "All " ++ total ++ " programs behaved.\n"
      else Text.decimal failures ++ " of " ++ total ++ " programs misbehaved.\n"
    console := verdicts.flatMap Verdict.log }

end ByteMachine.Conformance
