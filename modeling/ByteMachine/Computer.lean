import ByteMachine.Machine.Trace
import ByteMachine.Memory.Bank

/-!
# Computers

A processor with the memory it owns, and the runs a user makes on it one after another.
-/

namespace ByteMachine

abbrev Computer := Machine Ram Sink

namespace Computer

def ofRam (ram : Ram) : Computer := { memory := ram, output := {}, diagnostics := {} }

inductive Call where
  | run
  | runTraced
  deriving DecidableEq, Repr

def Call.action (comparison : Comparison) : Call → Action Ram Sink Unit
  | run => Machine.run comparison
  | runTraced => Machine.runTraced comparison

/-- What a call showed. -/
structure Observation where
  fault : Option Fault
  processor : String
  printed : List UInt8
  traced : List UInt8
  log : List Log.Entry

/-- A call on the computer as it is built by default, and what it shows. -/
def observe (call : Call) (computer : Computer) : Observation × Computer :=
  let (fault, next) : Option Fault × Computer := match call.action .contents computer with
    | .ok _ next => (none, next)
    | .error fault next => (some fault, next)
  ({  fault
      processor := next.showProcessor
      printed := next.output.accepted.toList.drop computer.output.accepted.size
      traced := next.diagnostics.accepted.toList.drop computer.diagnostics.accepted.size
      log := next.log.toList.drop computer.log.size }, next)

def observeAll : List Call → Computer → List Observation
  | [], _ => []
  | call :: rest, computer =>
    let (observation, next) := computer.observe call
    observation :: observeAll rest next

end Computer

end ByteMachine
