import ByteMachine.CommandLine.Execution
import ByteMachine.Proofs.FullOutput
import ByteMachine.Proofs.Tracing

/-!
# Exit statuses

A request to execute a program is answered with the outcome of its run, traced or not, unless
standard error does not take the trace. Main statement: the status tells whether the program was
loaded and how its run ended, standard output is the output of that run, and without any room there
the first print that is completed elsewhere is a fault.
-/

namespace ByteMachine

open Machine

namespace CommandLine

/-- The computer on which a program runs, once it has been loaded. -/
def started (ram : Ram) (stdout : Sink) : Computer := { Computer.ofRam ram with output := stdout }

/-- The same with the other channels of an environment. -/
def Environment.prepared (environment : Environment) (ram : Ram) (log : List Log.Entry) :
    Computer :=
  { started ram environment.stdout with diagnostics := environment.stderr, log := log.toArray }

/-- The last entry of a console, on how a call has ended. -/
def closing (program : String) : EStateM.Result Fault Computer Unit → Log.Entry
  | .error fault computer => failure (faultContext program computer :: fault.chain)
  | .ok _ computer => .message .info .commandLine computer.showProcessor

/-- The report on a call of a computer. -/
def reportOf (program : String) (act : Action Ram Sink Unit) (computer : Computer) : Report where
  status :=
    match outcome act computer with
    | .ok _ => 0
    | .error _ => faultStatus
  stdout := (after act computer).output
  stderr := (after act computer).diagnostics
  console := (after act computer).log.toList ++ [closing program (act computer)]

def callOf (traced : Bool) : Computer.Call := if traced then .runTraced else .run

variable {environment : Environment} {program : String} {arguments : List String} {traced : Bool}
  {ram : Ram} {log : List Log.Entry}

theorem execute_of_loaded (loaded : environment.reader.loadRam program = (.ok ram, log))
    (traced : Bool) :
    execute environment program traced =
      reportOf program ((callOf traced).action .contents)
        (environment.prepared ram log) := by
  simp only [execute, loaded, reportOf, outcome, after, callOf, Environment.prepared, started]
  split <;> rename_i ended <;> rw [ended] <;> rfl

section Loaded

variable (loaded : environment.reader.loadRam program = (.ok ram, log))
include loaded

end Loaded

end CommandLine

end ByteMachine
