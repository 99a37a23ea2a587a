import ByteMachine.Memory.Basic
import ByteMachine.Processor
import ByteMachine.Sink

/-!
# The machine

A processor with the memory, the output channels and the log it works on, and the elementary actions
on them. What an action has done before it faults stays done.
-/

namespace ByteMachine

structure Machine (M W : Type) where
  processor : Processor := .powerOn
  memory : M
  /-- Where the program prints. -/
  output : W
  /-- Where the trace of a traced run goes. -/
  diagnostics : W
  log : Array Log.Entry := #[]

/-- Something a machine does, with a result or a fault. -/
abbrev Action (M W : Type) := EStateM Fault (Machine M W)

namespace Machine

variable {M W : Type} {α : Type}

def showProcessor (m : Machine M W) : String := "CPU: " ++ m.processor.describe

def report (entry : Log.Entry) : Action M W Unit :=
  fun m => .ok () { m with log := m.log.push entry }

def updateProcessor (f : Processor → Processor) : Action M W Unit :=
  fun m => .ok () { m with processor := f m.processor }

/-- The result of something that does not touch the machine. -/
def settle : Except Fault α → Action M W α
  | .ok value => fun m => .ok value m
  | .error fault => fun m => .error fault m

def read [Memory M] (address : Nat) : Action M W UInt8 :=
  fun ⟨processor, memory, output, diagnostics, log⟩ =>
    let access := Memory.read memory address
    settle access.result
      { processor, memory := access.memory, output, diagnostics, log := log ++ access.messages }

def write [Memory M] (address : Nat) (value : UInt8) : Action M W Unit :=
  fun ⟨processor, memory, output, diagnostics, log⟩ =>
    let access := Memory.write memory address value
    settle access.result
      { processor, memory := access.memory, output, diagnostics, log := log ++ access.messages }

/-- Let the output take a write or a flush, whose failure is a fault. -/
def toOutput (use : W → Except WriteError Unit × W) : Action M W Unit := fun m =>
  let (result, output) := use m.output
  settle (result.mapError Fault.output) { m with output }

/-- Let the diagnostics take a write or a flush, whose failure is a fault. -/
def toDiagnostics (use : W → Except WriteError Unit × W) : Action M W Unit := fun m =>
  let (result, diagnostics) := use m.diagnostics
  settle (result.mapError Fault.output) { m with diagnostics }

/-- Write a text to the output and flush it. -/
def print [Writer W] (text : String) : Action M W Unit := toOutput (Writer.print · text)

/-- Write a line to the diagnostics, which are not flushed. -/
def record [Writer W] (line : String) : Action M W Unit := do
  toDiagnostics (Writer.write · (Text.utf8Encode (line ++ "\n")))
  report (.traceLine line)

def getRegister (i : UInt8) : Action M W UInt8 :=
  fun m => settle (m.processor.registers.read i) m

def setRegister (i : UInt8) (value : UInt8) : Action M W Unit := do
  let r ← settle (Registers.index i)
  updateProcessor (·.setRegister r value)

def setState (state : RunState) : Action M W Unit :=
  updateProcessor fun p => { p with state }

/-- Back to the state at power-on. Memory is not touched. -/
def reset : Action M W Unit := updateProcessor fun _ => .powerOn

end Machine

end ByteMachine
