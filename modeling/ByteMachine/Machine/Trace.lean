import ByteMachine.Machine.Run

/-!
# Traces

A trace line shows the machine before a step: the program counter, the three bytes there and the
registers. A traced run writes one line to the diagnostics before each of its steps.
-/

namespace ByteMachine.Machine

variable {M W : Type} [Memory M]

/-- Bytes in hexadecimal, each after a space. -/
def spaced : List UInt8 → String
  | [] => ""
  | b :: rest => " " ++ Text.hexByte b ++ spaced rest

/-- The three bytes at the program counter. Here the first address wraps too. -/
def inspect : Action M W Fetched := do
  let pc := (← get).processor.pc
  let opcode ← read (pc % memorySize)
  let a ← read ((pc + 1) % memorySize)
  let b ← read ((pc + 2) % memorySize)
  return { opcode, a, b }

def traceText (p : Processor) (shown : Fetched) : String :=
  "TRACE: " ++ Text.hex 2 p.pc ++ " |" ++ spaced [shown.opcode, shown.a, shown.b] ++ " |" ++
    spaced p.registers.toList

def traceLine : Action M W String := do
  let shown ← inspect
  return traceText (← get).processor shown

theorem Keeps.traceLine {γ : Type} {view : Machine M W → γ}
    (reads : ∀ address, Keeps view (Machine.read address)) : Keeps view Machine.traceLine :=
  Keeps.bind
    (Keeps.bind Keeps.get fun _ => Keeps.bind (reads _) fun _ => Keeps.bind (reads _) fun _ =>
      Keeps.bind (reads _) fun _ => Keeps.pure _)
    fun _ => Keeps.bind Keeps.get fun _ => Keeps.pure _

theorem keeps_processor_traceLine : Keeps (M := M) (W := W) Machine.processor traceLine :=
  Keeps.traceLine fun _ => Keeps.read fun _ _ _ => rfl

variable [Writer W]

def tracedStep (comparison : Comparison) : Action M W Executed := do
  record (← traceLine)
  step comparison

/-- Like a run, but it is silent about its start and its end. -/
def runTraced (comparison : Comparison) : Action M W Unit := fun m =>
  if m.processor.state = .halted then .ok () m
  else untilHalted (tracedStep comparison) m

end ByteMachine.Machine
