import ByteMachine.Machine.Operation
import ByteMachine.Memory.Host
import ByteMachine.Memory.Recorded

/-!
# Test benches

Several processors and several recorded memories, of which one each is selected at a time, on one
output and one log. An observation is what a request showed: its answer, the selected processor
after it, and all that it added or changed.
-/

namespace ByteMachine

structure Bench where
  processors : Array Processor
  memories : Array (Recorded HostMemory)
  processor : Nat := 0
  memory : Nat := 0
  output : Sink := {}
  log : Array Log.Entry := #[]

namespace Bench

inductive Request where
  | select (processor memory : Nat)
  | operate (operation : Operation)
  | load (image : List UInt8)
  | dump

/-- The selected processor and memory as a machine. -/
def machine? (bench : Bench) : Option (Machine (Recorded HostMemory) Sink) := do
  let processor ← bench.processors[bench.processor]?
  let memory ← bench.memories[bench.memory]?
  return { processor, memory, output := bench.output, diagnostics := {}, log := bench.log }

/-- Put the selected processor and memory back. -/
def replace (bench : Bench) (m : Machine (Recorded HostMemory) Sink) : Bench :=
  { bench with
    processors := bench.processors.setIfInBounds bench.processor m.processor
    memories := bench.memories.setIfInBounds bench.memory m.memory
    output := m.output
    log := m.log }

def loadImage (image : List UInt8) : Action (Recorded HostMemory) Sink Unit := fun m =>
  match m.memory.memory.load image with
  | .ok memory => .ok () { m with memory.memory := memory }
  | .error fault => .error fault m

def Request.action (comparison : Comparison) :
    Request → Action (Recorded HostMemory) Sink Answer
  | select .. => return .done
  | operate operation => operation.carryOut comparison
  | load image => do
    loadImage image
    return .done
  | dump => return .bytes (← get).memory.memory.toList

def select (bench : Bench) (processor memory : Nat) : Bench := { bench with processor, memory }

/-- Serve a request. Nothing happens where nothing is selected. -/
def serve (comparison : Comparison) (request : Request) (bench : Bench) :
    Except Fault Answer × Bench :=
  let bench := match request with
    | .select processor memory => bench.select processor memory
    | _ => bench
  match bench.machine? with
  | none => (.ok .done, bench)
  | some m =>
    match request.action comparison m with
    | .ok answer m => (.ok answer, bench.replace m)
    | .error fault m => (.error fault, bench.replace m)

structure Observation where
  answer : Except Fault Answer
  processor : Processor
  printed : List UInt8
  /-- The cells of the selected memory that have a new value. -/
  changes : List (Nat × UInt8)
  accesses : List BusAccess
  log : List Log.Entry

/-- The positions at which two lists differ, with the entry of the second. -/
def differences (old new : List UInt8) : List (Nat × UInt8) :=
  (old.zip new).zipIdx.filterMap fun ((before, after), address) =>
    if before = after then none else some (address, after)

def observe (comparison : Comparison) (request : Request) (bench : Bench) :
    Observation × Bench :=
  let (answer, next) := bench.serve comparison request
  let memoryOf (b : Bench) : Recorded HostMemory :=
    b.memories.getD next.memory { memory := HostMemory.ofSize 0 [] }
  let old := memoryOf bench
  let new := memoryOf next
  ({  answer
      processor := next.processors.getD next.processor .powerOn
      printed := next.output.accepted.toList.drop bench.output.accepted.size
      changes := differences old.memory.toList new.memory.toList
      accesses := new.accesses.toList.drop old.accesses.size
      log := next.log.toList.drop bench.log.size }, next)

/-- Serve requests in turn. -/
def observeAll (comparison : Comparison) : List Request → Bench → List Observation
  | [], _ => []
  | request :: rest, bench =>
    let (observation, next) := bench.observe comparison request
    observation :: observeAll comparison rest next

end Bench

end ByteMachine
