import ByteMachine.Proofs.Collision
import ByteMachine.Proofs.InstructionTable
import Mathlib.Data.List.Infix

/-!
# The stack as a stack

Pushes and pops that a host makes, in any order, on a stack pointer that starts anywhere and wraps
around both ends of memory. Main statement: as long as no more is popped than was pushed, and no
more is pushed than memory has cells, the last byte in is the first one out.
-/

namespace ByteMachine

inductive StackCall where
  | push (value : UInt8)
  | pop
  deriving DecidableEq, Repr

namespace StackCall

/-- What a call makes of a stack, of which the last byte in stands first. -/
def applyTo : StackCall → List UInt8 → List UInt8
  | push value, stack => value :: stack
  | pop, stack => stack.tail

/-- What a call adds to the number of bytes on a stack. -/
def change : StackCall → Int
  | push _ => 1
  | pop => -1

/-- The bytes that have been pushed and not popped yet, the last one first. -/
def pending (calls : List StackCall) : List UInt8 :=
  calls.foldl (fun stack call => call.applyTo stack) []

/-- How many bytes more have been pushed than popped. -/
def depth (calls : List StackCall) : Int :=
  calls.foldl (fun height call => height + call.change) 0

/-- At no time more has been popped than pushed, or more is pushed than memory has cells. -/
def Within (calls : List StackCall) : Prop :=
  ∀ before, before <+: calls → 0 ≤ depth before ∧ depth before ≤ 256

instance (calls : List StackCall) : Decidable (Within calls) :=
  decidable_of_iff (∀ before ∈ calls.inits, 0 ≤ depth before ∧ depth before ≤ 256)
    (forall_congr' fun _ => imp_congr_left (List.mem_inits ..))

variable {calls before : List StackCall} {call : StackCall}

theorem pending_concat (calls : List StackCall) (call : StackCall) :
    pending (calls ++ [call]) = call.applyTo (pending calls) := by
  simp [pending]

theorem depth_concat (calls : List StackCall) (call : StackCall) :
    depth (calls ++ [call]) = depth calls + call.change := by
  simp [depth]

theorem Within.earlier (within : Within calls) (earlier : before <+: calls) : Within before :=
  fun first start => within first (start.trans earlier)

/-- Within these bounds a pop always finds something, so bytes are counted as they are kept. -/
theorem Within.length_pending (within : Within calls) : (pending calls).length = depth calls := by
  induction calls using List.reverseRecOn with
  | nil => rfl
  | append_singleton calls call inductionHypothesis =>
    have counted := inductionHypothesis (within.earlier (List.prefix_append ..))
    have bounds := (within _ List.prefix_rfl).1
    rw [depth_concat] at bounds
    rw [pending_concat, depth_concat, ← counted]
    rw [← counted] at bounds
    cases call with
    | push value => simp [applyTo, change]
    | pop =>
      cases held : pending calls with
      | nil => simp [held, change] at bounds
      | cons value rest => simp only [applyTo, change, List.tail_cons, List.length_cons]; omega

end StackCall

namespace Processor

theorem toNat_lowered (p : Processor) :
    (p.lowered.stackPointer.toNat : Int) = (p.stackPointer.toNat - 1) % 256 := by
  rw [stackPointer_lowered]
  exact toNat_sub_one_eq_iff.mp rfl

theorem toNat_raised (p : Processor) :
    (p.raised.stackPointer.toNat : Int) = (p.stackPointer.toNat + 1) % 256 := by
  rw [stackPointer_raised]
  exact toNat_eq_add_iff.mpr rfl

end Processor

namespace Machine

open StackCall

variable {W : Type}

/-- The machine after a call of its stack. -/
def called (m : Machine Ram W) : StackCall → Machine Ram W
  | .push value => after (push value) m
  | .pop => after pop m

def calledAll (m : Machine Ram W) (calls : List StackCall) : Machine Ram W := calls.foldl called m

/-- Where a push would store. -/
def pushAddress (m : Machine Ram W) : Nat := (m.processor.stackPointer - 1).toNat

section Calls

variable {m start : Machine Ram W} {stack : List UInt8} {value : UInt8} {calls : List StackCall}

theorem calledAll_concat (m : Machine Ram W) (calls : List StackCall) (call : StackCall) :
    m.calledAll (calls ++ [call]) = (m.calledAll calls).called call := by
  simp [calledAll]

theorem push_ram (value : UInt8) (m : Machine Ram W) :
    ∃ memory, push value m = .ok () { m with processor := m.processor.lowered, memory } ∧
      memory.toList = m.memory.toList.set m.pushAddress value := by
  have stored := Bank.set_of_lt m.memory value (m.processor.stackPointer - 1).toNat_lt
  refine ⟨_, ?_, Bank.toList_of_set stored⟩
  rw [push_apply]
  exact write_of_stored (m := { m with processor := m.processor.lowered }) stored

theorem pop_ram (m : Machine Ram W) :
    ∃ value, pop m = .ok value { m with processor := m.processor.raised } ∧
      m.memory.toList[m.processor.stackPointer.toNat]? = some value := by
  have held := Bank.get_of_lt m.memory m.processor.stackPointer.toNat_lt
  refine ⟨_, ?_, Bank.get_eq_ok_iff.mp held⟩
  have read : Machine.read m.processor.stackPointer.toNat m = .ok _ m :=
    (read_plain _ m).trans (congrArg (settle · m) held)
  simp only [pop_apply, bind, EStateM.bind, read]
  rfl

/-- Memory holds a stack, the last byte in where the stack pointer points. -/
structure StackHolds (start : Machine Ram W) (stack : List UInt8) (m : Machine Ram W) : Prop where
  pointer : (m.processor.stackPointer.toNat : Int) =
    (start.processor.stackPointer.toNat - stack.length) % 256
  fits : stack.length ≤ 256
  cells : ∀ i < stack.length,
    m.memory.toList[(m.processor.stackPointer.toNat + i) % 256]? = stack[i]?

theorem StackHolds.empty (m : Machine Ram W) : StackHolds m [] m where
  pointer := by
    have := m.processor.stackPointer.toNat_lt
    simp only [List.length_nil]
    omega
  fits := Nat.zero_le _
  cells := nofun

/-- A push does not reach the oldest byte, unless all cells are taken. -/
theorem StackHolds.push (holds : StackHolds start stack m) (room : stack.length < 256)
    (value : UInt8) : StackHolds start (value :: stack) (after (Machine.push value) m) := by
  obtain ⟨memory, pushed, stored⟩ := push_ram value m
  have lowered := m.processor.toNat_lowered
  have pointer := holds.pointer
  rw [after_eq_of_ok pushed]
  constructor
  case pointer =>
    change (m.processor.lowered.stackPointer.toNat : Int) = _
    rw [List.length_cons]
    omega
  case fits => exact room
  case cells =>
    have top : m.pushAddress = m.processor.lowered.stackPointer.toNat := by
      rw [Processor.stackPointer_lowered, pushAddress]
    intro i inside
    rw [stored, top]
    cases i with
    | zero =>
      have address : m.processor.lowered.stackPointer.toNat < 256 := UInt8.toNat_lt _
      rw [Nat.add_zero, Nat.mod_eq_of_lt address, List.getElem?_set_self]
      · rfl
      · rwa [Bank.length_toList]
    | succ i =>
      rw [List.length_cons] at inside
      have apart : m.processor.lowered.stackPointer.toNat ≠
          (m.processor.lowered.stackPointer.toNat + (i + 1)) % 256 := by omega
      have same : (m.processor.lowered.stackPointer.toNat + (i + 1)) % 256 =
          (m.processor.stackPointer.toNat + i) % 256 := by omega
      rw [List.getElem?_set_ne apart, same, List.getElem?_cons_succ]
      exact holds.cells i (by omega)

theorem StackHolds.pop (holds : StackHolds start (value :: stack) m) :
    outcome Machine.pop m = .ok value ∧ StackHolds start stack (after Machine.pop m) := by
  obtain ⟨popped, acted, held⟩ := pop_ram m
  have raised := m.processor.toNat_raised
  have pointer := holds.pointer
  have top := holds.cells 0 (Nat.succ_pos _)
  rw [List.length_cons] at pointer
  rw [Nat.add_zero, Nat.mod_eq_of_lt m.processor.stackPointer.toNat_lt, held] at top
  obtain rfl : popped = value := Option.some.inj top
  rw [outcome_eq_of_ok acted, after_eq_of_ok acted]
  refine ⟨rfl, ?_⟩
  constructor
  case pointer =>
    change (m.processor.raised.stackPointer.toNat : Int) = _
    omega
  case fits => exact Nat.le_of_succ_le holds.fits
  case cells =>
    intro i inside
    have same : (m.processor.raised.stackPointer.toNat + i) % 256 =
        (m.processor.stackPointer.toNat + (i + 1)) % 256 := by omega
    rw [same]
    exact holds.cells (i + 1) (Nat.succ_lt_succ inside)

theorem holds_of_within (within : Within calls) (m : Machine Ram W) :
    StackHolds m (pending calls) (m.calledAll calls) := by
  induction calls using List.reverseRecOn with
  | nil => exact .empty m
  | append_singleton calls call inductionHypothesis =>
    have earlier := within.earlier (List.prefix_append calls [call])
    have holds := inductionHypothesis earlier
    have counted := earlier.length_pending
    have bounds := within _ List.prefix_rfl
    rw [depth_concat, ← counted] at bounds
    rw [calledAll_concat, pending_concat]
    cases call with
    | push value =>
      have room : (pending calls).length < 256 := by
        simp only [change] at bounds
        omega
      exact holds.push room value
    | pop =>
      cases held : pending calls with
      | nil => simp [held, change] at bounds
      | cons value rest =>
        rw [held] at holds
        exact holds.pop.2

/-- A cell is as it was, unless a push has stored there. -/
theorem cell_calledAll {address : Nat}
    (spared : ∀ before value, before ++ [.push value] <+: calls →
      (m.calledAll before).pushAddress ≠ address) :
    (m.calledAll calls).memory.toList[address]? = m.memory.toList[address]? := by
  induction calls using List.reverseRecOn with
  | nil => rfl
  | append_singleton calls call inductionHypothesis =>
    have kept := inductionHypothesis fun before value start =>
      spared before value (start.trans (List.prefix_append ..))
    rw [← kept, calledAll_concat]
    cases call with
    | push value =>
      obtain ⟨memory, pushed, stored⟩ := push_ram value (m.calledAll calls)
      have apart := spared calls value List.prefix_rfl
      rw [called, after_eq_of_ok pushed, stored, List.getElem?_set_ne apart]
    | pop =>
      obtain ⟨_, popped, -⟩ := pop_ram (m.calledAll calls)
      rw [called, after_eq_of_ok popped]

/-- How a machine answers calls of its stack, one after another. -/
structure LastInFirstOut (m : Machine Ram W) (calls : List StackCall) : Prop where
  pushes : ∀ before value, before ++ [.push value] <+: calls →
    outcome (Machine.push value) (m.calledAll before) = .ok ()
  pops : ∀ before, before ++ [.pop] <+: calls →
    ∃ value, (pending before).head? = some value ∧
      outcome Machine.pop (m.calledAll before) = .ok value
  pointer : ∀ before, before <+: calls →
    ((m.calledAll before).processor.stackPointer.toNat : Int) =
      (m.processor.stackPointer.toNat - depth before) % 256
  cells : ∀ before, before <+: calls → ∀ address,
    (∀ earlier value, earlier ++ [.push value] <+: before →
      (m.calledAll earlier).pushAddress ≠ address) →
    (m.calledAll before).memory.toList[address]? = m.memory.toList[address]?
  balanced : depth calls = 0 →
    (m.calledAll calls).processor.stackPointer = m.processor.stackPointer

/-- Wherever the stack pointer starts, the stack is one at every depth that memory has room for. -/
theorem stack_last_in_first_out (within : Within calls) (m : Machine Ram W) :
    LastInFirstOut m calls := by
  have pointer (before : List StackCall) (start : before <+: calls) :
      ((m.calledAll before).processor.stackPointer.toNat : Int) =
        (m.processor.stackPointer.toNat - depth before) % 256 := by
    rw [← (within.earlier start).length_pending]
    exact (holds_of_within (within.earlier start) m).pointer
  constructor
  case pushes =>
    intro before value _
    obtain ⟨memory, pushed, -⟩ := push_ram value (m.calledAll before)
    exact outcome_eq_of_ok pushed
  case pops =>
    intro before start
    have earlier := within.earlier ((List.prefix_append before [.pop]).trans start)
    have holds := holds_of_within earlier m
    have bounds := (within _ start).1
    rw [depth_concat, ← earlier.length_pending] at bounds
    cases held : pending before with
    | nil => simp [held, change] at bounds
    | cons value rest =>
      rw [held] at holds
      exact ⟨value, rfl, holds.pop.1⟩
  case pointer => exact pointer
  case cells => exact fun before _ address spared => cell_calledAll spared
  case balanced =>
    intro balanced
    have back := pointer calls List.prefix_rfl
    have small := m.processor.stackPointer.toNat_lt
    rw [balanced] at back
    apply UInt8.toNat_inj.mp
    omega

/-- The stack pointer starts at zero, so both the first push and the last pop wrap. -/
theorem stack_last_in_first_out_wrapping :
    let p : Processor := Processor.powerOn.setRegister 7 0
    let m : Machine Ram Sink :=
      { processor := p, memory := Bank.zero, output := {}, diagnostics := {} }
    let calls : List StackCall := [.push 5, .push 9, .pop, .push 7, .pop, .pop]
    Within calls ∧ LastInFirstOut m calls ∧ outcome pop (m.calledAll (calls.take 5)) = .ok 5 ∧
      (m.calledAll calls).processor.stackPointer = 0 := by
  intro p m calls
  have within : Within calls := by decide
  have lifo := stack_last_in_first_out within m
  have last := lifo.pops (calls.take 5) List.prefix_rfl
  have oldest : (pending (calls.take 5)).head? = some 5 := rfl
  refine ⟨within, lifo, ?_, lifo.balanced rfl⟩
  obtain ⟨value, top, popped⟩ := last
  rwa [Option.some.inj (oldest.symm.trans top)]

end Calls

end Machine

end ByteMachine
