import ByteMachine.Machine.Step
import ByteMachine.Memory.Host

/-!
# Plain memories

A plain memory is not changed by a read, nor by an access that it refuses, and it adds nothing to
the log. Banks are plain, and stay so when addresses of them are closed. On plain memories reads and
writes have short equations.
-/

namespace ByteMachine

class PlainMemory (M : Type) [Memory M] where
  get : M → (address : Nat) → Except Fault UInt8
  set : M → (address : Nat) → (value : UInt8) → Except Fault M
  read_eq (memory : M) (address : Nat) :
    Memory.read memory address = { result := get memory address, memory }
  write_eq (memory : M) (address : Nat) (value : UInt8) :
    Memory.write memory address value =
      match set memory address value with
      | .ok stored => { result := .ok (), memory := stored }
      | .error fault => { result := .error fault, memory }
  get_fault {memory : M} {address : Nat} {fault : Fault} :
    get memory address = .error fault → fault = .addressing address
  set_fault {memory : M} {address : Nat} {value : UInt8} {fault : Fault} :
    set memory address value = .error fault → fault = .addressing address

instance {size : Nat} : PlainMemory (Bank size) where
  get := Bank.get
  set := Bank.set
  read_eq _ _ := rfl
  write_eq bank address value := by
    simp only [Memory.write]
    cases bank.set address value <;> rfl
  get_fault {bank address fault} refused := by
    unfold Bank.get at refused
    split at refused
    · cases refused
    · exact (Except.error.inj refused).symm
  set_fault {bank address value fault} refused := by
    unfold Bank.set at refused
    split at refused
    · cases refused
    · exact (Except.error.inj refused).symm

instance {M : Type} [Memory M] [PlainMemory M] : PlainMemory (Restricted M) where
  get bus address :=
    if bus.refusesRead address then .error (.addressing address)
    else PlainMemory.get bus.memory address
  set bus address value :=
    if bus.refusesWrite address then .error (.addressing address)
    else (PlainMemory.set bus.memory address value).map bus.replace
  read_eq bus address := by
    simp only [Memory.read]
    split
    · rfl
    · rw [PlainMemory.read_eq]
      rfl
  write_eq bus address value := by
    simp only [Memory.write]
    split
    · rfl
    · rw [PlainMemory.write_eq]
      cases PlainMemory.set bus.memory address value <;> rfl
  get_fault {bus address fault} refused := by
    split at refused
    · exact (Except.error.inj refused).symm
    · exact PlainMemory.get_fault refused
  set_fault {bus address value fault} refused := by
    split at refused
    · exact (Except.error.inj refused).symm
    · cases stored : PlainMemory.set bus.memory address value with
      | ok memory =>
        simp [stored, Except.map] at refused
      | error fault' =>
        rw [stored] at refused
        cases refused
        exact PlainMemory.set_fault stored

instance : PlainMemory HostMemory where
  get memory address := PlainMemory.get memory.bank address
  set memory address value :=
    (PlainMemory.set memory.bank address value).map (⟨memory.size, ·⟩)
  read_eq memory address := by
    change (Memory.read memory.bank address).within _ = _
    rw [PlainMemory.read_eq]
    rfl
  write_eq memory address value := by
    change (Memory.write memory.bank address value).within _ = _
    rw [PlainMemory.write_eq]
    cases PlainMemory.set memory.bank address value <;> rfl
  get_fault refused := PlainMemory.get_fault refused
  set_fault {memory address value fault} refused := by
    cases stored : PlainMemory.set memory.bank address value with
    | ok bank =>
      simp [stored, Except.map] at refused
    | error fault' =>
      rw [stored] at refused
      cases refused
      exact PlainMemory.set_fault stored

namespace Bank

variable {size address : Nat}

theorem get_of_lt (bank : Bank size) (inside : address < size) :
    bank.get address = .ok bank.cells[address] := by rw [Bank.get, dif_pos inside]

theorem set_of_lt (bank : Bank size) (value : UInt8) (inside : address < size) :
    bank.set address value = .ok ⟨bank.cells.set address value⟩ := by rw [Bank.set, dif_pos inside]

theorem get_of_le (bank : Bank size) (outside : size ≤ address) :
    bank.get address = .error (.addressing address) := dif_neg (Nat.not_lt.mpr outside)

theorem set_of_le (bank : Bank size) (value : UInt8) (outside : size ≤ address) :
    bank.set address value = .error (.addressing address) := dif_neg (Nat.not_lt.mpr outside)

/-- The image is in the first cells, and zeros are in those after it. -/
def Holds (bank : Bank size) (image : List UInt8) : Prop :=
  ∀ address (_ : address < size), bank.cells[address] = image.getD address 0

theorem holds_ofImagePrefix (image : List UInt8) :
    (ofImagePrefix image : Bank size).Holds image := by
  intro address inside
  simp [ofImagePrefix]

theorem holds_iff {bank : Bank size} {image : List UInt8} :
    bank.Holds image ↔ bank = ofImagePrefix image := by
  constructor
  · intro holds
    obtain ⟨cells⟩ := bank
    refine congrArg Bank.mk (Vector.ext fun address inside => ?_)
    exact (holds address inside).trans (holds_ofImagePrefix image address inside).symm
  · rintro rfl
    exact holds_ofImagePrefix image

end Bank

namespace Machine

variable {M W α β : Type}

theorem settle_bind (result : Except Fault α) (next : α → Except Fault β) :
    settle (M := M) (W := W) (result >>= next) =
      settle result >>= fun value => settle (next value) := by
  cases result <;> rfl

theorem settle_bind_congr {result : Except Fault α} {next next' : α → Action M W β}
    {m : Machine M W} (same : ∀ value, next value m = next' value m) :
    (settle result >>= next) m = (settle result >>= next') m := by
  cases result with
  | ok value => exact same value
  | error fault => rfl

variable [Memory M] [PlainMemory M]

theorem read_plain (address : Nat) (m : Machine M W) :
    read address m = settle (PlainMemory.get m.memory address) m := by
  simp only [read, PlainMemory.read_eq, Array.appendList_nil]

theorem write_plain (address : Nat) (value : UInt8) (m : Machine M W) :
    write address value m =
      match PlainMemory.set m.memory address value with
      | .ok stored => .ok () { m with memory := stored }
      | .error fault => .error fault m := by
  simp only [write, PlainMemory.write_eq]
  cases PlainMemory.set m.memory address value with
  | ok stored => simp only [settle, Array.appendList_nil]
  | error fault => simp only [settle, Array.appendList_nil]

theorem write_of_stored {address : Nat} {value : UInt8} {m : Machine M W} {stored : M}
    (set : PlainMemory.set m.memory address value = .ok stored) :
    write address value m = .ok () { m with memory := stored } := by
  rw [write_plain, set]

theorem write_of_refused {address : Nat} {value : UInt8} {m : Machine M W} {fault : Fault}
    (refused : PlainMemory.set m.memory address value = .error fault) :
    write address value m = .error fault m := by
  rw [write_plain, refused]

theorem read_bind_plain (address : Nat) (next : UInt8 → Action M W β) (m : Machine M W) :
    (read address >>= next) m = (settle (PlainMemory.get m.memory address) >>= next) m := by
  simp only [bind, EStateM.bind, read_plain]

/-- The bytes that a step would fetch, or the refusal of the first that it cannot. -/
def fetched? (p : Processor) (memory : M) : Except Fault Fetched := do
  let opcode ← PlainMemory.get memory p.pc
  let a ← PlainMemory.get memory ((p.pc + 1) % memorySize)
  let b ← PlainMemory.get memory ((p.pc + 2) % memorySize)
  return { opcode, a, b }

theorem fetch_plain (m : Machine M W) : fetch m = settle (fetched? m.processor m.memory) m := by
  simp only [fetch_apply, fetched?, settle_bind]
  rw [read_bind_plain]
  apply settle_bind_congr
  intro opcode
  rw [read_bind_plain]
  apply settle_bind_congr
  intro a
  rw [read_bind_plain]
  exact settle_bind_congr fun b => rfl

end Machine

end ByteMachine
