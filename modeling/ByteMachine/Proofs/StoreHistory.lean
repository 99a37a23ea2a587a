import ByteMachine.Proofs.PlainMemory
import Mathlib.Data.List.Induction

/-!
# What a memory has in store

Reads, writes and loads of a memory, one after the other, some of them refused. Main statement: a
cell holds what the latest of them that stored something there has stored, or else what the image
has put there that the memory was made from, and a refused call changes nothing.
-/

namespace ByteMachine

/-- What can be asked of a bank. -/
inductive BankCall where
  | read (address : Nat)
  | write (address : Nat) (value : UInt8)
  | load (image : List UInt8)
  deriving DecidableEq, Repr

/-- A call stores a value at an address of a bank of `size` cells, which does not refuse it. A load
covers as many addresses as its image has bytes. -/
inductive BankCall.Stores (size address : Nat) : BankCall → UInt8 → Prop where
  | write {value : UInt8} : address < size → Stores size address (.write address value) value
  | load {image : List UInt8} {value : UInt8} : image.length ≤ size →
      image[address]? = some value → Stores size address (.load image) value

/-- No value is stored at the address. -/
def BankCall.Spares (size address : Nat) (call : BankCall) : Prop :=
  ∀ value, ¬call.Stores size address value

/-- The latest value that calls have stored at an address, or the initial one if there is none. -/
inductive LatestStored (size address : Nat) (initial : UInt8) : List BankCall → UInt8 → Prop where
  | untouched {calls : List BankCall} : (∀ call ∈ calls, call.Spares size address) →
      LatestStored size address initial calls initial
  | stored {earlier later : List BankCall} {call : BankCall} {value : UInt8} :
      call.Stores size address value → (∀ call' ∈ later, call'.Spares size address) →
      LatestStored size address initial (earlier ++ call :: later) value

/-- How a bank of `size` cells that was made from an image answers a call after other calls. Only a
read has a byte for an answer. -/
inductive AnswersAfter (size : Nat) (image : List UInt8) (calls : List BankCall) :
    BankCall → Except Fault (Option UInt8) → Prop where
  | read {address : Nat} {value : UInt8} : address < size →
      LatestStored size address (image.getD address 0) calls value →
      AnswersAfter size image calls (.read address) (.ok (some value))
  | write {address : Nat} {value : UInt8} : address < size →
      AnswersAfter size image calls (.write address value) (.ok none)
  | load {loaded : List UInt8} : loaded.length ≤ size →
      AnswersAfter size image calls (.load loaded) (.ok none)
  | readOutside {address : Nat} : size ≤ address →
      AnswersAfter size image calls (.read address) (.error (.addressing address))
  | writeOutside {address : Nat} {value : UInt8} : size ≤ address →
      AnswersAfter size image calls (.write address value) (.error (.addressing address))
  | oversized {loaded : List UInt8} : size < loaded.length →
      AnswersAfter size image calls (.load loaded) (.error (.addressing size))

section Calls

variable {size address : Nat} {initial value : UInt8} {calls : List BankCall} {call : BankCall}

theorem LatestStored.concat (latest : LatestStored size address initial calls value)
    (spared : call.Spares size address) :
    LatestStored size address initial (calls ++ [call]) value := by
  have last : ∀ call' ∈ [call], call'.Spares size address := List.forall_mem_singleton.mpr spared
  cases latest with
  | untouched none => exact .untouched (List.forall_mem_append.mpr ⟨none, last⟩)
  | stored stores none =>
    rw [List.append_assoc, List.cons_append]
    exact .stored stores (List.forall_mem_append.mpr ⟨none, last⟩)

/-- Something or nothing has been stored at an address, so there is always a value to be found. -/
theorem exists_latestStored (size address : Nat) (initial : UInt8) (calls : List BankCall) :
    ∃ value, LatestStored size address initial calls value := by
  induction calls using List.reverseRecOn with
  | nil => exact ⟨initial, .untouched nofun⟩
  | append_singleton calls call inductionHypothesis =>
    by_cases spared : call.Spares size address
    · obtain ⟨value, latest⟩ := inductionHypothesis
      exact ⟨value, latest.concat spared⟩
    · obtain ⟨value, stores⟩ := Classical.not_forall_not.mp spared
      exact ⟨value, .stored stores nofun⟩

theorem exists_answersAfter (size : Nat) (image : List UInt8) (calls : List BankCall)
    (call : BankCall) : ∃ answered, AnswersAfter size image calls call answered := by
  cases call with
  | read address =>
    by_cases inside : address < size
    · obtain ⟨value, latest⟩ := exists_latestStored size address (image.getD address 0) calls
      exact ⟨_, .read inside latest⟩
    · exact ⟨_, .readOutside (Nat.not_lt.mp inside)⟩
  | write address value =>
    by_cases inside : address < size
    · exact ⟨_, .write inside⟩
    · exact ⟨_, .writeOutside (Nat.not_lt.mp inside)⟩
  | load loaded =>
    by_cases fits : loaded.length ≤ size
    · exact ⟨_, .load fits⟩
    · exact ⟨_, .oversized (Nat.not_le.mp fits)⟩

end Calls

namespace Bank

variable {size address : Nat} {bank : Bank size} {image : List UInt8} {initial value : UInt8}
  {calls : List BankCall} {call : BankCall} {answered : Except Fault (Option UInt8)} {fault : Fault}

def answer (bank : Bank size) : BankCall → Except Fault (Option UInt8)
  | .read address => (Memory.read bank address).result.map some
  | .write address value => (Memory.write bank address value).result.map fun _ => none
  | .load image => (bank.load image).map fun _ => none

/-- The bank after a call, refused or not. -/
def called (bank : Bank size) : BankCall → Bank size
  | .read address => (Memory.read bank address).memory
  | .write address value => (Memory.write bank address value).memory
  | .load image =>
    match bank.load image with
    | .ok loaded => loaded
    | .error _ => bank

def calledAll (bank : Bank size) (calls : List BankCall) : Bank size := calls.foldl called bank

theorem load_of_fits (bank : Bank size) (fits : image.length ≤ size) :
    bank.load image = .ok ⟨Vector.ofFn fun i => image.toArray.getD i bank.cells[i]⟩ := if_pos fits

theorem load_of_oversized (bank : Bank size) (oversized : size < image.length) :
    bank.load image = .error (.addressing size) := if_neg (Nat.not_le.mpr oversized)

theorem called_write_of_lt (bank : Bank size) (value : UInt8) (inside : address < size) :
    bank.called (.write address value) = ⟨bank.cells.set address value⟩ := by
  simp only [called, Memory.write, set_of_lt bank value inside]

theorem called_load_of_fits (bank : Bank size) (fits : image.length ≤ size) :
    bank.called (.load image) = ⟨Vector.ofFn fun i => image.toArray.getD i bank.cells[i]⟩ := by
  simp only [called, load_of_fits bank fits]

theorem cell_called_of_stores (stores : call.Stores size address value) (inside : address < size) :
    (bank.called call).cells[address] = value := by
  cases stores with
  | write inside => simp only [called_write_of_lt bank value inside, Vector.getElem_set_self]
  | load fits held => simp [called_load_of_fits bank fits, held]

theorem cell_called_of_spares (spared : call.Spares size address) (inside : address < size) :
    (bank.called call).cells[address] = bank.cells[address] := by
  cases call with
  | read other => rfl
  | write other value =>
    by_cases stored : other < size
    · have apart : other ≠ address := by
        rintro rfl
        exact spared value (.write stored)
      simp only [called_write_of_lt bank value stored]
      exact Vector.getElem_set_ne stored inside apart
    · simp only [called, Memory.write, set_of_le bank value (Nat.not_lt.mp stored)]
  | load image =>
    by_cases fits : image.length ≤ size
    · have uncovered : image[address]? = none := by
        rw [Option.eq_none_iff_forall_ne_some]
        exact fun value held => spared value (.load fits held)
      simp [called_load_of_fits bank fits, uncovered]
    · simp only [called, load_of_oversized bank (Nat.not_le.mp fits)]

theorem calledAll_append (bank : Bank size) (earlier later : List BankCall) :
    bank.calledAll (earlier ++ later) = (bank.calledAll earlier).calledAll later :=
  List.foldl_append

theorem cell_calledAll_of_spares (spared : ∀ call ∈ calls, call.Spares size address)
    (inside : address < size) : (bank.calledAll calls).cells[address] = bank.cells[address] := by
  induction calls generalizing bank with
  | nil => rfl
  | cons call later inductionHypothesis =>
    obtain ⟨first, others⟩ := List.forall_mem_cons.mp spared
    have kept : (bank.called call).cells[address] = bank.cells[address] :=
      cell_called_of_spares first inside
    exact (inductionHypothesis others).trans kept

theorem cell_of_latestStored (inside : address < size)
    (latest : LatestStored size address bank.cells[address] calls value) :
    (bank.calledAll calls).cells[address] = value := by
  cases latest with
  | untouched none => exact cell_calledAll_of_spares none inside
  | @stored earlier later call value stores none =>
    rw [calledAll_append]
    exact (cell_calledAll_of_spares none inside).trans (cell_called_of_stores stores inside)

theorem answer_of_answersAfter (holds : bank.Holds image)
    (answers : AnswersAfter size image calls call answered) :
    (bank.calledAll calls).answer call = answered := by
  cases answers with
  | read inside latest =>
    rw [← holds _ inside] at latest
    simp only [answer, Memory.read, get_of_lt _ inside, cell_of_latestStored inside latest]
    rfl
  | write inside =>
    simp only [answer, Memory.write, set_of_lt _ _ inside]
    rfl
  | load fits =>
    simp only [answer, load_of_fits _ fits]
    rfl
  | readOutside outside =>
    simp only [answer, Memory.read, get_of_le _ outside]
    rfl
  | writeOutside outside =>
    simp only [answer, Memory.write, set_of_le _ _ outside]
    rfl
  | oversized oversized =>
    simp only [answer, load_of_oversized _ oversized]
    rfl

/-- A bank that was made from an image answers by it and by what has been stored since. -/
theorem answer_calledAll_iff (holds : bank.Holds image) :
    (bank.calledAll calls).answer call = answered ↔
      AnswersAfter size image calls call answered := by
  constructor
  · rintro rfl
    obtain ⟨answered, answers⟩ := exists_answersAfter size image calls call
    rwa [answer_of_answersAfter holds answers]
  · exact answer_of_answersAfter holds

theorem called_of_refused (refused : bank.answer call = .error fault) :
    bank.called call = bank := by
  cases call with
  | read address => rfl
  | write address value =>
    simp only [answer, Memory.write] at refused
    simp only [called, Memory.write]
    cases stored : bank.set address value with
    | ok stored' =>
      rw [stored] at refused
      cases refused
    | error fault' => rfl
  | load image =>
    simp only [answer] at refused
    simp only [called]
    cases loaded : bank.load image with
    | ok loaded' =>
      rw [loaded] at refused
      cases refused
    | error fault' => rfl

/-- A memory that was made from an image keeps what is stored in it. -/
structure KeepsStores (image : List UInt8) (ram : Ram) : Prop where
  answers : ∀ calls call answered, (ram.calledAll calls).answer call = answered ↔
    AnswersAfter memorySize image calls call answered
  refused : ∀ calls call fault, (ram.calledAll calls).answer call = .error fault →
    ram.calledAll (calls ++ [call]) = ram.calledAll calls

/-- A memory gives back what was last stored in it, and refuses only what it has no cells for. -/
theorem memory_keeps_stores (image : List UInt8) :
    (memorySize < image.length →
      (ofImage image : Except Fault Ram) = .error (.addressing memorySize)) ∧
    (image.length ≤ memorySize → ∃ ram, ofImage image = .ok ram ∧ KeepsStores image ram) := by
  constructor
  · exact load_of_oversized zero
  · intro fits
    refine ⟨_, ofImage_of_length_le fits, ?_⟩
    constructor
    case answers =>
      intro calls call answered
      exact answer_calledAll_iff (holds_ofImagePrefix image)
    case refused =>
      intro calls call fault refused
      rw [calledAll_append]
      exact called_of_refused refused

/-- A shorter image leaves the end of a longer one where it is. -/
example : let ram : Ram := ofImagePrefix [1, 2, 3]
    let calls : List BankCall := [.load [4, 5, 6], .write 2 7, .load [8], .write 256 9]
    (List.range 4).map (fun address => (ram.calledAll calls).answer (.read address)) =
      [.ok (some 8), .ok (some 5), .ok (some 7), .ok (some 0)] := by decide +kernel

end Bank

end ByteMachine
