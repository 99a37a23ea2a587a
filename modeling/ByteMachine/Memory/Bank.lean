import ByteMachine.Memory.Basic

/-!
# Banks of byte cells

A bank of `size` cells has the addresses below `size` and refuses every other. The machine's own
memory is a bank of 256.
-/

namespace ByteMachine

structure Bank (size : Nat) where
  cells : Vector UInt8 size
  deriving DecidableEq

/-- How many cells the machine's own memory has. -/
abbrev memorySize : Nat := 256

/-- Program, data and stack all live in here. -/
abbrev Ram := Bank memorySize

namespace Bank

variable {size : Nat}

def zero : Bank size := ⟨Vector.replicate size 0⟩

/-- Copy an image to the first cells and leave the others as they are. An image that does not fit is
refused at the first address it would need and the bank does not have. -/
def load (bank : Bank size) (image : List UInt8) : Except Fault (Bank size) :=
  let loaded := image.toArray
  if image.length ≤ size then
    .ok ⟨Vector.ofFn fun i => loaded.getD i bank.cells[i]⟩
  else
    .error (.addressing size)

/-- A bank with an image in its first cells and zeros after it. -/
def ofImage (image : List UInt8) : Except Fault (Bank size) := zero.load image

/-- As much of an image as the bank has cells, and zeros after it. -/
def ofImagePrefix (image : List UInt8) : Bank size :=
  let loaded := image.toArray
  ⟨Vector.ofFn fun i => loaded.getD i 0⟩

def get (bank : Bank size) (address : Nat) : Except Fault UInt8 :=
  if h : address < size then .ok bank.cells[address] else .error (.addressing address)

def set (bank : Bank size) (address : Nat) (value : UInt8) : Except Fault (Bank size) :=
  if h : address < size then .ok ⟨bank.cells.set address value⟩ else .error (.addressing address)

def toList (bank : Bank size) : List UInt8 := bank.cells.toList

instance : Memory (Bank size) where
  read bank address := { result := bank.get address, memory := bank }
  write bank address value :=
    match bank.set address value with
    | .ok stored => { result := .ok (), memory := stored }
    | .error fault => { result := .error fault, memory := bank }

theorem ofImage_of_length_le {image : List UInt8} (fits : image.length ≤ size) :
    ofImage image = .ok (ofImagePrefix image : Bank size) := by
  have zeros (i : Fin size) : (zero : Bank size).cells[i] = 0 := Vector.getElem_replicate i.isLt
  simp only [ofImage, load, if_pos fits, ofImagePrefix, zeros]

theorem get_eq_ok_iff {bank : Bank size} {address : Nat} {value : UInt8} :
    bank.get address = .ok value ↔ bank.toList[address]? = some value := by
  unfold get toList
  split
  · rename_i inside
    simp [inside]
  · rename_i outside
    simp [outside]

theorem toList_of_set {bank stored : Bank size} {address : Nat} {value : UInt8}
    (set : bank.set address value = .ok stored) :
    stored.toList = bank.toList.set address value := by
  unfold Bank.set at set
  split at set
  · rename_i inside
    cases set
    exact Vector.toList_set inside
  · cases set

@[simp] theorem length_toList (bank : Bank size) : bank.toList.length = size := by simp [toList]

end Bank

end ByteMachine
