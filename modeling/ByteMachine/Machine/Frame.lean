import ByteMachine.Machine.Stack

/-!
# What actions keep

`Keeps view act` says that `act` leaves a part of the machine as it is, whether it succeeds or
faults. The elementary actions keep all but the part they are for, and sequences keep what each of
their members keeps.
-/

namespace ByteMachine.Machine

variable {M W α β γ : Type}

/-- The machine that an action leaves behind, faulted or not. -/
def after (act : Action M W α) (m : Machine M W) : Machine M W :=
  match act m with
  | .ok _ m => m
  | .error _ m => m

def Keeps (view : Machine M W → γ) (act : Action M W α) : Prop :=
  ∀ m, view (after act m) = view m

theorem after_eq_of_ok {act : Action M W α} {m m' : Machine M W} {value : α}
    (h : act m = .ok value m') : after act m = m' := by rw [after, h]

theorem after_eq_of_error {act : Action M W α} {m m' : Machine M W} {fault : Fault}
    (h : act m = .error fault m') : after act m = m' := by rw [after, h]

theorem settle_eq_ok {result : Except Fault α} {m m' : Machine M W} {value : α}
    (h : settle result m = .ok value m') : result = .ok value ∧ m' = m := by
  cases result with
  | ok value' =>
    cases h
    exact ⟨rfl, rfl⟩
  | error fault => cases h

theorem after_settle (result : Except Fault α) (m : Machine M W) : after (settle result) m = m := by
  cases result <;> rfl

theorem after_read [Memory M] (address : Nat) (m : Machine M W) :
    after (read address) m = { m with
      memory := (Memory.read m.memory address).memory
      log := m.log ++ (Memory.read m.memory address).messages } :=
  after_settle _ _

theorem after_write [Memory M] (address : Nat) (value : UInt8) (m : Machine M W) :
    after (write address value) m = { m with
      memory := (Memory.write m.memory address value).memory
      log := m.log ++ (Memory.write m.memory address value).messages } :=
  after_settle _ _

theorem get_bind (next : Machine M W → Action M W α) (m : Machine M W) :
    (MonadState.get >>= next) m = next m m := rfl

theorem after_bind (act : Action M W α) (next : α → Action M W β) (m : Machine M W) :
    after (act >>= next) m =
      match act m with
      | .ok value m => after (next value) m
      | .error _ m => m := by
  simp only [after, bind, EStateM.bind]
  cases act m <;> rfl

theorem bind_eq_ok_iff {act : Action M W α} {next : α → Action M W β} {m m' : Machine M W}
    {result : β} :
    (act >>= next) m = .ok result m' ↔
      ∃ value between, act m = .ok value between ∧ next value between = .ok result m' := by
  simp only [bind, EStateM.bind]
  cases act m <;> simp [and_assoc]

theorem bind_eq_error_iff {act : Action M W α} {next : α → Action M W β} {m m' : Machine M W}
    {fault : Fault} :
    (act >>= next) m = .error fault m' ↔
      act m = .error fault m' ∨
        ∃ value between, act m = .ok value between ∧ next value between = .error fault m' := by
  simp only [bind, EStateM.bind]
  cases act m <;> simp [and_assoc]

namespace Keeps

variable {view : Machine M W → γ}

theorem of_ok {act : Action M W α} {m m' : Machine M W} {value : α} (kept : Keeps view act)
    (done : act m = .ok value m') : view m' = view m := by
  rw [← kept m, after_eq_of_ok done]

theorem bind {act : Action M W α} {next : α → Action M W β} (first : Keeps view act)
    (second : ∀ value, Keeps view (next value)) : Keeps view (act >>= next) := by
  intro m
  have kept := first m
  rw [after_bind]
  cases h : act m with
  | ok value m' =>
    rw [after_eq_of_ok h] at kept
    exact (second value m').trans kept
  | error fault m' =>
    rwa [after_eq_of_error h] at kept

theorem pure (value : α) : Keeps view (Pure.pure value : Action M W α) := fun _ => rfl

theorem get : Keeps view (MonadState.get : Action M W (Machine M W)) := fun _ => rfl

theorem settle (result : Except Fault α) : Keeps view (settle result) := by
  intro m
  cases result <;> rfl

theorem updateProcessor {f : Processor → Processor}
    (h : ∀ m : Machine M W, view { m with processor := f m.processor } = view m) :
    Keeps view (updateProcessor f) := h

theorem report {entry : Log.Entry}
    (h : ∀ (m : Machine M W) log, view { m with log } = view m) : Keeps view (report entry) :=
  fun m => h m _

theorem read [Memory M] {address : Nat}
    (h : ∀ (m : Machine M W) memory log, view { m with memory, log } = view m) :
    Keeps view (read address) :=
  fun m => (settle _ _).trans (h m _ _)

theorem write [Memory M] {address : Nat} {value : UInt8}
    (h : ∀ (m : Machine M W) memory log, view { m with memory, log } = view m) :
    Keeps view (write address value) :=
  fun m => (settle _ _).trans (h m _ _)

theorem toOutput {use : W → Except WriteError Unit × W}
    (h : ∀ (m : Machine M W) output, view { m with output } = view m) : Keeps view (toOutput use) :=
  fun m => (settle _ _).trans (h m _)

theorem print [Writer W] {text : String}
    (h : ∀ (m : Machine M W) output, view { m with output } = view m) : Keeps view (print text) :=
  toOutput h

theorem getRegister (i : UInt8) : Keeps view (getRegister (M := M) (W := W) i) :=
  fun m => settle (m.processor.registers.read i) m

theorem setRegister {i value : UInt8}
    (h : ∀ (m : Machine M W) r,
      view { m with processor := m.processor.setRegister r value } = view m) :
    Keeps view (setRegister i value) :=
  bind (settle _) fun r => updateProcessor fun m => h m r

theorem push [Memory M] {value : UInt8}
    (h : ∀ (m : Machine M W) top,
      view { m with processor := m.processor.setRegister Registers.stackPointer top } = view m)
    (writes : ∀ address, Keeps view (Machine.write address value)) : Keeps view (push value) :=
  bind get fun _ => bind (updateProcessor fun m => h m _) fun _ => writes _

theorem pop [Memory M]
    (h : ∀ (m : Machine M W) top,
      view { m with processor := m.processor.setRegister Registers.stackPointer top } = view m)
    (reads : ∀ address, Keeps view (Machine.read address)) : Keeps view (pop (M := M) (W := W)) :=
  bind get fun _ => bind (reads _) fun _ => bind (updateProcessor fun m => h m _) fun _ => pure _

end Keeps

end ByteMachine.Machine
