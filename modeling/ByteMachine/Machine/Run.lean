import ByteMachine.Machine.Step

/-!
# Runs

A run repeats an action until the machine halts or the action faults. On memories that have cells at
all addresses it may go on for ever, round and round; then nothing is known of its result.
-/

namespace ByteMachine.Machine

variable {M W α : Type}

/-- Repeat an action, at least once, until the machine halts. -/
def untilHalted (act : Action M W α) (m : Machine M W) : EStateM.Result Fault (Machine M W) Unit :=
  match act m with
  | .error fault m' => .error fault m'
  | .ok _ m' => if m'.processor.state = .halted then .ok () m' else m' |>.untilHalted act
partial_fixpoint

/-- After finitely many rounds an action halts the machine or faults. -/
inductive Ends (act : Action M W α) : Machine M W → Prop where
  | faulted {m m' fault} : act m = .error fault m' → Ends act m
  | halted {m m' value} : act m = .ok value m' → m'.processor.state = .halted → Ends act m
  | running {m m' value} : act m = .ok value m' → m'.processor.state ≠ .halted → Ends act m' →
      Ends act m

theorem untilHalted_of_error {act : Action M W α} {m m' : Machine M W} {fault : Fault}
    (h : act m = .error fault m') : untilHalted act m = .error fault m' := by
  rw [untilHalted, h]

theorem untilHalted_of_halted {act : Action M W α} {m m' : Machine M W} {value : α}
    (h : act m = .ok value m') (halted : m'.processor.state = .halted) :
    untilHalted act m = .ok () m' := by
  rw [untilHalted, h]
  exact if_pos halted

theorem untilHalted_of_running {act : Action M W α} {m m' : Machine M W} {value : α}
    (h : act m = .ok value m') (running : m'.processor.state ≠ .halted) :
    untilHalted act m = untilHalted act m' := by
  conv => lhs; rw [untilHalted, h]
  exact if_neg running

/-- A loop goes by its first round. -/
theorem untilHalted_congr {act : Action M W α} {m n : Machine M W} (same : act m = act n) :
    untilHalted act m = untilHalted act n := by
  rw [untilHalted, untilHalted, same]

/-- Step until the machine halts. A machine that has halted stays as it is. -/
def run [Memory M] [Writer W] (comparison : Comparison) : Action M W Unit := fun m =>
  if m.processor.state = .halted then .ok () m
  else
    match untilHalted (step comparison)
        { m with log := m.log.push (Report.running m.processor.pc) } with
    | .error fault m => .error fault m
    | .ok _ m =>
      .ok () { m with log := m.log.push (Report.halted m.processor.pc m.processor.executed) }

end ByteMachine.Machine
