import ByteMachine.Machine.Run
import ByteMachine.Proofs.Alike
import ByteMachine.Proofs.Output

/-!
# Runs as sequences of rounds

A loop that repeats an action until the machine halts goes through successful rounds up to one that
halts or faults. What is recorded about an execution, its log and its diagnostics, does not
influence how a step or a run goes on.
-/

namespace ByteMachine.Machine

variable {M N W α : Type}

/-- `count` rounds of an action succeed one after the other, and none of them halts the machine. -/
inductive Rounds (act : Action M W α) : Nat → Machine M W → Machine M W → Prop where
  | refl (m) : Rounds act 0 m m
  | cons {count m m₁ m' value} :
      act m = .ok value m₁ → m₁.processor.state ≠ .halted → Rounds act count m₁ m' →
      Rounds act (count + 1) m m'

namespace Rounds

variable {act : Action M W α}

theorem trans {first second : Nat} {m m₁ m' : Machine M W} (begun : Rounds act first m m₁)
    (rest : Rounds act second m₁ m') : Rounds act (first + second) m m' := by
  induction begun with
  | refl => simpa using rest
  | cons acted running _ inductionHypothesis =>
    rw [Nat.add_right_comm]
    exact .cons acted running (inductionHypothesis rest)

/-- What comes later in a loop is reached from what comes earlier. -/
theorem rest {first later : Nat} {m m₁ m₂ : Machine M W} (begun : Rounds act first m m₁)
    (whole : Rounds act (first + later) m m₂) : Rounds act later m₁ m₂ := by
  induction begun with
  | refl => rwa [Nat.zero_add] at whole
  | cons acted _ _ inductionHypothesis =>
    rw [Nat.add_right_comm] at whole
    cases whole with
    | cons acted' _ onwards =>
      cases acted'.symm.trans acted
      exact inductionHypothesis onwards

/-- What holds at the start and is kept by every successful round holds between all of them. -/
theorem invariant {P : Machine M W → Prop} {count : Nat} {m m' : Machine M W}
    (rounds : Rounds act count m m')
    (kept : ∀ m m' value, P m → act m = .ok value m' → m'.processor.state ≠ .halted → P m')
    (start : P m) : P m' := by
  induction rounds with
  | refl => exact start
  | cons acted running _ inductionHypothesis =>
    exact inductionHypothesis (kept _ _ _ start acted running)

end Rounds

theorem untilHalted_of_rounds {act : Action M W α} {count : Nat} {m m' : Machine M W}
    (rounds : Rounds act count m m') : untilHalted act m = untilHalted act m' := by
  induction rounds with
  | refl => rfl
  | cons acted running _ inductionHypothesis =>
    rw [untilHalted_of_running acted running, inductionHypothesis]

/-- The last round of a loop. -/
theorem Ends.of_last {act : Action M W α} {m : Machine M W}
    (last : ∀ value final, act m = .ok value final → final.processor.state = .halted) :
    Ends act m := by
  cases acted : act m with
  | ok value final => exact .halted acted (last value final acted)
  | error fault final => exact .faulted acted

/-- A loop ends if it does from any machine on its way. -/
theorem Rounds.ends_iff {act : Action M W α} {count : Nat} {m m' : Machine M W}
    (rounds : Rounds act count m m') : Ends act m ↔ Ends act m' := by
  induction rounds with
  | refl => exact Iff.rfl
  | cons acted running _ inductionHypothesis =>
    rw [← inductionHypothesis]
    refine ⟨fun ends => ?_, .running acted running⟩
    cases ends with
    | faulted failed => cases failed.symm.trans acted
    | halted acted' halted =>
      cases acted'.symm.trans acted
      exact absurd halted running
    | running acted' _ later =>
      cases acted'.symm.trans acted
      exact later

/-- A loop ends with the first round that faults or halts the machine. -/
theorem untilHalted_cases {act : Action M W α} {m : Machine M W} (ends : Ends act m) :
    ∃ count last, Rounds act count m last ∧
      ((∃ fault final, act last = .error fault final ∧
          untilHalted act m = .error fault final) ∨
        ∃ value final, act last = .ok value final ∧ final.processor.state = .halted ∧
          untilHalted act m = .ok () final) := by
  induction ends with
  | @faulted m m' fault acted =>
    exact ⟨0, m, .refl m, .inl ⟨fault, m', acted, untilHalted_of_error acted⟩⟩
  | @halted m m' value acted halted =>
    exact ⟨0, m, .refl m, .inr ⟨value, m', acted, halted, untilHalted_of_halted acted halted⟩⟩
  | running acted running _ inductionHypothesis =>
    obtain ⟨count, last, rounds, ended⟩ := inductionHypothesis
    rw [← untilHalted_of_running acted running] at ended
    exact ⟨count + 1, last, .cons acted running rounds, ended⟩

/-- A loop that ends gets to a last round, from which it halts the machine or faults. -/
theorem exists_last_round {act : Action M W α} {m : Machine M W} (ends : Ends act m) :
    ∃ count last, Rounds act count m last ∧
      ∀ value final, act last = .ok value final → final.processor.state = .halted := by
  obtain ⟨count, last, rounds, ended⟩ := untilHalted_cases ends
  refine ⟨count, last, rounds, ?_⟩
  intro value final acted
  rcases ended with ⟨fault, _, failed, -⟩ | ⟨_, _, acted', halted, -⟩
  · cases failed.symm.trans acted
  · cases acted'.symm.trans acted
    exact halted

/-- The last round ends a loop. -/
theorem after_untilHalted {act : Action M W α} {count : Nat} {m last : Machine M W}
    (rounds : Rounds act count m last)
    (ends : ∀ value final, act last = .ok value final → final.processor.state = .halted) :
    after (untilHalted act) m = after act last := by
  have looped := untilHalted_of_rounds rounds
  cases acted : act last with
  | ok value final =>
    rw [untilHalted_of_halted acted (ends _ _ acted)] at looped
    exact (after_eq_of_ok looped).trans (after_eq_of_ok acted).symm
  | error fault final =>
    rw [untilHalted_of_error acted] at looped
    exact (after_eq_of_error looped).trans (after_eq_of_error acted).symm

section Alike

variable {R : Machine M W → Machine N W → Prop} {parted : Fault → Machine M W → Prop}
  {f : Action M W α} {g : Action N W α}

/-- From wherever the loop of `f` from `m` gets to, its rounds and those of `g` go alike. -/
def AlikeAlong (R : Machine M W → Machine N W → Prop) (parted : Fault → Machine M W → Prop)
    (f : Action M W α) (g : Action N W α) (m : Machine M W) : Prop :=
  ∀ count m' n', Rounds f count m m' → R m' n' → Matched R parted (f m') (g n')

theorem Alike.along (alike : Alike R parted f g) (m : Machine M W) : AlikeAlong R parted f g m :=
  fun _ _ _ _ related => alike related

theorem AlikeAlong.onwards {m m₁ : Machine M W} {value : α} (alike : AlikeAlong R parted f g m)
    (acted : f m = .ok value m₁) (running : m₁.processor.state ≠ .halted) :
    AlikeAlong R parted f g m₁ :=
  fun count m' n' rounds => alike (count + 1) m' n' (.cons acted running rounds)

theorem Rounds.along (agree : ∀ {m n}, R m n → m.processor.Agree n.processor) {count : Nat}
    {m m' : Machine M W} {n : Machine N W} (rounds : Rounds f count m m')
    (alike : AlikeAlong R parted f g m) (related : R m n) :
    ∃ n', Rounds g count n n' ∧ R m' n' := by
  induction rounds generalizing n with
  | refl => exact ⟨n, .refl n, related⟩
  | @cons _ m _ _ _ acted running _ inductionHypothesis =>
    have matched := alike 0 m n (.refl m) related
    rw [acted] at matched
    obtain ⟨n₁, acted', related'⟩ := matched.of_ok
    obtain ⟨n', rounds', related''⟩ := inductionHypothesis (alike.onwards acted running) related'
    exact ⟨n', .cons acted' ((agree related').2.2 ▸ running) rounds', related''⟩

theorem Rounds.transfer (agree : ∀ {m n}, R m n → m.processor.Agree n.processor)
    (alike : Alike R parted f g) {count : Nat} {m m' : Machine M W} {n : Machine N W}
    (rounds : Rounds f count m m') (related : R m n) : ∃ n', Rounds g count n n' ∧ R m' n' :=
  rounds.along agree (alike.along m) related

/-- Where no fault parts the loops, the second takes no rounds that the first does not. -/
theorem Rounds.backAlong (agree : ∀ {m n}, R m n → m.processor.Agree n.processor) {count : Nat}
    {m : Machine M W} {n n' : Machine N W} (rounds : Rounds g count n n')
    (alike : AlikeAlong R unparted f g m) (related : R m n) :
    ∃ m', Rounds f count m m' ∧ R m' n' := by
  induction rounds generalizing m with
  | refl => exact ⟨m, .refl m, related⟩
  | @cons _ n _ _ _ acted running _ inductionHypothesis =>
    have matched := alike 0 m n (.refl m) related
    rw [acted] at matched
    rcases matched.inv_unparted with ⟨_, m₁, _, acted', ⟨⟩, related'⟩ | ⟨_, _, _, -, ⟨⟩, -⟩
    have running' : m₁.processor.state ≠ .halted := (agree related').2.2 ▸ running
    obtain ⟨m', rounds', related''⟩ := inductionHypothesis (alike.onwards acted' running') related'
    exact ⟨m', .cons acted' running' rounds', related''⟩

/-- A round is the last one of a loop if the matching round is the last one of the other. -/
theorem Matched.last_iff (agree : ∀ {m n}, R m n → m.processor.Agree n.processor) {m : Machine M W}
    {n : Machine N W} (matched : Matched R unparted (f m) (g n)) :
    (∀ value final, f m = .ok value final → final.processor.state = .halted) ↔
      ∀ value final, g n = .ok value final → final.processor.state = .halted := by
  rcases matched.inv_unparted with ⟨_, m', n', acted, acted', related⟩ |
    ⟨_, _, _, failed, failed', -⟩
  · have state := (agree related).2.2
    simp [acted, acted', state]
  · simp [failed, failed']

/-- A loop ends if one that goes alike does. -/
theorem ends_iff_along (agree : ∀ {m n}, R m n → m.processor.Agree n.processor) {m : Machine M W}
    {n : Machine N W} (alike : AlikeAlong R unparted f g m) (related : R m n) :
    Ends f m ↔ Ends g n := by
  constructor
  · intro ends
    obtain ⟨count, last, rounds, ends⟩ := exists_last_round ends
    obtain ⟨last', rounds', related'⟩ := rounds.along agree alike related
    have matched := alike count last last' rounds related'
    exact rounds'.ends_iff.mpr (.of_last ((matched.last_iff agree).mp ends))
  · intro ends
    obtain ⟨count, last', rounds', ends⟩ := exists_last_round ends
    obtain ⟨last, rounds, related'⟩ := rounds'.backAlong agree alike related
    have matched := alike count last last' rounds related'
    exact rounds.ends_iff.mpr (.of_last ((matched.last_iff agree).mpr ends))

theorem Ends.transfer (agree : ∀ {m n}, R m n → m.processor.Agree n.processor)
    (alike : Alike R unparted f g) {m : Machine M W} {n : Machine N W} (ends : Ends f m)
    (related : R m n) : Ends g n :=
  (ends_iff_along agree (alike.along m) related).mp ends

/-- A loop that is only parted from one that ends by its own faults ends too. -/
theorem Ends.of_alike (agree : ∀ {m n}, R m n → m.processor.Agree n.processor)
    (alike : Alike R parted f g) {m : Machine M W} {n : Machine N W} (ends : Ends g n)
    (related : R m n) : Ends f m := by
  induction ends generalizing m with
  | faulted failed =>
    rcases (alike related).inv with ⟨_, _, _, -, acted', -⟩ | ⟨_, _, _, acted, -⟩ | ⟨_, _, acted, -⟩
    · cases failed.symm.trans acted'
    · exact .faulted acted
    · exact .faulted acted
  | halted acted' halted =>
    rcases (alike related).inv with ⟨_, _, _, acted, acted'', related'⟩ | ⟨_, _, _, acted, -⟩ |
      ⟨_, _, acted, -⟩
    · cases acted'.symm.trans acted''
      exact .halted acted ((agree related').2.2 ▸ halted)
    · exact .faulted acted
    · exact .faulted acted
  | running acted' running _ inductionHypothesis =>
    rcases (alike related).inv with ⟨_, _, _, acted, acted'', related'⟩ | ⟨_, _, _, acted, -⟩ |
      ⟨_, _, acted, -⟩
    · cases acted'.symm.trans acted''
      exact .running acted ((agree related').2.2 ▸ running) (inductionHypothesis related')
    · exact .faulted acted
    · exact .faulted acted

/-- Loops that get to their last rounds side by side end as these do. -/
theorem matched_untilHalted (agree : ∀ {m n}, R m n → m.processor.Agree n.processor)
    {count count' : Nat} {m last : Machine M W} {n last' : Machine N W}
    (rounds : Rounds f count m last) (rounds' : Rounds g count' n last')
    (ends : ∀ value final, f last = .ok value final → final.processor.state = .halted)
    (matched : Matched R parted (f last) (g last')) :
    Matched R parted (untilHalted f m) (untilHalted g n) := by
  rw [untilHalted_of_rounds rounds, untilHalted_of_rounds rounds']
  rcases matched.inv with ⟨value, final, final', acted, acted', related⟩ |
    ⟨fault, final, final', acted, acted', related⟩ | ⟨fault, final, acted, apart⟩
  · have halted := ends value final acted
    rw [untilHalted_of_halted acted halted,
      untilHalted_of_halted acted' ((agree related).2.2 ▸ halted)]
    exact .ok related
  · rw [untilHalted_of_error acted, untilHalted_of_error acted']
    exact .error related
  · rw [untilHalted_of_error acted]
    exact .parted apart

/-- Loops go alike if their rounds do and they end. -/
theorem matched_untilHalted_along (agree : ∀ {m n}, R m n → m.processor.Agree n.processor)
    {m : Machine M W} {n : Machine N W} (alike : AlikeAlong R parted f g m) (ends : Ends f m)
    (related : R m n) : Matched R parted (untilHalted f m) (untilHalted g n) := by
  obtain ⟨count, last, rounds, ends⟩ := exists_last_round ends
  obtain ⟨last', rounds', related'⟩ := rounds.along agree alike related
  exact matched_untilHalted agree rounds rounds' ends (alike count last last' rounds related')

theorem alike_untilHalted (agree : ∀ {m n}, R m n → m.processor.Agree n.processor)
    (alike : Alike R parted f g) {m : Machine M W} {n : Machine N W} (ends : Ends f m)
    (related : R m n) : Matched R parted (untilHalted f m) (untilHalted g n) :=
  matched_untilHalted_along agree (alike.along m) ends related

end Alike

/-- The machine after so many steps, whatever each of them ends with. -/
def stepped [Memory M] [Writer W] (comparison : Comparison) : Nat → Machine M W → Machine M W
  | 0, m => m
  | count + 1, m => after (step comparison) (stepped comparison count m)

/-- The run from `m` comes to a step from `m'`. -/
def Reaches [Memory M] [Writer W] (comparison : Comparison) (m m' : Machine M W) : Prop :=
  m.processor.state ≠ .halted ∧ ∃ count, Rounds (step comparison) count m m'

/-- Two machines that differ at most in what is recorded about their execution. -/
def Coincide (m n : Machine M W) : Prop :=
  m.processor = n.processor ∧ m.memory = n.memory ∧ m.output = n.output

namespace Coincide

theorem refl (m : Machine M W) : Coincide m m := ⟨rfl, rfl, rfl⟩

theorem symm {m n : Machine M W} (same : Coincide m n) : Coincide n m :=
  ⟨same.1.symm, same.2.1.symm, same.2.2.symm⟩

theorem trans {m n o : Machine M W} (first : Coincide m n) (second : Coincide n o) : Coincide m o :=
  ⟨first.1.trans second.1, first.2.1.trans second.2.1, first.2.2.trans second.2.2⟩

theorem agree {m n : Machine M W} (same : Coincide m n) : m.processor.Agree n.processor := by
  rw [same.1]
  exact ⟨rfl, rfl, rfl⟩

variable [Memory M]

theorem alike_read (address : Nat) :
    Alike (Coincide (M := M) (W := W)) unparted (read address) (read address) := by
  rintro ⟨p, memory, output, _, log⟩ ⟨_, _, _, _, log'⟩ ⟨rfl, rfl, rfl⟩
  exact Alike.settle _ ⟨rfl, rfl, rfl⟩

theorem alike_write (address : Nat) (value : UInt8) :
    Alike (Coincide (M := M) (W := W)) unparted (write address value) (write address value) := by
  rintro ⟨p, memory, output, _, log⟩ ⟨_, _, _, _, log'⟩ ⟨rfl, rfl, rfl⟩
  exact Alike.settle _ ⟨rfl, rfl, rfl⟩

variable [Writer W]

theorem simulation : Simulation (Coincide (M := M) (W := W)) unparted where
  agree := agree
  update {_ _ f} _ same := ⟨congrArg f same.1, same.2⟩
  log _ _ same := same
  read _ := alike_read _
  write _ _ := alike_write _ _
  print := Alike.print (·.2.2) fun _ same => ⟨same.1, same.2.1, rfl⟩
  parted_faulted _ never := never.elim

theorem alike_step (comparison : Comparison) :
    Alike (Coincide (M := M) (W := W)) unparted (step comparison) (step comparison) :=
  fun _ _ same => simulation.step comparison same (alike_read _)

end Coincide

/-- A pairing does not see what is recorded. -/
theorem Paired.unseen {P : Processor → Processor → Prop} {S : W → W → Prop}
    {m m' n n' : Machine M W} (first : Coincide m' m) (second : Coincide n' n)
    (related : Paired P S m n) : Paired P S m' n' := by
  obtain ⟨processors, memories, outputs⟩ := related
  refine ⟨?_, ?_, ?_⟩
  · rwa [first.1, second.1]
  · rw [first.2.1, second.2.1, memories]
  · rwa [first.2.2, second.2.2]

/-- Whole steps that succeed lead from `m` to `m'`, up to what is recorded. -/
def StepsTo [Memory M] [Writer W] (comparison : Comparison) (m m' : Machine M W) : Prop :=
  ∃ count last, Rounds (step comparison) count m last ∧ Coincide m' last

namespace StepsTo

variable [Memory M] [Writer W] {comparison : Comparison} {m n o : Machine M W}

theorem of_coincide (same : Coincide n m) : StepsTo comparison m n := ⟨0, m, .refl m, same⟩

theorem trans (begun : StepsTo comparison m n) (rest : StepsTo comparison n o) :
    StepsTo comparison m o := by
  obtain ⟨first, between, rounds, same⟩ := begun
  obtain ⟨second, last, rounds', same'⟩ := rest
  obtain ⟨last', rounds'', coincide⟩ :=
    rounds'.transfer Coincide.agree (Coincide.alike_step comparison) same
  exact ⟨first + second, last', rounds.trans rounds'', same'.trans coincide⟩

theorem running (steps : StepsTo comparison m n) (start : m.processor.state ≠ .halted) :
    n.processor.state ≠ .halted := by
  obtain ⟨count, last, rounds, same⟩ := steps
  rw [same.1]
  exact rounds.invariant (fun _ _ _ _ _ running => running) start

end StepsTo

/-- The same value or fault, on machines that coincide. -/
abbrev SameEnd (first second : EStateM.Result Fault (Machine M W) α) : Prop :=
  Matched Coincide unparted first second

theorem SameEnd.symm {first second : EStateM.Result Fault (Machine M W) α}
    (same : SameEnd first second) : SameEnd second first := by
  cases same with
  | ok coincide => exact .ok coincide.symm
  | error coincide => exact .error coincide.symm
  | parted never => exact never.elim

theorem SameEnd.trans {first second third : EStateM.Result Fault (Machine M W) α}
    (same : SameEnd first second) (same' : SameEnd second third) : SameEnd first third := by
  cases same with
  | ok coincide =>
    cases same' with
    | ok coincide' => exact .ok (coincide.trans coincide')
  | error coincide =>
    cases same' with
    | error coincide' => exact .error (coincide.trans coincide')
    | parted never => exact never.elim
  | parted never => exact never.elim

/-- Ends that are related stay so whatever was recorded on the way. -/
theorem Matched.of_sameEnd {R : Machine M W → Machine N W → Prop}
    (unseen : ∀ {m m' n n'}, Coincide m' m → Coincide n' n → R m n → R m' n')
    {first first' : EStateM.Result Fault (Machine M W) α}
    {second second' : EStateM.Result Fault (Machine N W) α}
    (ends : SameEnd first first') (ends' : SameEnd second second')
    (matched : Matched R unparted first' second') : Matched R unparted first second := by
  cases ends with
  | ok coincide =>
    cases matched with
    | ok related =>
      cases ends' with
      | ok coincide' => exact .ok (unseen coincide coincide' related)
      | parted never => exact never.elim
  | error coincide =>
    cases matched with
    | error related =>
      cases ends' with
      | error coincide' => exact .error (unseen coincide coincide' related)
      | parted never => exact never.elim
    | parted never => exact never.elim
  | parted never => exact never.elim

theorem SameEnd.eq_ok {act : Action M W α} {m final : Machine M W} {value : α}
    (same : SameEnd (act m) (.ok value final)) :
    ∃ m', act m = .ok value m' ∧ Coincide m' final := by
  obtain ⟨m', ended, coincide⟩ := same.symm.of_ok
  exact ⟨m', ended, coincide.symm⟩

theorem SameEnd.eq_error {act : Action M W α} {m final : Machine M W} {fault : Fault}
    (same : SameEnd (act m) (.error fault final)) :
    ∃ m', act m = .error fault m' ∧ Coincide m' final := by
  obtain ⟨m', ended, coincide⟩ := same.symm.of_error
  exact ⟨m', ended, coincide.symm⟩

theorem SameEnd.after_of_ok {act : Action M W α} {m final : Machine M W} {value : α}
    (same : SameEnd (act m) (.ok value final)) : Coincide (after act m) final := by
  obtain ⟨m', ended, coincide⟩ := same.eq_ok
  rwa [after_eq_of_ok ended]

theorem SameEnd.after_of_error {act : Action M W α} {m final : Machine M W} {fault : Fault}
    (same : SameEnd (act m) (.error fault final)) : Coincide (after act m) final := by
  obtain ⟨m', ended, coincide⟩ := same.eq_error
  rwa [after_eq_of_error ended]

theorem Coincide.ends_iff [Memory M] [Writer W] {comparison : Comparison} {m n : Machine M W}
    (same : Coincide m n) : Ends (step comparison) m ↔ Ends (step comparison) n :=
  ⟨fun ends => ends.transfer Coincide.agree (Coincide.alike_step comparison) same,
    fun ends => ends.transfer Coincide.agree (Coincide.alike_step comparison) same.symm⟩

theorem sameEnd_untilHalted [Memory M] [Writer W] {comparison : Comparison} {m n : Machine M W}
    (ends : Ends (step comparison) m) (same : Coincide m n) :
    SameEnd (untilHalted (step comparison) m) (untilHalted (step comparison) n) :=
  alike_untilHalted Coincide.agree (Coincide.alike_step comparison) ends same

/-- A loop ends as it does from any machine on its way. -/
theorem StepsTo.sameEnd_untilHalted [Memory M] [Writer W] {comparison : Comparison}
    {m n : Machine M W} (ends : Ends (step comparison) n) (steps : StepsTo comparison m n) :
    SameEnd (untilHalted (step comparison) n) (untilHalted (step comparison) m) := by
  obtain ⟨count, last, rounds, same⟩ := steps
  rw [untilHalted_of_rounds rounds]
  exact Machine.sameEnd_untilHalted ends same

theorem run_of_halted [Memory M] [Writer W] (comparison : Comparison) {m : Machine M W}
    (halted : m.processor.state = .halted) : run comparison m = .ok () m := by
  rw [run, if_pos halted]

/-- A run repeats steps; what it says about its start and its end is only recorded. -/
theorem sameEnd_run [Memory M] [Writer W] {comparison : Comparison} {m : Machine M W}
    (ends : Ends (step comparison) m) (running : m.processor.state ≠ .halted) :
    SameEnd (run comparison m) (untilHalted (step comparison) m) := by
  have logged : Coincide { m with log := m.log.push (Report.running m.processor.pc) } m :=
    ⟨rfl, rfl, rfl⟩
  have matched := sameEnd_untilHalted (logged.ends_iff.mpr ends) logged
  simp only [run, if_neg running]
  rcases matched.inv_unparted with ⟨_, _, _, ended, ended', same⟩ | ⟨_, _, _, ended, ended', same⟩
  · rw [ended, ended']
    exact .ok same
  · rw [ended, ended']
    exact .error same

/-- Runs end alike if their loops do, for machines whose relation does not see what is recorded. -/
theorem matched_run [Memory M] [Memory N] [Writer W] {R : Machine M W → Machine N W → Prop}
    {c c' : Comparison} {m : Machine M W} {n : Machine N W}
    (unseen : ∀ {m m' n n'}, Coincide m' m → Coincide n' n → R m n → R m' n')
    (ends : Ends (step c) m) (ends' : Ends (step c') n)
    (running : m.processor.state ≠ .halted) (running' : n.processor.state ≠ .halted)
    (matched : Matched R unparted (untilHalted (step c) m) (untilHalted (step c') n)) :
    Matched R unparted (run c m) (run c' n) :=
  .of_sameEnd unseen (sameEnd_run ends running) (sameEnd_run ends' running') matched

section Output

variable [Memory M] {comparison : Comparison} {count : Nat} {m m' : Machine M Sink}

end Output

section Attempt

variable {act : Action M W Executed} {m m' : Machine M W}

theorem attempt_ok {executed : Executed} (done : attempt act m = .ok executed m') :
    ∃ left, act { m with processor.state := .running } = .ok executed left ∧
      m' = { left with processor.executed := left.processor.executed + 1 } := by
  rw [attempt_apply] at done
  split at done
  · rename_i acted
    cases done
    exact ⟨_, acted, rfl⟩
  · cases done

theorem attempt_error {fault : Fault} (failed : attempt act m = .error fault m') :
    ∃ left, act { m with processor.state := .running } = .error fault left ∧
      Coincide m' { left with processor.state := .faulted } := by
  rw [attempt_apply] at failed
  split at failed
  · cases failed
  · rename_i acted
    cases failed
    exact ⟨_, acted, rfl, rfl, rfl⟩

section Count

variable [Memory M] [Writer W] {comparison : Comparison}

theorem state_of_step_error {fault : Fault}
    (failed : step comparison m = .error fault m') : m'.processor.state = .faulted := by
  obtain ⟨left, -, coincide⟩ := attempt_error failed
  rw [coincide.1]

theorem pc_of_execute_error {fetched : Fetched} {fault : Fault}
    (failed : execute comparison fetched m = .error fault m') :
    m'.processor.pc = m.processor.pc := by
  cases decoded : Opcode.ofByte? fetched.opcode with
  | none => cases (execute_of_unknown decoded comparison m).symm.trans failed
  | some opcode =>
    have control := keeps_control_perform comparison opcode fetched.a fetched.b
      { m with log := m.log.push (Report.decoded m.processor.pc opcode fetched.a fetched.b) }
    rw [execute_of_known decoded] at failed
    split at failed
    · rename_i performed
      cases failed
      rw [after_eq_of_error performed] at control
      exact (Prod.mk.inj control).1
    · cases failed

theorem pc_of_step_error {fault : Fault} (failed : step comparison m = .error fault m') :
    m'.processor.pc = m.processor.pc := by
  obtain ⟨left, acted, coincide⟩ := attempt_error failed
  have fetched := keeps_processor_fetch { m with processor.state := .running }
  have kept : left.processor.pc = m.processor.pc := by
    rcases bind_eq_error_iff.mp acted with refused | ⟨_, between, fetches, fails⟩
    · rw [after_eq_of_error refused] at fetched
      rw [fetched]
    · rw [after_eq_of_ok fetches] at fetched
      rw [pc_of_execute_error fails, fetched]
  rw [coincide.1, ← kept]

theorem keeps_executed_execute (comparison : Comparison) (fetched : Fetched) :
    Keeps (M := M) (W := W) (·.processor.executed) (execute comparison fetched) :=
  Keeps.execute comparison fetched (fun _ _ => rfl) (fun _ _ => rfl) fun opcode _ m =>
    (Prod.mk.inj (keeps_control_perform comparison opcode fetched.a fetched.b m)).2

/-- A step that succeeds is counted, a step that faults is not. -/
theorem executed_after_step (comparison : Comparison) (m : Machine M W) :
    (after (step comparison) m).processor.executed =
      m.processor.executed + (outcome (step comparison) m).isOk.toNat := by
  have kept : Keeps (M := M) (W := W) (·.processor.executed) (do execute comparison (← fetch)) :=
    Keeps.bind (Keeps.fetch fun _ => Keeps.read fun _ _ _ => rfl) fun _ =>
      keeps_executed_execute comparison _
  have kept' := kept { m with processor.state := .running }
  cases stepped : step comparison m with
  | ok executed m' =>
    obtain ⟨left, acted, rfl⟩ := attempt_ok stepped
    rw [after_eq_of_ok acted] at kept'
    rw [after_eq_of_ok stepped, outcome_eq_of_ok stepped]
    exact congrArg (· + 1) kept'
  | error fault m' =>
    obtain ⟨left, acted, same⟩ := attempt_error stepped
    rw [after_eq_of_error acted] at kept'
    rw [after_eq_of_error stepped, outcome_eq_of_error stepped, same.1]
    exact kept'

end Count

end Attempt

end ByteMachine.Machine
