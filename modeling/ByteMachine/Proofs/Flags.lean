import ByteMachine.Proofs.Confinement
import ByteMachine.Proofs.Operands

/-!
# The flags

Comparisons write the flags and nothing reads them, so what a comparison compares shows in the flags
alone, and in which of its operands have to name registers. Main statement: machines that compare
contents and indices go the same way up to the first comparison of something that is no register.
-/

namespace ByteMachine

/-- The first operand that names no register. -/
def Fetched.firstUnnamed? (fetched : Fetched) : Option UInt8 :=
  if registerCount ≤ fetched.a.toNat then some fetched.a
  else if registerCount ≤ fetched.b.toNat then some fetched.b
  else none

namespace Alu

variable {fetched : Fetched} {operand : UInt8}

theorem operands_of_unnamed (unnamed : fetched.firstUnnamed? = some operand)
    (registers : Registers) :
    operands registers fetched.a fetched.b = .error (.register operand) := by
  unfold Fetched.firstUnnamed? at unnamed
  apply operands_eq_error_iff.mpr
  split at unnamed
  · rename_i outside
    cases unnamed
    exact .inl ⟨outside, rfl⟩
  · rename_i inside
    split at unnamed
    · rename_i outside
      cases unnamed
      exact .inr ⟨Nat.not_le.mp inside, outside, rfl⟩
    · cases unnamed

theorem operands_of_named (named : fetched.firstUnnamed? = none) (registers : Registers) :
    ∃ values, operands registers fetched.a fetched.b = .ok values := by
  unfold Fetched.firstUnnamed? at named
  split at named
  · cases named
  · rename_i first
    split at named
    · cases named
    · rename_i second
      let r : RegisterIndex := ⟨fetched.a.toNat, Nat.not_le.mp first⟩
      let t : RegisterIndex := ⟨fetched.b.toNat, Nat.not_le.mp second⟩
      exact ⟨(r, registers.get r, registers.get t),
        operands_eq_ok_iff.mpr ⟨rfl, rfl, t, rfl, rfl⟩⟩

/-- A comparison of contents checks that its operands name registers, one of indices does not. -/
theorem evaluate_cmp_contents_of_named (named : fetched.firstUnnamed? = none)
    (registers : Registers) :
    ∃ flags, evaluate .contents .cmp fetched.a fetched.b registers = .ok (.flags flags) := by
  obtain ⟨values, found⟩ := operands_of_named named registers
  simp only [evaluate, comparands, found]
  exact ⟨_, rfl⟩

theorem evaluate_cmp_contents_of_unnamed (unnamed : fetched.firstUnnamed? = some operand)
    (registers : Registers) :
    evaluate .contents .cmp fetched.a fetched.b registers = .error (.register operand) := by
  simp only [evaluate, comparands, operands_of_unnamed unnamed]
  rfl

theorem evaluate_cmp_indices (a b : UInt8) (registers : Registers) :
    evaluate .indices .cmp a b registers = .ok (.flags (Flags.ofComparison a b)) := rfl

end Alu

namespace Machine

variable {M W : Type}

/-- The two machines differ at most in flags, in counts and in what is recorded. -/
abbrev AgreeButFlags (m n : Machine M W) : Prop := Paired Processor.Agree Eq m n

/-- What `m` and `n` have become, which agree but for flags, and whose counts of executed
instructions have grown by the same. -/
structure Abreast (m n m' n' : Machine M W) : Prop where
  agree : AgreeButFlags m' n'
  counts : ∃ gain, m'.processor.executed = m.processor.executed + gain ∧
    n'.processor.executed = n.processor.executed + gain

theorem Abreast.refl {m n : Machine M W} (same : AgreeButFlags m n) : Abreast m n m n :=
  ⟨same, 0, rfl, rfl⟩

theorem Abreast.unseen {m n m₁ m₂ n₁ n₂ : Machine M W} (first : Coincide m₂ m₁)
    (second : Coincide n₂ n₁) (abreast : Abreast m n m₁ n₁) : Abreast m n m₂ n₂ := by
  refine ⟨abreast.agree.unseen first second, ?_⟩
  rw [first.1, second.1]
  exact abreast.counts

variable [Memory M] [Writer W] {comparison : Comparison} {m n m' n' : Machine M W} {operand : UInt8}

/-- The next step compares, and `operand` is the first of its operands that names no register. -/
def ComparesUnnamed (m : Machine M W) (operand : UInt8) : Prop :=
  ∃ fetched, outcome fetch m = .ok fetched ∧ fetched.opcode = (Opcode.alu .cmp).byte ∧
    fetched.firstUnnamed? = some operand

/-- The machine that compares contents faults here, the other one passes on. -/
structure PartAt (m n : Machine M W) (operand : UInt8) : Prop where
  faults : outcome (step .contents) m = .error (.register operand)
  passes : outcome (step .indices) n = .ok (.instruction (.alu .cmp))
  advances : (after (step .indices) n).processor.pc = (n.processor.pc + 3) % addressSpace
  /-- Only a sum past sixteen bits can stop it. -/
  overruns : n.Overruns .indices ↔ addressSpace ≤ n.processor.pc + 3

theorem AgreeButFlags.simulation : Simulation (AgreeButFlags (M := M) (W := W)) unparted :=
  Paired.simulation id (fun respects agree => respects _ _ agree)
    (Alike.print (·.output) fun _ same => { same with output := rfl }) (fun _ never => never.elim)

theorem perform_alike (comparison comparison' : Comparison) {opcode : Opcode}
    (other : opcode ≠ .alu .cmp) (a b : UInt8) :
    perform (M := M) (W := W) comparison opcode a b = perform comparison' opcode a b := by
  cases opcode with
  | alu operation =>
    cases operation with
    | cmp => exact absurd rfl other
    | add | sub | mul | div => rfl
  | hlt | ldi | prn | push | pop => rfl

/-- The one instruction that depends on what is compared writes the flags, if it does not fault. -/
theorem alike_perform_of_named {fetched : Fetched} {opcode : Opcode}
    (named : opcode = .alu .cmp → fetched.firstUnnamed? = none) :
    Alike (AgreeButFlags (M := M) (W := W)) unparted (perform .contents opcode fetched.a fetched.b)
      (perform .indices opcode fetched.a fetched.b) := by
  by_cases compares : opcode = .alu .cmp
  · subst compares
    intro m n same
    obtain ⟨flags, evaluated⟩ :=
      Alu.evaluate_cmp_contents_of_named (named rfl) m.processor.registers
    rw [perform_alu, perform_alu, evaluated, Alu.evaluate_cmp_indices]
    exact .ok ⟨same.processor, same.memory, same.output⟩
  · rw [perform_alike .contents .indices compares]
    exact AgreeButFlags.simulation.perform .indices opcode _ _

theorem matched_step_of_named (same : AgreeButFlags m n)
    (named : ∀ operand, ¬ComparesUnnamed m operand) :
    Matched AgreeButFlags unparted (step .contents m) (step .indices n) := by
  apply AgreeButFlags.simulation.attempt_of_running same
  intro started
  have fetches : Matched AgreeButFlags unparted (fetch { m with processor.state := .running })
      (fetch { n with processor.state := .running }) :=
    Paired.alike_fetch (fun agree => agree.1) started
  have found := outcome_fetch_running m
  simp only [bind, EStateM.bind]
  rcases fetches.inv_unparted with ⟨fetched, m₁, n₁, fetching, fetching', same'⟩ |
    ⟨fault, m₁, n₁, fetching, fetching', same'⟩
  · rw [outcome_eq_of_ok fetching] at found
    rw [fetching, fetching']
    refine AgreeButFlags.simulation.execute_of_perform rfl (fun opcode decoded => ?_) same'
    apply alike_perform_of_named
    rintro rfl
    cases unnamed : fetched.firstUnnamed? with
    | none => rfl
    | some operand =>
      have compares := (Opcode.ofByte?_eq_some_iff.mp decoded).symm
      exact absurd ⟨fetched, found.symm, compares, unnamed⟩ (named operand)
  · rw [fetching, fetching']
    exact .error same'

/-- A step executes what it has fetched. -/
theorem step_of_fetch (comparison : Comparison) {fetched : Fetched} {m m₁ : Machine M W}
    (fetching : fetch { m with processor.state := .running } = .ok fetched m₁) :
    step comparison m =
      match execute comparison fetched m₁ with
      | .ok executed left =>
        .ok executed { left with processor.executed := left.processor.executed + 1 }
      | .error fault left =>
        .error fault { left with
          processor.state := .faulted
          log := left.log.push (Report.faulted left.processor.pc fault) } := by
  have executes : (fetch >>= execute comparison) { m with processor.state := .running } =
      execute comparison fetched m₁ := by
    simp only [bind, EStateM.bind, fetching]
  exact (attempt_congr (g := fun _ => execute comparison fetched m₁) executes).trans
    (attempt_apply _ m)

theorem faults_of_unnamed (unnamed : ComparesUnnamed m operand) :
    outcome (step .contents) m = .error (.register operand) := by
  obtain ⟨fetched, found, compares, unnamed⟩ := unnamed
  have decoded := Opcode.ofByte?_eq_some_iff.mpr compares.symm
  rw [← outcome_fetch_running] at found
  cases fetching : fetch { m with processor.state := .running } with
  | ok fetched' m₁ =>
    cases (outcome_eq_of_ok fetching).symm.trans found
    rw [outcome, step_of_fetch .contents fetching, execute_of_known decoded, perform_alu,
      Alu.evaluate_cmp_contents_of_unnamed unnamed]
    rfl
  | error fault m₁ => cases (outcome_eq_of_error fetching).symm.trans found

theorem passes_of_unnamed (unnamed : ComparesUnnamed m operand) :
    ∃ left, step .indices m = .ok (.instruction (.alu .cmp)) left := by
  obtain ⟨fetched, found, compares, -⟩ := unnamed
  have decoded := Opcode.ofByte?_eq_some_iff.mpr compares.symm
  rw [← outcome_fetch_running] at found
  cases fetching : fetch { m with processor.state := .running } with
  | ok fetched' m₁ =>
    cases (outcome_eq_of_ok fetching).symm.trans found
    rw [step_of_fetch .indices fetching, execute_of_known decoded, perform_alu,
      Alu.evaluate_cmp_indices]
    exact ⟨_, rfl⟩
  | error fault m₁ => cases (outcome_eq_of_error fetching).symm.trans found

theorem PartAt.of_unnamed (same : AgreeButFlags m n) (unnamed : ComparesUnnamed m operand) :
    PartAt m n operand := by
  have unnamed' : ComparesUnnamed n operand := by
    rwa [ComparesUnnamed, ← outcome_fetch_congr same.processor.1 same.memory]
  obtain ⟨left, passed⟩ := passes_of_unnamed unnamed'
  constructor
  case faults => exact faults_of_unnamed unnamed
  case passes => exact outcome_eq_of_ok passed
  case advances =>
    rw [after_eq_of_ok passed]
    exact pc_of_step passed nofun
  case overruns =>
    simp only [Overruns, passed]
    exact ⟨fun overflow => overflow.2, fun beyond => ⟨nofun, beyond⟩⟩

section Abreast

variable {o p : Machine M W} {parted : Fault → Machine M W → Prop}

/-- Steps with the same outcome count the same. -/
theorem matched_abreast {c c' : Comparison} (abreast : Abreast o p m n)
    (matched : Matched AgreeButFlags unparted (step c m) (step c' n)) :
    Matched (Abreast o p) unparted (step c m) (step c' n) := by
  obtain ⟨gain, counted, counted'⟩ := abreast.counts
  have first := executed_after_step c m
  have second := executed_after_step c' n
  rw [← matched.outcome_eq, counted', Nat.add_assoc] at second
  rw [counted, Nat.add_assoc] at first
  have counts : ∃ gain,
      (after (step c) m).processor.executed = o.processor.executed + gain ∧
      (after (step c') n).processor.executed = p.processor.executed + gain := ⟨_, first, second⟩
  rcases matched.inv_unparted with ⟨value, m', n', stepped, stepped', same⟩ |
    ⟨fault, m', n', stepped, stepped', same⟩
  · rw [after_eq_of_ok stepped, after_eq_of_ok stepped'] at counts
    rw [stepped, stepped']
    exact .ok ⟨same, counts⟩
  · rw [after_eq_of_error stepped, after_eq_of_error stepped'] at counts
    rw [stepped, stepped']
    exact .error ⟨same, counts⟩

theorem alike_step_abreast (comparison : Comparison) :
    Alike (Abreast o p) unparted (step comparison) (step comparison) := by
  intro m n abreast
  apply matched_abreast abreast
  exact AgreeButFlags.simulation.step comparison abreast.agree (Paired.alike_read _)

theorem matched_step_abreast (abreast : Abreast o p m n)
    (named : ∀ operand, ¬ComparesUnnamed m operand) :
    Matched (Abreast o p) unparted (step .contents m) (step .indices n) :=
  matched_abreast abreast (matched_step_of_named abreast.agree named)

/-- Comparing contents goes like comparing indices, or parts from it over a missing register. -/
theorem alike_step_parting :
    Alike (Abreast o p) (fun fault _ => ∃ operand, fault = .register operand) (step .contents)
      (step .indices) := by
  intro m n abreast
  by_cases named : ∀ operand, ¬ComparesUnnamed m operand
  · exact (matched_step_abreast abreast named).imp id fun never => never.elim
  · obtain ⟨operand, unnamed⟩ := Classical.not_forall_not.mp named
    have faults := faults_of_unnamed unnamed
    cases stepped : step .contents m with
    | ok value m' => cases (outcome_eq_of_ok stepped).symm.trans faults
    | error fault m' =>
      cases (outcome_eq_of_error stepped).symm.trans faults
      exact .parted ⟨operand, rfl⟩

theorem stepped_abreast (same : AgreeButFlags m n) {count : Nat}
    (named : ∀ earlier < count, ∀ operand, ¬ComparesUnnamed (stepped .contents earlier m) operand) :
    Abreast m n (stepped .contents count m) (stepped .indices count n) := by
  induction count with
  | zero => exact .refl same
  | succ count inductionHypothesis =>
    have abreast := inductionHypothesis fun earlier before => named earlier (by omega)
    exact (matched_step_abreast abreast (named count (Nat.lt_succ_self count))).after

theorem stepped_abreast_alike (comparison : Comparison) (same : AgreeButFlags m n) (count : Nat) :
    Abreast m n (stepped comparison count m) (stepped comparison count n) := by
  induction count with
  | zero => exact .refl same
  | succ count inductionHypothesis =>
    exact (alike_step_abreast comparison inductionHypothesis).after

/-- Two runs end abreast if they have halted before they start, or if their loops do. -/
theorem matched_run_abreast {c c' : Comparison} (same : AgreeButFlags m n)
    (ends : m.processor.state ≠ .halted → Ends (step c) m)
    (ends' : n.processor.state ≠ .halted → Ends (step c') n)
    (loops : m.processor.state ≠ .halted →
      Matched (Abreast m n) unparted (untilHalted (step c) m) (untilHalted (step c') n)) :
    Matched (Abreast m n) unparted (run c m) (run c' n) := by
  have state := same.processor.2.2
  by_cases halted : m.processor.state = .halted
  · rw [run_of_halted c halted, run_of_halted c' (state ▸ halted)]
    exact .ok (.refl same)
  · have halted' : n.processor.state ≠ .halted := state ▸ halted
    exact matched_run Abreast.unseen (ends halted) (ends' halted') halted halted' (loops halted)

theorem rounds_abreast (same : AgreeButFlags m n) {count : Nat}
    (rounds : Rounds (step .contents) count m m') :
    ∃ n', Rounds (step .indices) count n n' ∧ Abreast m n m' n' :=
  rounds.transfer (fun abreast => abreast.agree.processor) alike_step_parting (.refl same)

theorem alikeAlong_of_named (named : ∀ m' operand, Reaches .contents m m' →
    ¬ComparesUnnamed m' operand) (running : m.processor.state ≠ .halted) :
    AlikeAlong (Abreast o p) unparted (step .contents) (step .indices) m :=
  fun count m' _ rounds abreast =>
    matched_step_abreast abreast fun operand => named m' operand ⟨running, count, rounds⟩

omit [Memory M] [Writer W] in
theorem agree_of_abreast {m n : Machine M W} (abreast : Abreast o p m n) :
    m.processor.Agree n.processor := abreast.agree.processor

end Abreast

/-- What becomes of two machines, one of which compares contents and the other indices, in either
kind of build. -/
structure PartOnlyAtUnnamed (overflow : Overflow) (m n : Machine M W) : Prop where
  /-- They stay abreast, and their steps end alike, until something is compared that is no
  register. -/
  steps (count : Nat) :
    (∀ earlier < count, ∀ operand, ¬ComparesUnnamed (stepped .contents earlier m) operand) →
      Abreast m n (stepped .contents count m) (stepped .indices count n) ∧
        ∀ earlier < count,
          outcome (step .contents) (stepped .contents earlier m) =
            outcome (step .indices) (stepped .indices earlier n) ∧
          ((stepped .contents earlier m).Completes overflow .contents ↔
            (stepped .indices earlier n).Completes overflow .indices)
  steps_part (count : Nat) (operand : UInt8) :
    (∀ earlier < count, ∀ other, ¬ComparesUnnamed (stepped .contents earlier m) other) →
      ComparesUnnamed (stepped .contents count m) operand →
        PartAt (stepped .contents count m) (stepped .indices count n) operand
  /-- So do their runs, if none of their steps compares such a thing. -/
  runs : (∀ m' operand, Reaches .contents m m' → ¬ComparesUnnamed m' operand) →
    (m.RunCompletes overflow .contents ↔ n.RunCompletes overflow .indices) ∧
      (m.RunCompletes overflow .contents →
        Matched (Abreast m n) unparted (run .contents m) (run .indices n))
  /-- Otherwise the run on contents ends there, and the other one goes on. -/
  runs_part (m' : Machine M W) (operand : UInt8) :
    Reaches .contents m m' → ComparesUnnamed m' operand →
      outcome (run .contents) m = .error (.register operand) ∧
        ∃ n', Reaches .indices n n' ∧ Abreast m n m' n' ∧ PartAt m' n' operand
  /-- Whatever is compared, the flags at the start show in flags only. -/
  flags_inert (comparison : Comparison) :
    (m.RunCompletes overflow comparison ↔ n.RunCompletes overflow comparison) ∧
      (m.RunCompletes overflow comparison →
        Matched (Abreast m n) unparted (run comparison m) (run comparison n)) ∧
      ∀ count, Abreast m n (stepped comparison count m) (stepped comparison count n) ∧
        outcome (step comparison) (stepped comparison count m) =
          outcome (step comparison) (stepped comparison count n) ∧
        ((stepped comparison count m).Completes overflow comparison ↔
          (stepped comparison count n).Completes overflow comparison)

/-- The flags never influence anything but the flags, and what a comparison compares nothing but
the flags and the operands that it refuses. -/
theorem comparisons_part_only_at_unnamed (overflow : Overflow) (same : AgreeButFlags m n) :
    PartOnlyAtUnnamed overflow m n := by
  have state := same.processor.2.2
  constructor
  case steps =>
    intro count named
    refine ⟨stepped_abreast same named, ?_⟩
    intro earlier before
    have abreast : Abreast m n (stepped .contents earlier m) (stepped .indices earlier n) :=
      stepped_abreast same fun first before' => named first (Nat.lt_trans before' before)
    have ended := (matched_step_abreast abreast (named earlier before)).outcome_eq
    exact ⟨ended, completes_congr ended abreast.agree.processor.1⟩
  case steps_part =>
    intro count operand named unnamed
    exact .of_unnamed (stepped_abreast same named).agree unnamed
  case runs =>
    intro named
    have completes : m.RunCompletes overflow .contents ↔ n.RunCompletes overflow .indices :=
      runCompletes_iff_along agree_of_abreast (alikeAlong_of_named named) (.refl same)
    refine ⟨completes, fun completed => ?_⟩
    apply matched_run_abreast same completed.1 (completes.mp completed).1
    intro running
    exact matched_untilHalted_along agree_of_abreast (alikeAlong_of_named named running)
      (completed.1 running) (.refl same)
  case runs_part =>
    rintro m' operand ⟨running, count, rounds⟩ unnamed
    obtain ⟨n', rounds', abreast⟩ := rounds_abreast same rounds
    have parts := PartAt.of_unnamed abreast.agree unnamed
    refine ⟨?_, n', ⟨state ▸ running, count, rounds'⟩, abreast, parts⟩
    cases faulted : step .contents m' with
    | ok value left => cases (outcome_eq_of_ok faulted).symm.trans parts.faults
    | error fault left =>
      cases (outcome_eq_of_error faulted).symm.trans parts.faults
      rw [(sameEnd_run (rounds.ends_iff.mpr (.faulted faulted)) running).outcome_eq]
      have looped := untilHalted_of_rounds rounds
      exact outcome_eq_of_error (looped.trans (untilHalted_of_error faulted))
  case flags_inert =>
    intro comparison
    have alike := alike_step_abreast (o := m) (p := n) comparison
    have completes : m.RunCompletes overflow comparison ↔ n.RunCompletes overflow comparison :=
      runCompletes_iff_along agree_of_abreast (fun _ => alike.along m) (.refl same)
    refine ⟨completes, fun completed => ?_, fun count => ?_⟩
    · apply matched_run_abreast same completed.1 (completes.mp completed).1
      intro running
      exact alike_untilHalted agree_of_abreast alike (completed.1 running) (.refl same)
    · have abreast := stepped_abreast_alike comparison same count
      have ended := (alike abreast).outcome_eq
      exact ⟨abreast, ended, completes_congr ended abreast.agree.processor.1⟩

/-- The second instruction compares R0 with a register that does not exist. -/
theorem comparisons_part_only_at_unnamed_ninth_register :
    let ram : Ram := Bank.ofImagePrefix [0x82, 0, 8, 0xA7, 0, 9, 1]
    let m : Machine Ram Sink := { memory := ram, output := {}, diagnostics := {} }
    let n : Machine Ram Sink := { m with processor.flags := 7, processor.executed := 5 }
    AgreeButFlags m n ∧ PartOnlyAtUnnamed .aborts m n ∧
      PartAt (stepped .contents 1 m) (stepped .indices 1 n) 9 := by
  intro ram m n
  have same : AgreeButFlags m n := ⟨⟨rfl, rfl, rfl⟩, rfl, rfl⟩
  have parted := comparisons_part_only_at_unnamed .aborts same
  have first : outcome fetch m = .ok { opcode := 0x82, a := 0, b := 8 } := by decide +kernel
  have second : outcome fetch (stepped .contents 1 m) = .ok { opcode := 0xA7, a := 0, b := 9 } := by
    decide +kernel
  refine ⟨same, parted, parted.steps_part 1 9 ?_ ⟨_, second, rfl, rfl⟩⟩
  rintro earlier before other ⟨fetched, found, compares, -⟩
  cases Nat.lt_one_iff.mp before
  cases first.symm.trans found
  cases compares

end Machine

end ByteMachine
