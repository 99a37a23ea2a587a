import ByteMachine.Bench
import ByteMachine.Proofs.AccessOrder
import ByteMachine.Proofs.Restriction

/-!
# Interleavings

Processors take turns on one shared memory. Main statement: as long as none of them stores where
another one reads or writes, each goes on as it would alone.
-/

namespace ByteMachine

namespace HostMemory

variable {foreign : Nat → Prop} {shared solo shared' : HostMemory} {address : Nat} {value : UInt8}

/-- The two memories grant the same accesses, and hold the same bytes but for foreign cells. -/
structure AgreeOff (foreign : Nat → Prop) (shared solo : HostMemory) : Prop where
  refuses : shared.Refuses = solo.Refuses
  cells : ∀ address, ¬foreign address → shared.toList[address]? = solo.toList[address]?

namespace AgreeOff

theorem refl (memory : HostMemory) : AgreeOff foreign memory memory := ⟨rfl, fun _ _ => rfl⟩

theorem get (agree : AgreeOff foreign shared solo) (own : ¬foreign address) :
    PlainMemory.get shared address = PlainMemory.get solo address := by
  by_cases refused : shared.Refuses (.read address none)
  · rw [get_of_refused refused]
    rw [agree.refuses] at refused
    rw [get_of_refused refused]
  · obtain ⟨value, held, got⟩ := get_of_granted refused
    rw [agree.refuses] at refused
    obtain ⟨value', held', got'⟩ := get_of_granted refused
    rw [agree.cells address own, held'] at held
    rw [got, got', Option.some.inj held]

/-- The same store is made on both, or refused by both. -/
theorem set (agree : AgreeOff foreign shared solo) (address : Nat) (value : UInt8) :
    (∃ shared' solo', PlainMemory.set shared address value = .ok shared' ∧
        PlainMemory.set solo address value = .ok solo' ∧ AgreeOff foreign shared' solo') ∨
      (PlainMemory.set shared address value = .error (.addressing address) ∧
        PlainMemory.set solo address value = .error (.addressing address)) := by
  by_cases refused : shared.Refuses (.write address value)
  · have refused' := agree.refuses ▸ refused
    exact .inr ⟨set_of_refused refused, set_of_refused refused'⟩
  · have granted' := agree.refuses ▸ refused
    obtain ⟨shared', written, -, refuses, cells⟩ := set_of_granted refused
    obtain ⟨solo', written', -, refuses', cells'⟩ := set_of_granted granted'
    refine .inl ⟨shared', solo', written, written', ?_, ?_⟩
    · rw [refuses, refuses', agree.refuses]
    · intro other own
      have inside := Nat.not_le.mp (not_or.mp refused).1
      have inside' := Nat.not_le.mp (not_or.mp granted').1
      have length : address < shared.toList.length := by rwa [toList, Bank.length_toList]
      have length' : address < solo.toList.length := by rwa [toList, Bank.length_toList]
      rw [cells, cells', List.getElem?_set, List.getElem?_set, if_pos length, if_pos length',
        agree.cells other own]

/-- A store to a foreign cell does not show. -/
theorem set_foreign (agree : AgreeOff foreign shared solo) (stranger : foreign address)
    (written : PlainMemory.set shared address value = .ok shared') :
    AgreeOff foreign shared' solo := by
  obtain ⟨-, refuses, cells⟩ := set_ok written
  refine ⟨refuses.trans agree.refuses, ?_⟩
  intro other own
  have apart : address ≠ other := by
    rintro rfl
    exact own stranger
  rw [cells, List.getElem?_set, if_neg apart, agree.cells other own]

end AgreeOff

end HostMemory

namespace Machine

variable {foreign : Nat → Prop} {before before' : List UInt8} {comparison : Comparison}
  {m n : Machine HostMemory Sink}

/-- The second machine is the first one left alone: it does without the stores to foreign cells and
without what others have printed before. -/
structure Shadows (foreign : Nat → Prop) (before before' : List UInt8)
    (m n : Machine HostMemory Sink) : Prop where
  processor : m.processor = n.processor
  memory : HostMemory.AgreeOff foreign m.memory n.memory
  unfailing : m.output.Unfailing
  unfailing' : n.output.Unfailing
  printed : ∃ text, m.output.accepted.toList = before ++ text ∧
    n.output.accepted.toList = before' ++ text

theorem Shadows.unseen {m' n' : Machine HostMemory Sink} (first : Coincide m' m)
    (second : Coincide n' n) (shadows : Shadows foreign before before' m n) :
    Shadows foreign before before' m' n' := by
  obtain ⟨processors, memories, outputs⟩ := first
  obtain ⟨processors', memories', outputs'⟩ := second
  constructor
  case processor => rw [processors, processors', shadows.processor]
  case memory =>
    rw [memories, memories']
    exact shadows.memory
  case unfailing =>
    rw [outputs]
    exact shadows.unfailing
  case unfailing' =>
    rw [outputs']
    exact shadows.unfailing'
  case printed =>
    rw [outputs, outputs']
    exact shadows.printed

/-- What is printed is appended for both. -/
theorem Shadows.print (shadows : Shadows foreign before before' m n) (text : String)
    {p q : Processor} (same : p = q) :
    Shadows foreign before before'
      { m with processor := p, output := (Writer.print m.output text).2 }
      { n with processor := q, output := (Writer.print n.output text).2 } := by
  constructor
  case processor => exact same
  case memory => exact shadows.memory
  case unfailing => exact (shadows.unfailing.print text).2
  case unfailing' => exact (shadows.unfailing'.print text).2
  case printed =>
    obtain ⟨earlier, printed, printed'⟩ := shadows.printed
    refine ⟨earlier ++ Text.utf8Encode text, ?_, ?_⟩
    · rw [shadows.unfailing.accepted_print, printed, List.append_assoc]
    · rw [shadows.unfailing'.accepted_print, printed', List.append_assoc]

theorem Shadows.planned_eq (shadows : Shadows foreign before before' m n)
    (own : ∀ access ∈ accessesOf m.processor m.memory, ¬foreign access.address)
    (comparison : Comparison) :
    planned comparison m = planned comparison n := by
  rw [planned, planned, ← shadows.processor]
  exact plan_congr comparison fun access made => shadows.memory.get (own access made)

/-- Accesses to own cells go as they would alone. -/
theorem Shadows.step (shadows : Shadows foreign before before' m n)
    (own : ∀ access ∈ accessesOf m.processor m.memory, ¬foreign access.address)
    (comparison : Comparison) :
    Matched (Shadows foreign before before') unparted (step comparison m) (step comparison n) := by
  have plans := shadows.planned_eq own comparison
  cases planned' : planned comparison m with
  | error fault =>
    rw [planned'] at plans
    refine Matched.of_sameEnd Shadows.unseen (sameEnd_step_of_refused planned')
      (sameEnd_step_of_refused plans.symm) (.error ?_)
    exact { shadows with processor := by rw [shadows.processor] }
  | ok chosen =>
    obtain ⟨executed, intended⟩ := chosen
    rw [planned'] at plans
    cases intended with
    | update p =>
      refine Matched.of_sameEnd Shadows.unseen (sameEnd_step_of_update planned')
        (sameEnd_step_of_update plans.symm) (.ok ?_)
      exact { shadows with processor := rfl }
    | print text =>
      refine Matched.of_sameEnd Shadows.unseen
        (sameEnd_step_of_printed planned' (shadows.unfailing.print text).1)
        (sameEnd_step_of_printed plans.symm (shadows.unfailing'.print text).1) (.ok ?_)
      exact shadows.print text (by rw [shadows.processor])
    | push value =>
      have top : n.processor.stackPointer = m.processor.stackPointer := by rw [shadows.processor]
      rcases shadows.memory.set (m.processor.stackPointer - 1).toNat value with
        ⟨shared', solo', written, written', agree⟩ | ⟨refused, refused'⟩
      · rw [← top] at written'
        refine Matched.of_sameEnd Shadows.unseen (sameEnd_step_of_stored planned' written)
          (sameEnd_step_of_stored plans.symm written') (.ok ?_)
        exact { shadows with processor := by rw [shadows.processor], memory := agree }
      · have unstored : PlainMemory.set n.memory (n.processor.stackPointer - 1).toNat value =
            .error (.addressing (m.processor.stackPointer - 1).toNat) := by rwa [top]
        refine Matched.of_sameEnd Shadows.unseen (sameEnd_step_of_unstored planned' refused)
          (sameEnd_step_of_unstored plans.symm unstored) (.error ?_)
        exact { shadows with processor := by rw [shadows.processor] }

/-- A step that stores to foreign cells only leaves the others as they are. -/
theorem agreeOff_after_step {solo : HostMemory}
    (agree : HostMemory.AgreeOff foreign m.memory solo)
    (stores : ∀ executed address value, outcome (step comparison) m = .ok executed →
      .write address value ∈ accessesOf m.processor m.memory → foreign address) :
    HostMemory.AgreeOff foreign (after (step comparison) m).memory solo := by
  rcases memory_after_step comparison m with kept | ⟨value, made, stored⟩
  · rwa [kept]
  · rw [stepAccesses_eq] at made
    have plans := planned_of_store made comparison
    obtain ⟨m', stepped, -⟩ := (sameEnd_step_of_stored plans stored).eq_ok
    exact agree.set_foreign (stores _ _ _ (outcome_eq_of_ok stepped) made) stored

end Machine

namespace Bench

/-- A processor takes a step on the selected memory. -/
def turn (comparison : Comparison) (cpu : Nat) (bench : Bench) : Observation × Bench :=
  (bench.select cpu bench.memory).observe comparison (.operate .step)

/-- Processors take turns, in the order of the schedule. -/
def turns (comparison : Comparison) : List Nat → Bench → List (Nat × Observation)
  | [], _ => []
  | cpu :: rest, bench =>
    (cpu, (bench.turn comparison cpu).1) :: turns comparison rest (bench.turn comparison cpu).2

open Machine

variable {comparison : Comparison} {bench : Bench} {cpu : Nat} {p : Processor}
  {bus : Recorded HostMemory}

/-- The turn of a processor is a step of the machine `m`. -/
structure TurnOf (comparison : Comparison) (cpu : Nat) (bench : Bench)
    (m : Machine HostMemory Sink) : Prop where
  answer : (bench.turn comparison cpu).1.answer = (outcome (step comparison) m).map .executed
  processor : (bench.turn comparison cpu).1.processor = (after (step comparison) m).processor
  printed : (bench.turn comparison cpu).1.printed =
    (after (step comparison) m).output.accepted.toList.drop m.output.accepted.size
  accesses : (bench.turn comparison cpu).1.accesses = accessesOf m.processor m.memory
  processors : (bench.turn comparison cpu).2.processors =
    bench.processors.setIfInBounds cpu (after (step comparison) m).processor
  memory : ∃ bus,
    (bench.turn comparison cpu).2.memories[(bench.turn comparison cpu).2.memory]? = some bus ∧
      bus.memory = (after (step comparison) m).memory
  output : (bench.turn comparison cpu).2.output = (after (step comparison) m).output

/-- The machine that the selected memory makes with a processor. -/
def machineOf (bench : Bench) (p : Processor) (memory : HostMemory) : Machine HostMemory Sink :=
  { processor := p, memory, output := bench.output, diagnostics := {}, log := bench.log }

theorem turnOf_machineOf (present : bench.processors[cpu]? = some p)
    (selected : bench.memories[bench.memory]? = some bus) :
    TurnOf comparison cpu bench (bench.machineOf p bus.memory) := by
  let m : Machine (Recorded HostMemory) Sink :=
    { processor := p, memory := bus, output := bench.output, diagnostics := {}, log := bench.log }
  have mirrored : Mirrors m (bench.machineOf p bus.memory) := ⟨rfl, rfl, rfl⟩
  have matched := Mirrors.simulation.step comparison mirrored (Mirrors.alike_read _)
  obtain ⟨processor, memory, output⟩ := matched.after
  have found : (bench.select cpu bench.memory).machine? = some m := by
    simp [machine?, select, present, selected, m]
  have served : (bench.select cpu bench.memory).serve comparison (.operate .step) =
      ((outcome (step comparison) m).map .executed,
        (bench.select cpu bench.memory).replace (after (step comparison) m)) := by
    simp only [serve, found, Request.action, Operation.carryOut, Functor.map, EStateM.map, outcome,
      after]
    cases step comparison m <;> rfl
  have seen := seen_after_step comparison m
  have inside := (Array.getElem?_eq_some_iff.mp present).1
  obtain ⟨inside', held⟩ := Array.getElem?_eq_some_iff.mp selected
  constructor
  case answer =>
    simp only [turn, observe, served, matched.outcome_eq]
  case processor =>
    simp only [turn, observe, served]
    simp [replace, select, processor, inside]
  case printed =>
    simp only [turn, observe, served, replace, output]
    rfl
  case accesses =>
    have noted : (after (step comparison) m).memory.accesses.toList =
        bus.accesses.toList ++ accessesOf p bus.memory := seen
    simp only [turn, observe, served]
    simp only [replace, select, Array.getD_eq_getD_getElem?, selected, Option.getD_some, noted,
      Array.getElem?_setIfInBounds_self_of_lt inside']
    exact List.drop_left' Array.length_toList
  case processors =>
    simp only [turn, observe, served, replace, processor]
    rfl
  case memory =>
    refine ⟨(after (step comparison) m).memory, ?_, memory⟩
    simp only [turn, observe, served]
    simp [replace, select, inside']
  case output =>
    simp only [turn, observe, served, replace, output]

namespace Observation

/-- What a turn shows of its own processor. -/
def shown (o : Observation) : Except Fault Answer × Processor × List UInt8 :=
  (o.answer, o.processor, o.printed)

/-- The addresses at which a turn has stored something: none if it faulted. -/
def stored (o : Observation) : List Nat :=
  match o.answer with
  | .ok _ => (o.accesses.filter BusAccess.isWrite).map BusAccess.address
  | .error _ => []

def Pushes (o : Observation) : Prop := o.answer = .ok (.executed (.instruction .push))

instance (o : Observation) : Decidable o.Pushes := inferInstanceAs (Decidable (_ = _))

theorem mem_stored_iff {o : Observation} {address : Nat} :
    address ∈ o.stored ↔
      (∃ answer, o.answer = .ok answer) ∧ ∃ value, .write address value ∈ o.accesses := by
  unfold stored
  cases o.answer with
  | ok answer =>
    simp only [List.mem_map, List.mem_filter]
    constructor
    · rintro ⟨access, ⟨made, write⟩, rfl⟩
      cases access with
      | read => cases write
      | write address value => exact ⟨⟨answer, rfl⟩, value, made⟩
    · rintro ⟨-, value, made⟩
      exact ⟨_, ⟨made, rfl⟩, rfl⟩
  | error fault => simp

end Observation

/-- No processor stores where another one reads or writes. -/
def Apart (turns : List (Nat × Observation)) : Prop :=
  ∀ t ∈ turns, ∀ t' ∈ turns, t.1 ≠ t'.1 →
    ∀ address ∈ t.2.stored, ∀ access ∈ t'.2.accesses, access.address ≠ address

instance (turns : List (Nat × Observation)) : Decidable (Apart turns) :=
  inferInstanceAs (Decidable (∀ t ∈ turns, ∀ t' ∈ turns, t.1 ≠ t'.1 →
    ∀ address ∈ t.2.stored, ∀ access ∈ t'.2.accesses, access.address ≠ address))

/-- What the turns of one processor have shown, in order. -/
def shownBy (cpu : Nat) (turns : List (Nat × Observation)) :
    List (Except Fault Answer × Processor × List UInt8) :=
  (turns.filter (·.1 == cpu)).map (·.2.shown)

theorem size_processors_turn (comparison : Comparison) (cpu : Nat) (bench : Bench) :
    (bench.turn comparison cpu).2.processors.size = bench.processors.size := by
  simp only [turn, observe, serve]
  split
  · rfl
  · split <;> simp [replace, select]

section Foreign

variable {foreign : Nat → Prop} {shared solo : Bench} {other : Nat}

/-- The second bench has gone through the turns of one processor only. -/
structure Shadows (foreign : Nat → Prop) (cpu : Nat) (shared solo : Bench) : Prop where
  processor : shared.processors[cpu]? = solo.processors[cpu]?
  memory : ∃ bus bus', shared.memories[shared.memory]? = some bus ∧
    solo.memories[solo.memory]? = some bus' ∧
      HostMemory.AgreeOff foreign bus.memory bus'.memory
  unfailing : shared.output.Unfailing
  unfailing' : solo.output.Unfailing

theorem Shadows.own_turn (shadows : Shadows foreign cpu shared solo)
    (present : cpu < shared.processors.size)
    (own : ∀ access ∈ (shared.turn comparison cpu).1.accesses, ¬foreign access.address) :
    (shared.turn comparison cpu).1.shown = (solo.turn comparison cpu).1.shown ∧
      Shadows foreign cpu (shared.turn comparison cpu).2 (solo.turn comparison cpu).2 := by
  obtain ⟨bus, bus', selected, selected', agree⟩ := shadows.memory
  have here := Array.getElem?_eq_getElem present
  have here' := shadows.processor.symm.trans here
  have turned : TurnOf comparison cpu shared _ := turnOf_machineOf here selected
  have turned' : TurnOf comparison cpu solo _ := turnOf_machineOf here' selected'
  rw [turned.accesses] at own
  have start : Machine.Shadows foreign shared.output.accepted.toList solo.output.accepted.toList
      (shared.machineOf shared.processors[cpu] bus.memory)
      (solo.machineOf shared.processors[cpu] bus'.memory) :=
    ⟨rfl, agree, shadows.unfailing, shadows.unfailing', [], by simp [machineOf],
      by simp [machineOf]⟩
  have matched := start.step own comparison
  have ends := matched.after
  constructor
  · obtain ⟨text, printed, printed'⟩ := ends.printed
    have same : (shared.turn comparison cpu).1.printed = (solo.turn comparison cpu).1.printed := by
      rw [turned.printed, turned'.printed, printed, printed']
      exact (List.drop_left' Array.length_toList).trans (List.drop_left' Array.length_toList).symm
    rw [Observation.shown, Observation.shown, turned.answer, turned'.answer, matched.outcome_eq,
      turned.processor, turned'.processor, ends.processor, same]
  · obtain ⟨next, found, held⟩ := turned.memory
    obtain ⟨next', found', held'⟩ := turned'.memory
    constructor
    case processor =>
      have inside := (Array.getElem?_eq_some_iff.mp here').1
      rw [turned.processors, turned'.processors, ends.processor,
        Array.getElem?_setIfInBounds_self_of_lt present,
        Array.getElem?_setIfInBounds_self_of_lt inside]
    case memory => exact ⟨next, next', found, found', held ▸ held' ▸ ends.memory⟩
    case unfailing => exact turned.output ▸ ends.unfailing
    case unfailing' => exact turned'.output ▸ ends.unfailing'

theorem Shadows.foreign_turn (shadows : Shadows foreign cpu shared solo)
    (present : other < shared.processors.size) (stranger : other ≠ cpu)
    (stores : ∀ address ∈ (shared.turn comparison other).1.stored, foreign address) :
    Shadows foreign cpu (shared.turn comparison other).2 solo := by
  obtain ⟨bus, bus', selected, selected', agree⟩ := shadows.memory
  have here := Array.getElem?_eq_getElem present
  have turned : TurnOf comparison other shared _ := turnOf_machineOf here selected
  obtain ⟨next, found, held⟩ := turned.memory
  constructor
  case processor =>
    rw [turned.processors, Array.getElem?_setIfInBounds_ne stranger, shadows.processor]
  case memory =>
    refine ⟨next, bus', found, selected', held ▸ agreeOff_after_step agree ?_⟩
    intro executed address value succeeds made
    apply stores address
    refine Observation.mem_stored_iff.mpr ⟨?_, ?_⟩
    · rw [turned.answer, succeeds]
      exact ⟨_, rfl⟩
    · rw [turned.accesses]
      exact ⟨value, made⟩
  case unfailing => exact turned.output ▸ unfailing_step comparison shadows.unfailing
  case unfailing' => exact shadows.unfailing'

theorem Shadows.shownBy_turns {schedule : List Nat} (shadows : Shadows foreign cpu shared solo)
    (present : ∀ other ∈ schedule, other < shared.processors.size)
    (own : ∀ t ∈ turns comparison schedule shared, t.1 = cpu →
      ∀ access ∈ t.2.accesses, ¬foreign access.address)
    (stores : ∀ t ∈ turns comparison schedule shared, t.1 ≠ cpu →
      ∀ address ∈ t.2.stored, foreign address) :
    shownBy cpu (turns comparison schedule shared) =
      shownBy cpu (turns comparison (schedule.filter (· == cpu)) solo) := by
  induction schedule generalizing shared solo with
  | nil => rfl
  | cons other rest inductionHypothesis =>
    obtain ⟨first, later⟩ := List.forall_mem_cons.mp present
    obtain ⟨own, ownLater⟩ := List.forall_mem_cons.mp own
    obtain ⟨stores, storesLater⟩ := List.forall_mem_cons.mp stores
    have remain : ∀ next ∈ rest, next < (shared.turn comparison other).2.processors.size := by
      rwa [size_processors_turn]
    by_cases same : other = cpu
    · subst same
      obtain ⟨shown, shadows'⟩ := shadows.own_turn first (own rfl)
      have rest' := inductionHypothesis shadows' remain ownLater storesLater
      simp only [shownBy] at rest'
      simp [shownBy, turns, shown, rest']
    · have shadows' := shadows.foreign_turn first same (stores same)
      have rest' := inductionHypothesis shadows' remain ownLater storesLater
      simp only [shownBy] at rest'
      simp [shownBy, turns, same, rest']

end Foreign

theorem TurnOf.pushes_of_stores {m : Machine HostMemory Sink} {address : Nat}
    (turned : TurnOf comparison cpu bench m)
    (stores : address ∈ (bench.turn comparison cpu).1.stored) :
    (bench.turn comparison cpu).1.Pushes := by
  obtain ⟨⟨answer, answered⟩, value, made⟩ := Observation.mem_stored_iff.mp stores
  rw [turned.accesses] at made
  rw [turned.answer] at answered
  obtain ⟨executed, succeeds, -⟩ := Except.map_eq_ok_iff.mp answered
  rw [Observation.Pushes, turned.answer, succeeds, executed_of_store made succeeds]
  rfl

/-- Nothing but a push stores, in whatever order the processors take their turns. -/
theorem pushes_of_stores {schedule : List Nat} {address : Nat}
    (selected : bench.memories[bench.memory]? = some bus)
    (present : ∀ cpu ∈ schedule, cpu < bench.processors.size) :
    ∀ t ∈ turns comparison schedule bench, address ∈ t.2.stored → t.2.Pushes := by
  induction schedule generalizing bench bus with
  | nil => nofun
  | cons cpu rest inductionHypothesis =>
    obtain ⟨first, later⟩ := List.forall_mem_cons.mp present
    have turned : TurnOf comparison cpu bench _ :=
      turnOf_machineOf (Array.getElem?_eq_getElem first) selected
    obtain ⟨next, found, -⟩ := turned.memory
    refine List.forall_mem_cons.mpr ⟨turned.pushes_of_stores, inductionHypothesis found ?_⟩
    rwa [size_processors_turn]

/-- Each processor goes on as it would alone on a copy of the memory. -/
def Independent (comparison : Comparison) (schedule : List Nat) (bench : Bench) : Prop :=
  ∀ cpu, shownBy cpu (turns comparison schedule bench) =
    shownBy cpu (turns comparison (schedule.filter (· == cpu)) bench)

/-- Processors that share the machine's memory are independent if their stores do not meet, so in
particular if none of them pushes. -/
theorem turns_independent {ram : Ram} {accesses : Array BusAccess} {schedule : List Nat}
    (selected :
      bench.memories[bench.memory]? = some { memory := HostMemory.ofRam ram, accesses })
    (present : ∀ cpu ∈ schedule, cpu < bench.processors.size)
    (unfailing : bench.output.Unfailing) (comparison : Comparison) :
    (Apart (turns comparison schedule bench) → Independent comparison schedule bench) ∧
      ((∀ t ∈ turns comparison schedule bench, ¬t.2.Pushes) →
        Independent comparison schedule bench) := by
  have independent (apart : Apart (turns comparison schedule bench)) :
      Independent comparison schedule bench := by
    intro cpu
    have start : Shadows (fun address => ∃ t ∈ turns comparison schedule bench,
        t.1 ≠ cpu ∧ address ∈ t.2.stored) cpu bench bench :=
      ⟨rfl, ⟨_, _, selected, selected, .refl _⟩, unfailing, unfailing⟩
    apply start.shownBy_turns present
    · rintro t turned rfl access made ⟨t', turned', stranger, stores⟩
      exact apart t' turned' t turned stranger access.address stores access made rfl
    · intro t turned stranger address stores
      exact ⟨t, turned, stranger, stores⟩
  refine ⟨independent, fun pushless => independent ?_⟩
  intro t turned t' _ _ address stores
  exact absurd (pushes_of_stores selected present t turned stores) (pushless t turned)

/-- The first processor prints twelve and the second one sixty, each by way of its own stack. -/
theorem turns_independent_two_stacks :
    let ram : Ram := Bank.ofImagePrefix
      [0x82, 0, 12, 0x45, 0, 0x46, 1, 0x47, 1, 1, 0x82, 0, 60, 0x45, 0, 0x46, 2, 0x47, 2, 1]
    let second : Processor := { Processor.powerOn with counter := 10 }.setRegister 7 0x80
    let bench : Bench :=
      { processors := #[.powerOn, second], memories := #[{ memory := HostMemory.ofRam ram }] }
    let schedule := [0, 1, 1, 0, 0, 1, 0, 1]
    bench.memories[bench.memory]? = some { memory := HostMemory.ofRam ram, accesses := #[] } ∧
      (∀ cpu ∈ schedule, cpu < bench.processors.size) ∧ bench.output.Unfailing ∧
      Apart (turns .contents schedule bench) ∧ Independent .contents schedule bench := by
  intro ram second bench schedule
  have selected : bench.memories[bench.memory]? =
      some { memory := HostMemory.ofRam ram, accesses := #[] } := rfl
  have present : ∀ cpu ∈ schedule, cpu < bench.processors.size := by decide
  have unfailing : bench.output.Unfailing := ⟨rfl, by simp [bench]⟩
  have apart : Apart (turns .contents schedule bench) := by decide +kernel
  exact ⟨selected, present, unfailing, apart,
    (turns_independent selected present unfailing .contents).1 apart⟩

end Bench

end ByteMachine
