import ByteMachine.Proofs.Run
import Mathlib.Data.List.Forall2

/-!
# The course of a loop

What the rounds of a loop do to one part of the machine, the loop does all along its course. Loops
that go alike have courses that are related machine by machine.
-/

namespace ByteMachine.Machine

variable {M N W α γ : Type} {act : Action M W α} {m : Machine M W}

/-- The machines from which a loop takes its rounds, in order, if it ends. -/
def course? (act : Action M W α) (m : Machine M W) : Option (List (Machine M W)) :=
  match act m with
  | .error _ _ => some [m]
  | .ok _ m' =>
    if m'.processor.state = .halted then some [m]
    else do return m :: (← m' |>.course? act)
partial_fixpoint

def course (act : Action M W α) (m : Machine M W) : List (Machine M W) := (course? act m).getD []

theorem course?_of_last (last : ∀ value final, act m = .ok value final →
    final.processor.state = .halted) : course? act m = some [m] := by
  rw [course?]
  split
  · rfl
  · rename_i acted
    exact if_pos (last _ _ acted)

theorem course?_of_running {value : α} {m' : Machine M W} (acted : act m = .ok value m')
    (running : m'.processor.state ≠ .halted) :
    course? act m = (course? act m').map (m :: ·) := by
  conv => lhs; rw [course?, acted]
  simp only [if_neg running]
  cases course? act m' <;> rfl

/-- A loop that ends has a course. -/
theorem Ends.course?_eq (ends : Ends act m) : course? act m = some (course act m) := by
  have found : ∃ machines, course? act m = some machines := by
    induction ends with
    | faulted failed =>
      exact ⟨_, course?_of_last fun _ _ acted => nomatch failed.symm.trans acted⟩
    | halted acted halted =>
      refine ⟨_, course?_of_last fun _ _ acted' => ?_⟩
      cases acted.symm.trans acted'
      exact halted
    | running acted running _ inductionHypothesis =>
      obtain ⟨machines, later⟩ := inductionHypothesis
      exact ⟨_, by rw [course?_of_running acted running, later]; rfl⟩
  obtain ⟨machines, found⟩ := found
  rw [course, found, Option.getD_some]

theorem course_of_last (last : ∀ value final, act m = .ok value final →
    final.processor.state = .halted) : course act m = [m] := by
  rw [course, course?_of_last last, Option.getD_some]

theorem course_of_running {value : α} {m' : Machine M W} (acted : act m = .ok value m')
    (running : m'.processor.state ≠ .halted) (ends : Ends act m') :
    course act m = m :: course act m' := by
  rw [course, course?_of_running acted running, ends.course?_eq, Option.map_some,
    Option.getD_some]

theorem course_of_error {fault : Fault} {final : Machine M W}
    (failed : act m = .error fault final) : course act m = [m] :=
  course_of_last fun _ _ acted => nomatch failed.symm.trans acted

theorem course_of_halted {value : α} {final : Machine M W} (acted : act m = .ok value final)
    (halted : final.processor.state = .halted) : course act m = [m] := by
  apply course_of_last
  intro value' left acted'
  cases acted.symm.trans acted'
  exact halted

theorem after_untilHalted_of_running {value : α} {m' : Machine M W} (acted : act m = .ok value m')
    (running : m'.processor.state ≠ .halted) :
    after (untilHalted act) m = after (untilHalted act) m' := by
  simp only [after, untilHalted_of_running acted running]

/-- A sequence of rounds begins with shorter ones. -/
theorem Rounds.upto {first later : Nat} {m m' : Machine M W}
    (rounds : Rounds act (first + later) m m') : ∃ between, Rounds act first m between := by
  induction first generalizing m with
  | zero => exact ⟨m, .refl m⟩
  | succ first inductionHypothesis =>
    rw [Nat.add_right_comm] at rounds
    cases rounds with
    | cons acted running onwards =>
      obtain ⟨between, begun⟩ := inductionHypothesis onwards
      exact ⟨between, .cons acted running begun⟩

/-- A loop ends with what its last round ends with. -/
theorem outcome_untilHalted {count : Nat} {last : Machine M W}
    (rounds : Rounds act count m last)
    (ends : ∀ value final, act last = .ok value final → final.processor.state = .halted) :
    outcome (untilHalted act) m = (outcome act last).map fun _ => () := by
  have looped := untilHalted_of_rounds rounds
  cases acted : act last with
  | ok value final =>
    rw [untilHalted_of_halted acted (ends _ _ acted)] at looped
    rw [outcome_eq_of_ok looped, outcome_eq_of_ok acted]
    rfl
  | error fault final =>
    rw [untilHalted_of_error acted] at looped
    rw [outcome_eq_of_error looped, outcome_eq_of_error acted]
    rfl

/-- What each round makes of a view of the machine, the loop makes of it round by round. -/
theorem view_after_untilHalted (view : Machine M W → γ) (extend : γ → Machine M W → γ)
    (each : ∀ m, view (after act m) = extend (view m) m) (ends : Ends act m) :
    view (after (untilHalted act) m) = (course act m).foldl extend (view m) := by
  induction ends with
  | @faulted m final fault failed =>
    rw [course_of_error failed, List.foldl_cons, List.foldl_nil, ← each,
      after_eq_of_error failed, after_eq_of_error (untilHalted_of_error failed)]
  | @halted m final value acted halted =>
    rw [course_of_halted acted halted, List.foldl_cons, List.foldl_nil, ← each,
      after_eq_of_ok acted, after_eq_of_ok (untilHalted_of_halted acted halted)]
  | @running m m' value acted running later inductionHypothesis =>
    have moved := each m
    rw [after_eq_of_ok acted] at moved
    rw [course_of_running acted running later, List.foldl_cons, ← moved,
      after_untilHalted_of_running acted running, inductionHypothesis]

/-- A loop that halts the machine has succeeded in all its rounds. -/
theorem outcome_of_mem_course (ends : Ends act m) {before : Machine M W}
    (passed : before ∈ course act m) (halts : outcome (untilHalted act) m = .ok ()) :
    ∃ value, outcome act before = .ok value := by
  induction ends with
  | @faulted m final fault failed =>
    cases (outcome_eq_of_error (untilHalted_of_error failed)).symm.trans halts
  | @halted m final value acted halted =>
    rw [course_of_halted acted halted, List.mem_singleton] at passed
    exact ⟨value, passed ▸ outcome_eq_of_ok acted⟩
  | @running m m' value acted running later inductionHypothesis =>
    simp only [outcome, untilHalted_of_running acted running] at halts
    rw [course_of_running acted running later] at passed
    rcases List.mem_cons.mp passed with rfl | rest
    · exact ⟨value, outcome_eq_of_ok acted⟩
    · exact inductionHypothesis rest halts

section Alike

variable {R : Machine M W → Machine N W → Prop} {f : Action M W α} {g : Action N W α}
  {n : Machine N W}

theorem forall₂_course (agree : ∀ {m n}, R m n → m.processor.Agree n.processor)
    (alike : Alike R unparted f g) (ends : Ends f m) (related : R m n) :
    List.Forall₂ R (course f m) (course g n) := by
  induction ends generalizing n with
  | faulted failed =>
    have matched := alike related
    rw [failed] at matched
    obtain ⟨final', failed', -⟩ := matched.of_error
    rw [course_of_error failed, course_of_error failed']
    exact .cons related .nil
  | halted acted halted =>
    have matched := alike related
    rw [acted] at matched
    obtain ⟨final', acted', related'⟩ := matched.of_ok
    have halted' : final'.processor.state = .halted := (agree related').2.2 ▸ halted
    rw [course_of_halted acted halted, course_of_halted acted' halted']
    exact .cons related .nil
  | running acted running later inductionHypothesis =>
    have matched := alike related
    rw [acted] at matched
    obtain ⟨n', acted', related'⟩ := matched.of_ok
    have running' : n'.processor.state ≠ .halted := (agree related').2.2 ▸ running
    rw [course_of_running acted running later,
      course_of_running acted' running' (later.transfer agree alike related')]
    exact .cons related (inductionHypothesis related')

/-- What related machines have in common is the same all along courses that go alike. -/
theorem map_course_eq (agree : ∀ {m n}, R m n → m.processor.Agree n.processor)
    (alike : Alike R unparted f g) (ends : Ends f m) (related : R m n) {view : Machine M W → γ}
    {view' : Machine N W → γ} (same : ∀ {m n}, R m n → view m = view' n) :
    (course f m).map view = (course g n).map view' := by
  have courses := forall₂_course agree alike ends related
  rw [← List.forall₂_eq_eq_eq, List.forall₂_map_left_iff, List.forall₂_map_right_iff]
  exact courses.imp fun _ _ related => same related

end Alike

section Unroll

/-- At most so many rounds of a loop: the machines that they start from and the end of the loop, if
it comes to one. -/
def unroll (act : Action M W α) :
    Nat → Machine M W → Option (List (Machine M W) × EStateM.Result Fault (Machine M W) Unit)
  | 0, _ => none
  | rounds + 1, m =>
    match act m with
    | .error fault m' => some ([m], .error fault m')
    | .ok _ m' =>
      if m'.processor.state = .halted then some ([m], .ok () m')
      else (unroll act rounds m').map fun (machines, result) => (m :: machines, result)

/-- Enough rounds show what a loop does. -/
theorem eq_of_unroll {rounds : Nat} {machines : List (Machine M W)}
    {result : EStateM.Result Fault (Machine M W) Unit}
    (unrolled : unroll act rounds m = some (machines, result)) :
    Ends act m ∧ course act m = machines ∧ untilHalted act m = result := by
  induction rounds generalizing m machines with
  | zero => cases unrolled
  | succ rounds inductionHypothesis =>
    unfold unroll at unrolled
    split at unrolled
    · rename_i failed
      cases unrolled
      exact ⟨.faulted failed, course_of_error failed, untilHalted_of_error failed⟩
    · rename_i acted
      split at unrolled
      · rename_i halted
        cases unrolled
        exact ⟨.halted acted halted, course_of_halted acted halted,
          untilHalted_of_halted acted halted⟩
      · rename_i running
        obtain ⟨⟨later, end'⟩, unrolled', same⟩ := Option.map_eq_some_iff.mp unrolled
        cases same
        obtain ⟨ends, passed, ended⟩ := inductionHypothesis unrolled'
        refine ⟨.running acted running ends, ?_, ?_⟩
        · rw [course_of_running acted running ends, passed]
        · rw [untilHalted_of_running acted running, ended]

theorem outcome_of_unroll {rounds : Nat} {value : Except Fault Unit}
    (unrolled : (unroll act rounds m).map (fun found => outcome (fun _ => found.2) m) =
      some value) :
    outcome (untilHalted act) m = value := by
  obtain ⟨⟨machines, result⟩, found, ended⟩ := Option.map_eq_some_iff.mp unrolled
  obtain ⟨-, -, rfl⟩ := eq_of_unroll found
  exact ended

/-- Rounds that go up to a bound of the program counter are soon unrolled. -/
theorem unroll_eq {bound : Nat} (climbs : ∀ {m m' : Machine M W} {value : α},
      act m = .ok value m' → m'.processor.state ≠ .halted →
        m.processor.pc < m'.processor.pc ∧ m.processor.pc < bound)
    {rounds : Nat} (enough : bound - m.processor.pc < rounds) :
    unroll act rounds m = some (course act m, untilHalted act m) := by
  have unrolled : ∃ machines result, unroll act rounds m = some (machines, result) := by
    induction rounds generalizing m with
    | zero => cases enough
    | succ rounds inductionHypothesis =>
      unfold unroll
      split
      · exact ⟨_, _, rfl⟩
      · rename_i m' acted
        split
        · exact ⟨_, _, rfl⟩
        · rename_i running
          have climbed := climbs acted running
          obtain ⟨machines, result, unrolled⟩ := inductionHypothesis (m := m') (by omega)
          exact ⟨_, _, by rw [unrolled]; rfl⟩
  obtain ⟨machines, result, unrolled⟩ := unrolled
  obtain ⟨-, rfl, rfl⟩ := eq_of_unroll unrolled
  exact unrolled

end Unroll

section Steps

variable [Memory M] [Writer W] {comparison : Comparison}

/-- The machines from which a run takes its steps, in order. -/
def visited (comparison : Comparison) (m : Machine M W) : List (Machine M W) :=
  course (step comparison) m

theorem stepped_after (count : Nat) (m : Machine M W) :
    stepped comparison count (after (step comparison) m) = stepped comparison (count + 1) m := by
  induction count with
  | zero => rfl
  | succ count inductionHypothesis => exact congrArg (after (step comparison)) inductionHypothesis

/-- A loop takes its rounds from the machines that single steps lead to. -/
theorem stepped_of_rounds {count : Nat} {m last : Machine M W}
    (rounds : Rounds (step comparison) count m last) : stepped comparison count m = last := by
  induction rounds with
  | refl => rfl
  | cons acted _ _ inductionHypothesis =>
    rw [← stepped_after, after_eq_of_ok acted, inductionHypothesis]

theorem course_eq_of_rounds {count : Nat} {m last : Machine M W}
    (rounds : Rounds (step comparison) count m last) (ends : Ends (step comparison) last) :
    course (step comparison) m =
      (List.range count).map (stepped comparison · m) ++ course (step comparison) last := by
  induction rounds with
  | refl => rfl
  | @cons count m _ _ _ acted running rest inductionHypothesis =>
    have machines := inductionHypothesis ends
    simp only [← after_eq_of_ok acted, stepped_after] at machines
    rw [course_of_running acted running (rest.ends_iff.mpr ends), ← after_eq_of_ok acted, machines,
      List.range_succ_eq_map, List.map_cons, List.map_map, List.cons_append]
    rfl

/-- A loop goes through as many machines as it attempts steps. -/
theorem visited_of_last {count : Nat} {m last : Machine M W}
    (rounds : Rounds (step comparison) count m last)
    (ends : ∀ value final, step comparison last = .ok value final →
      final.processor.state = .halted) :
    visited comparison m = (List.range (count + 1)).map (stepped comparison · m) := by
  rw [visited, course_eq_of_rounds rounds (.of_last ends), course_of_last ends, List.range_succ,
    List.map_append, ← stepped_of_rounds rounds]
  rfl

theorem exists_visited_eq_cons {m : Machine M W} (ends : Ends (step comparison) m) :
    ∃ later, visited comparison m = m :: later := by
  obtain ⟨count, last, rounds, ends⟩ := exists_last_round ends
  rw [visited_of_last rounds ends, List.range_succ_eq_map]
  exact ⟨_, rfl⟩

theorem length_visited_pos {m : Machine M W} (ends : Ends (step comparison) m) :
    0 < (visited comparison m).length := by
  obtain ⟨later, machines⟩ := exists_visited_eq_cons ends
  rw [machines]
  exact later.length.succ_pos

theorem visited_eq_stepped {m : Machine M W} (ends : Ends (step comparison) m) :
    visited comparison m =
      (List.range (visited comparison m).length).map (stepped comparison · m) := by
  obtain ⟨count, last, rounds, ends⟩ := exists_last_round ends
  have machines := visited_of_last rounds ends
  have length : (visited comparison m).length = count + 1 := by
    rw [machines, List.length_map, List.length_range]
  rwa [length]

theorem after_untilHalted_eq_stepped {m : Machine M W} (ends : Ends (step comparison) m) :
    after (untilHalted (step comparison)) m =
      stepped comparison (visited comparison m).length m := by
  obtain ⟨count, last, rounds, ends⟩ := exists_last_round ends
  rw [visited_of_last rounds ends, List.length_map, List.length_range,
    after_untilHalted rounds ends, ← stepped_of_rounds rounds]
  rfl

theorem executed_of_rounds {count : Nat} {m m' : Machine M W}
    (rounds : Rounds (step comparison) count m m') :
    m'.processor.executed = m.processor.executed + count := by
  induction rounds with
  | refl => rfl
  | @cons _ m _ _ _ acted _ _ inductionHypothesis =>
    have counted := executed_after_step comparison m
    rw [after_eq_of_ok acted, outcome_eq_of_ok acted] at counted
    rw [inductionHypothesis, counted, Nat.add_right_comm, Nat.add_assoc]
    rfl

/-- All but the last step of a loop succeed without halting the machine. -/
theorem rounds_stepped {count : Nat} {m : Machine M W} (ends : Ends (step comparison) m)
    (inside : count < (visited comparison m).length) :
    Rounds (step comparison) count m (stepped comparison count m) := by
  obtain ⟨whole, last, rounds, ends⟩ := exists_last_round ends
  rw [visited_of_last rounds ends, List.length_map, List.length_range] at inside
  obtain ⟨later, rfl⟩ := Nat.exists_eq_add_of_le (Nat.le_of_lt_succ inside)
  obtain ⟨between, begun⟩ := rounds.upto
  rwa [stepped_of_rounds begun]

/-- The run from a machine comes to a step from those that it visits, and from no other. -/
theorem mem_visited_iff {m before : Machine M W} (ends : Ends (step comparison) m) :
    before ∈ visited comparison m ↔ ∃ count, Rounds (step comparison) count m before := by
  constructor
  · intro passed
    rw [visited_eq_stepped ends, List.mem_map] at passed
    obtain ⟨count, inside, rfl⟩ := passed
    exact ⟨count, rounds_stepped ends (List.mem_range.mp inside)⟩
  · rintro ⟨count, rounds⟩
    have rest := rounds.ends_iff.mp ends
    obtain ⟨later, machines⟩ := exists_visited_eq_cons rest
    rw [visited] at machines
    rw [visited, course_eq_of_rounds rounds rest, machines]
    simp

/-- All steps of a loop are counted, but for one that faults. -/
theorem length_visited {m : Machine M W} (ends : Ends (step comparison) m) :
    m.processor.executed + (visited comparison m).length =
      (after (untilHalted (step comparison)) m).processor.executed +
        match outcome (untilHalted (step comparison)) m with
        | .ok _ => 0
        | .error _ => 1 := by
  obtain ⟨count, last, rounds, ends⟩ := exists_last_round ends
  rw [visited_of_last rounds ends, List.length_map, List.length_range,
    after_untilHalted rounds ends, outcome_untilHalted rounds ends, executed_after_step,
    executed_of_rounds rounds]
  cases outcome (step comparison) last with
  | ok executed => rfl
  | error fault => rfl

/-- The machines from which a run takes its steps: none if it starts halted. -/
def runCourse (comparison : Comparison) (m : Machine M W) : List (Machine M W) :=
  if m.processor.state = .halted then [] else visited comparison m

theorem runCourse_eq_stepped {m : Machine M W} (ends : Ends (step comparison) m) :
    runCourse comparison m =
      (List.range (runCourse comparison m).length).map (stepped comparison · m) := by
  unfold runCourse
  split
  · rfl
  · exact visited_eq_stepped ends

/-- A run ends where its steps lead to. -/
theorem coincide_after_run {m : Machine M W} (ends : Ends (step comparison) m) :
    Coincide (after (run comparison) m)
      (stepped comparison (runCourse comparison m).length m) := by
  unfold runCourse
  split
  · rename_i halted
    rw [after_eq_of_ok (run_of_halted comparison halted)]
    exact .refl m
  · rename_i running
    rw [← after_untilHalted_eq_stepped ends]
    exact (sameEnd_run ends running).after

/-- Steps that each append something to a view append all of it in turn. -/
theorem view_stepped (view : Machine M W → List γ) (adds : Machine M W → List γ)
    {P : Machine M W → Prop} (kept : ∀ m, P m → P (after (step comparison) m))
    (each : ∀ m, P m → view (after (step comparison) m) = view m ++ adds m) {m : Machine M W}
    (held : P m) (count : Nat) :
    P (stepped comparison count m) ∧
      view (stepped comparison count m) =
        view m ++ ((List.range count).map (stepped comparison · m)).flatMap adds := by
  induction count with
  | zero => exact ⟨held, (List.append_nil _).symm⟩
  | succ count inductionHypothesis =>
    obtain ⟨held', seen⟩ := inductionHypothesis
    refine ⟨kept _ held', ?_⟩
    rw [stepped, each _ held', seen, List.append_assoc, List.range_succ, List.map_append,
      List.flatMap_append]
    simp

end Steps

end ByteMachine.Machine
