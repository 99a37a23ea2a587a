import ByteMachine.Computer
import ByteMachine.Proofs.Capacity
import ByteMachine.Proofs.Confinement
import ByteMachine.Proofs.Recording

/-!
# Traced loops

A traced step writes a line about the machine and then does what a step does, or it is stopped by
its sink. Main statement: beside a plain loop a traced one goes to the same end, with one line for
every step, or up to the first step whose line its sink does not take.
-/

namespace ByteMachine

/-- The cell at an address, which wraps at the top of memory. -/
def Bank.wrapped (ram : Ram) (address : Nat) : UInt8 :=
  have inside : address % memorySize < memorySize := Nat.mod_lt address (by decide)
  ram.cells[address % memorySize]

theorem Bank.get_mod (ram : Ram) (address : Nat) :
    ram.get (address % memorySize) = .ok (ram.wrapped address) :=
  Bank.get_of_lt ram (Nat.mod_lt address (by decide))

namespace Machine

section Shown

variable {W : Type}

/-- The three cells at the program counter, of which each wraps. -/
def shown (m : Machine Ram W) : Fetched where
  opcode := m.memory.wrapped m.processor.pc
  a := m.memory.wrapped (m.processor.pc + 1)
  b := m.memory.wrapped (m.processor.pc + 2)

/-- The line of a trace that shows the machine. -/
def shownLine (m : Machine Ram W) : String := traceText m.processor m.shown

theorem read_wrapped_bind {α : Type} (address : Nat) (next : UInt8 → Action Ram W α)
    (m : Machine Ram W) :
    (read (address % memorySize) >>= next) m = next (m.memory.wrapped address) m := by
  rw [read_bind_plain]
  change (settle (m.memory.get _) >>= next) m = _
  rw [Bank.get_mod]
  rfl

theorem traceLine_ram (m : Machine Ram W) : traceLine m = .ok m.shownLine m := by
  have inspected : inspect m = .ok m.shown m := by
    simp only [inspect, get_bind, read_wrapped_bind]
    rfl
  simp only [traceLine, bind, EStateM.bind, inspected]
  rfl

end Shown

variable {comparison : Comparison} {n m : Machine Ram Sink}

@[irreducible]
def lineBytes (m : Machine Ram Sink) : List UInt8 := Text.utf8Encode (m.shownLine ++ "\n")

/-- The trace that shows machines one after the other. -/
def traceBytes (machines : List (Machine Ram Sink)) : List UInt8 := machines.flatMap lineBytes

/-- The machine once its line has been written. -/
def noting (m : Machine Ram Sink) : Machine Ram Sink :=
  { m with
    diagnostics := m.diagnostics.accept m.lineBytes
    log := m.log.push (.traceLine m.shownLine) }

theorem Coincide.shownLine_eq (same : Coincide n m) : n.shownLine = m.shownLine := by
  rw [shownLine, shown, same.1, same.2.1]
  rfl

theorem Coincide.lineBytes_eq (same : Coincide n m) : n.lineBytes = m.lineBytes := by
  rw [lineBytes, same.shownLine_eq, ← lineBytes]

theorem tracedStep_ram (comparison : Comparison) (m : Machine Ram Sink) :
    tracedStep comparison m =
      (do record m.shownLine; step comparison : Action Ram Sink Executed) m := by
  simp only [tracedStep, bind, EStateM.bind, traceLine_ram]

theorem tracedStep_of_takes (takes : m.diagnostics.Takes m.lineBytes) :
    tracedStep comparison m = step comparison m.noting := by
  rw [tracedStep_ram]
  simp only [record, toDiagnostics, Writer.write, bind, EStateM.bind]
  rw [← lineBytes, Sink.write_of_takes takes]
  rfl

theorem tracedStep_of_cut (comparison : Comparison) (cut : ¬m.diagnostics.Takes m.lineBytes) :
    tracedStep comparison m = .error (.output m.diagnostics.whenFull)
      { m with diagnostics := m.diagnostics.accept m.lineBytes } := by
  rw [tracedStep_ram]
  simp only [record, toDiagnostics, Writer.write, bind, EStateM.bind]
  rw [← lineBytes, Sink.write_of_cut cut]
  rfl

/-- The traced loop in a form that can be computed. -/
theorem runTraced_ram (comparison : Comparison) :
    runTraced (M := Ram) (W := Sink) comparison = fun m =>
      if m.processor.state = .halted then .ok () m
      else (unrolled (tracedStep comparison) m).2 := by
  have climbs {m m' : Machine Ram Sink} {executed : Executed}
      (traced : tracedStep comparison m = .ok executed m')
      (running : m'.processor.state ≠ .halted) :
      m.processor.pc < m'.processor.pc ∧ m.processor.pc < memorySize := by
    by_cases takes : m.diagnostics.Takes m.lineBytes
    · rw [tracedStep_of_takes takes] at traced
      exact climbs_ram (m := m.noting) traced running
    · cases (tracedStep_of_cut comparison takes).symm.trans traced
  funext m
  rw [runTraced, unrolled, unroll_eq climbs (Nat.lt_succ_of_le (Nat.sub_le _ _)),
    Option.getD_some]

/-- What a traced step adds to the log: its line before all else. -/
def tracedTells (comparison : Comparison) (m : Machine Ram Sink) : List Log.Entry :=
  .traceLine m.shownLine :: m.tells comparison

/-- A step whose line is taken goes as it goes without. -/
theorem tracedStep_beside (comparison : Comparison) (same : Coincide n m)
    (takes : n.diagnostics.Takes m.lineBytes) :
    SameEnd (tracedStep comparison n) (step comparison m) ∧
      (after (tracedStep comparison) n).diagnostics = n.diagnostics.accept m.lineBytes ∧
      (after (tracedStep comparison) n).log.toList =
        n.log.toList ++ m.tracedTells comparison := by
  have noted : Coincide n.noting m := ⟨same.1, same.2.1, same.2.2⟩
  rw [← same.lineBytes_eq] at takes
  rw [after, tracedStep_of_takes takes, ← after]
  refine ⟨Coincide.alike_step comparison noted, ?_, ?_⟩
  · rw [diagnostics_after_step, noting, same.lineBytes_eq]
  · rw [log_after_step, noted.tells_eq, noting, same.shownLine_eq, Array.toList_push,
      List.append_assoc]
    rfl

/-- The traced loop from `n` stops before the step from `before` in the plain loop from `m`: that
line is the first that its sink does not take. -/
structure Interrupted (comparison : Comparison) (n m : Machine Ram Sink)
    (earlier : List (Machine Ram Sink)) (before left : Machine Ram Sink) : Prop where
  passed : ∃ later, visited comparison m = earlier ++ before :: later
  taken : n.diagnostics.Takes (traceBytes earlier)
  cut : ¬n.diagnostics.Takes (traceBytes (earlier ++ [before]))
  stopped : untilHalted (tracedStep comparison) n =
    .error (.output n.diagnostics.whenFull) left
  unmoved : Coincide left before

/-- The traced loop from `n` beside the plain loop from `m`. -/
structure Traced (comparison : Comparison) (n m : Machine Ram Sink) : Prop where
  /-- The sink gets all it can take. -/
  diagnostics : (after (untilHalted (tracedStep comparison)) n).diagnostics =
    n.diagnostics.accept (traceBytes (visited comparison m))
  same : n.diagnostics.Takes (traceBytes (visited comparison m)) →
    SameEnd (untilHalted (tracedStep comparison) n) (untilHalted (step comparison) m)
  log : n.diagnostics.Takes (traceBytes (visited comparison m)) →
    (after (untilHalted (tracedStep comparison)) n).log.toList =
      n.log.toList ++ (visited comparison m).flatMap (tracedTells comparison)
  interrupted : ¬n.diagnostics.Takes (traceBytes (visited comparison m)) →
    ∃ earlier before left, Interrupted comparison n m earlier before left

theorem traceBytes_cons (m : Machine Ram Sink) (later : List (Machine Ram Sink)) :
    traceBytes (m :: later) = m.lineBytes ++ traceBytes later := List.flatMap_cons

theorem traceBytes_singleton (m : Machine Ram Sink) : traceBytes [m] = m.lineBytes :=
  List.flatMap_singleton _ _

theorem Traced.of_cut (same : Coincide n m) (cut : ¬n.diagnostics.Takes m.lineBytes) :
    Traced comparison n m := by
  obtain ⟨later, machines⟩ := exists_visited_eq_cons (ends_ram comparison m)
  have ownCut : ¬n.diagnostics.Takes n.lineBytes := by rwa [same.lineBytes_eq]
  have looped := untilHalted_of_error (tracedStep_of_cut comparison ownCut)
  have overflow : ¬n.diagnostics.Takes (traceBytes (visited comparison m)) := by
    rw [machines, traceBytes_cons, Sink.takes_append_iff]
    exact fun takes => cut takes.1
  constructor
  case diagnostics =>
    rw [after_eq_of_error looped, machines, traceBytes_cons, Sink.accept_append_of_cut cut,
      ← same.lineBytes_eq]
  case same => exact fun takes => absurd takes overflow
  case log => exact fun takes => absurd takes overflow
  case interrupted =>
    intro _
    refine ⟨[], m, _, ⟨later, machines⟩, ?_, ?_, looped, same.1, same.2.1, same.2.2⟩
    · exact Sink.takes_nil
    · rwa [List.nil_append, traceBytes_singleton]

/-- The last round of the plain loop, whose line is taken, is the last one of the traced loop. -/
theorem Traced.of_last (same : Coincide n m) (takes : n.diagnostics.Takes m.lineBytes)
    (ends : ∀ value final, step comparison m = .ok value final →
      final.processor.state = .halted) : Traced comparison n m := by
  obtain ⟨ended, diagnostics, log⟩ := tracedStep_beside comparison same takes
  have machines : visited comparison m = [m] := course_of_last ends
  have ends' : ∀ value final, tracedStep comparison n = .ok value final →
      final.processor.state = .halted := by
    intro value final acted
    rw [acted] at ended
    obtain ⟨m', stepped, coincide⟩ := ended.of_ok
    exact coincide.1 ▸ ends value m' stepped
  have looped := after_untilHalted (.refl n) ends'
  constructor
  case diagnostics => rw [looped, diagnostics, machines, traceBytes_singleton]
  case same =>
    intro _
    exact matched_untilHalted Coincide.agree (.refl n) (.refl m) ends' ended
  case log =>
    intro _
    rw [looped, log, machines, List.flatMap_singleton]
  case interrupted =>
    intro overflow
    rw [machines, traceBytes_singleton] at overflow
    exact absurd takes overflow

theorem Interrupted.cons {n' m' : Machine Ram Sink} {earlier : List (Machine Ram Sink)}
    {before left : Machine Ram Sink}
    (interrupted : Interrupted comparison n' m' earlier before left)
    (diagnostics : n'.diagnostics = n.diagnostics.accept m.lineBytes)
    (takes : n.diagnostics.Takes m.lineBytes)
    (machines : visited comparison m = m :: visited comparison m')
    (looped : untilHalted (tracedStep comparison) n = untilHalted (tracedStep comparison) n') :
    Interrupted comparison n m (m :: earlier) before left := by
  obtain ⟨⟨later, passed⟩, taken, cut, stopped, unmoved⟩ := interrupted
  rw [diagnostics] at taken cut stopped
  constructor
  case passed => exact ⟨later, by rw [machines, passed, List.cons_append]⟩
  case taken =>
    rw [traceBytes_cons, Sink.takes_append_iff]
    exact ⟨takes, taken⟩
  case cut =>
    rw [List.cons_append, traceBytes_cons, Sink.takes_append_iff]
    exact fun whole => cut whole.2
  case stopped => exact looped.trans stopped
  case unmoved => exact unmoved

/-- After a round whose line is taken the two loops go on beside each other. -/
theorem Traced.of_running (same : Coincide n m) (takes : n.diagnostics.Takes m.lineBytes)
    {executed : Executed} {m' : Machine Ram Sink} (stepped : step comparison m = .ok executed m')
    (running : m'.processor.state ≠ .halted)
    (onwards : ∀ {n'}, Coincide n' m' → Traced comparison n' m') : Traced comparison n m := by
  obtain ⟨ended, diagnostics, log⟩ := tracedStep_beside comparison same takes
  rw [stepped] at ended
  obtain ⟨n', traced, coincide⟩ := ended.eq_ok
  have running' : n'.processor.state ≠ .halted := coincide.1 ▸ running
  rw [after_eq_of_ok traced] at diagnostics log
  have rest := onwards coincide
  have machines : visited comparison m = m :: visited comparison m' :=
    course_of_running stepped running (ends_ram comparison m')
  have looped := untilHalted_of_running traced running'
  have looped' := after_untilHalted_of_running traced running'
  have takes_iff : n.diagnostics.Takes (traceBytes (visited comparison m)) ↔
      n'.diagnostics.Takes (traceBytes (visited comparison m')) := by
    rw [machines, traceBytes_cons, Sink.takes_append_iff, diagnostics]
    exact and_iff_right takes
  constructor
  case diagnostics =>
    rw [looped', rest.diagnostics, diagnostics, machines, traceBytes_cons, Sink.accept_append]
  case same =>
    intro whole
    rw [looped, untilHalted_of_running stepped running]
    exact rest.same (takes_iff.mp whole)
  case log =>
    intro whole
    rw [looped', rest.log (takes_iff.mp whole), log, machines, List.flatMap_cons,
      List.append_assoc]
  case interrupted =>
    intro overflow
    obtain ⟨earlier, before, left, interrupted⟩ := rest.interrupted (mt takes_iff.mpr overflow)
    exact ⟨m :: earlier, before, left, interrupted.cons diagnostics takes machines looped⟩

/-- Traced loops are plain loops with their trace, as far as it goes. -/
theorem traced_of_coincide (comparison : Comparison) (same : Coincide n m) :
    Traced comparison n m := by
  -- The induction is on the plain loop, which goes on whatever becomes of the trace.
  induction ends_ram comparison m generalizing n with
  | @faulted m final fault failed =>
    by_cases takes : n.diagnostics.Takes m.lineBytes
    · apply Traced.of_last same takes
      intro value final' stepped
      cases failed.symm.trans stepped
    · exact .of_cut same takes
  | @halted m final executed stepped halted =>
    by_cases takes : n.diagnostics.Takes m.lineBytes
    · apply Traced.of_last same takes
      intro value final' stepped'
      cases stepped.symm.trans stepped'
      exact halted
    · exact .of_cut same takes
  | @running m m' executed stepped running later inductionHypothesis =>
    by_cases takes : n.diagnostics.Takes m.lineBytes
    · exact .of_running same takes stepped running inductionHypothesis
    · exact .of_cut same takes

/-- The sink takes the lines of the first `count` steps of a loop, and not that of the next one. -/
structure CutAt (comparison : Comparison) (sink : Sink) (m : Machine Ram Sink)
    (count : Nat) : Prop where
  inside : count < (visited comparison m).length
  taken : sink.Takes (traceBytes ((visited comparison m).take count))
  cut : ¬sink.Takes (traceBytes ((visited comparison m).take (count + 1)))

theorem stepped_of_split {earlier later : List (Machine Ram Sink)} {before : Machine Ram Sink}
    (split : visited comparison m = earlier ++ before :: later) :
    stepped comparison earlier.length m = before := by
  have inside : earlier.length < (visited comparison m).length := by
    rw [split, List.length_append, List.length_cons]
    omega
  have shown : (visited comparison m)[earlier.length]? = some before := by
    rw [split, List.getElem?_append_right (Nat.le_refl _), Nat.sub_self, List.getElem?_cons_zero]
  rw [visited_eq_stepped (ends_ram comparison m), List.getElem?_map,
    List.getElem?_range inside] at shown
  exact Option.some.inj shown

/-- A trace that is cut ends the traced loop after the steps whose lines were taken. -/
theorem exists_cutAt (same : Coincide n m)
    (cut : ¬n.diagnostics.Takes (traceBytes (visited comparison m))) :
    ∃ count left, CutAt comparison n.diagnostics m count ∧
      untilHalted (tracedStep comparison) n = .error (.output n.diagnostics.whenFull) left ∧
      Coincide left (stepped comparison count m) := by
  obtain ⟨earlier, before, left, ⟨later, split⟩, taken, cut, stopped, unmoved⟩ :=
    (traced_of_coincide comparison same).interrupted cut
  refine ⟨earlier.length, left, ⟨?_, ?_, ?_⟩, stopped, stepped_of_split split ▸ unmoved⟩
  · rw [split, List.length_append, List.length_cons]
    omega
  · rwa [split, List.take_left]
  · rwa [split, List.take_length_add_append, List.take_succ_cons, List.take_zero]

end Machine

end ByteMachine
