import ByteMachine.Proofs.Confinement
import ByteMachine.Proofs.Faults
import Mathlib.Data.Option.Basic

/-!
# Output that fails

A sink that takes only so many bytes, or that fails to flush, is compared with one that never fails.
Main statement: the two runs are the same, or the one with limits stops at the first line that its
sink does not take, with the machine as it is just before that line is printed.
-/

namespace ByteMachine

namespace Sink

/-- The bytes of lines that are printed one after the other. -/
def bytes (lines : List String) : List UInt8 := lines.flatMap Text.utf8Encode

/-- A sink that never fails, once these lines have been printed to it. -/
def holding (lines : List String) : Sink :=
  { accepted := (bytes lines).toArray, flushes := lines.length }

@[simp]
theorem bytes_append (lines rest : List String) :
    bytes (lines ++ rest) = bytes lines ++ bytes rest := List.flatMap_append

theorem bytes_singleton (line : String) : bytes [line] = Text.utf8Encode line :=
  List.flatMap_singleton _ _

theorem length_bytes_take_le (lines : List String) (count : Nat) :
    (bytes (lines.take count)).length ≤ (bytes lines).length := by
  have whole := congrArg (fun lines => (bytes lines).length) (List.take_append_drop count lines)
  simp only [bytes_append, List.length_append] at whole
  omega

theorem toArray_bytes_concat (lines : List String) (line : String) :
    (bytes lines).toArray ++ Text.utf8Encode line = (bytes (lines ++ [line])).toArray := by
  simp [bytes_singleton]

theorem print_holding (lines : List String) (line : String) :
    Writer.print (holding lines) line = (.ok (), holding (lines ++ [line])) := by
  have fits : (holding lines).fitting (Text.utf8Encode line) = Text.utf8Encode line := rfl
  rw [print_of_passing fits List.not_mem_nil]
  simp only [holding, toArray_bytes_concat, List.length_append, List.length_singleton]

/-- When a sink fails: past so many bytes, and at some of its flushes. -/
structure Limits where
  capacity : Nat
  whenFull : WriteError
  failingFlushes : List Nat

namespace Limits

variable {limits : Limits} {lines : List String} {line : String} {j : Nat}

/-- A sink that holds the same, under these limits. -/
def on (limits : Limits) (sink : Sink) : Sink :=
  { sink with
    capacity := some limits.capacity
    whenFull := limits.whenFull
    failingFlushes := limits.failingFlushes }

/-- All lines fit, and none of their flushes fails. -/
def Fits (limits : Limits) (lines : List String) : Prop :=
  (bytes lines).length ≤ limits.capacity ∧ ∀ j < lines.length, j ∉ limits.failingFlushes

/-- The sink runs full with this line, or fails to flush it. -/
def Breaks (limits : Limits) (lines : List String) (j : Nat) : Prop :=
  limits.capacity < (bytes (lines.take (j + 1))).length ∨ j ∈ limits.failingFlushes

/-- What goes wrong with this line, if it breaks a limit. -/
def cause (limits : Limits) (lines : List String) (j : Nat) : WriteError :=
  if limits.capacity < (bytes (lines.take (j + 1))).length then limits.whenFull else .flush

theorem breaks_append_iff (inside : j < lines.length) (rest : List String) :
    limits.Breaks (lines ++ rest) j ↔ limits.Breaks lines j := by
  rw [Breaks, Breaks, List.take_append_of_le_length inside]

theorem cause_append (inside : j < lines.length) (rest : List String) :
    limits.cause (lines ++ rest) j = limits.cause lines j := by
  rw [cause, cause, List.take_append_of_le_length inside]

theorem Fits.not_breaks (fits : limits.Fits lines) (inside : j < lines.length) :
    ¬limits.Breaks lines j := by
  rintro (full | failing)
  · exact absurd (Nat.le_trans (length_bytes_take_le lines (j + 1)) fits.1) (Nat.not_le.mpr full)
  · exact fits.2 j inside failing

theorem breaks_last_iff :
    limits.Breaks (lines ++ [line]) lines.length ↔
      limits.capacity < (bytes lines).length + (Text.utf8Encode line).length ∨
        lines.length ∈ limits.failingFlushes := by
  rw [Breaks, List.take_of_length_le (by simp), bytes_append, bytes_singleton, List.length_append]

theorem cause_last :
    limits.cause (lines ++ [line]) lines.length =
      if limits.capacity < (bytes lines).length + (Text.utf8Encode line).length
      then limits.whenFull else .flush := by
  rw [cause, List.take_of_length_le (by simp), bytes_append, bytes_singleton, List.length_append]

theorem Fits.concat (fits : limits.Fits lines)
    (unbroken : ¬limits.Breaks (lines ++ [line]) lines.length) : limits.Fits (lines ++ [line]) := by
  rw [breaks_last_iff, not_or] at unbroken
  constructor
  · rw [bytes_append, bytes_singleton, List.length_append]
    exact Nat.not_lt.mp unbroken.1
  · intro j inside
    rw [List.length_append, List.length_singleton, Nat.lt_succ_iff_lt_or_eq] at inside
    rcases inside with earlier | rfl
    · exact fits.2 j earlier
    · exact unbroken.2

theorem fitting_on (line : String) :
    (limits.on (holding lines)).fitting (Text.utf8Encode line) =
      (Text.utf8Encode line).take (limits.capacity - (bytes lines).length) := rfl

theorem fitting_on_of_room
    (room : (bytes lines).length + (Text.utf8Encode line).length ≤ limits.capacity) :
    (limits.on (holding lines)).fitting (Text.utf8Encode line) = Text.utf8Encode line := by
  rw [fitting_on]
  exact List.take_of_length_le (by omega)

theorem print_on_of_fits (fits : limits.Fits (lines ++ [line])) :
    Writer.print (limits.on (holding lines)) line =
      (.ok (), limits.on (holding (lines ++ [line]))) := by
  obtain ⟨room, flushed⟩ := fits
  rw [bytes_append, bytes_singleton, List.length_append] at room
  have passes : lines.length ∉ limits.failingFlushes := flushed _ (by simp)
  rw [print_of_passing (fitting_on_of_room room) passes]
  simp only [on, holding, toArray_bytes_concat, List.length_append, List.length_singleton]

theorem print_on_of_breaks (fits : limits.Fits lines)
    (broken : limits.Breaks (lines ++ [line]) lines.length) :
    (Writer.print (limits.on (holding lines)) line).1 =
        .error (limits.cause (lines ++ [line]) lines.length) ∧
      (Writer.print (limits.on (holding lines)) line).2.accepted.toList =
        (bytes (lines ++ [line])).take limits.capacity := by
  obtain ⟨held, -⟩ := fits
  rw [breaks_last_iff] at broken
  rw [cause_last, bytes_append, bytes_singleton]
  by_cases full : limits.capacity < (bytes lines).length + (Text.utf8Encode line).length
  · have cut : ((limits.on (holding lines)).fitting (Text.utf8Encode line)).length ≠
        (Text.utf8Encode line).length := by
      rw [fitting_on, List.length_take]
      omega
    rw [print_of_full cut, if_pos full]
    refine ⟨rfl, ?_⟩
    rw [accepted_accept, List.take_append, List.take_of_length_le held]
    rfl
  · have fails : lines.length ∈ limits.failingFlushes := broken.resolve_left full
    rw [print_of_fitting (fitting_on_of_room (Nat.not_lt.mp full)), if_neg full]
    refine ⟨if_pos fails, ?_⟩
    rw [List.take_of_length_le (by rw [List.length_append]; omega)]
    exact Array.toList_appendList

theorem fits_nil : limits.Fits [] :=
  ⟨Nat.zero_le _, fun _ inside => absurd inside (Nat.not_lt_zero _)⟩

/-- Whether lines fit shows in the sink that holds them. -/
theorem Fits.of_holding {lines' : List String} (fits : limits.Fits lines)
    (same : holding lines = holding lines') : limits.Fits lines' := by
  have count : lines.length = lines'.length := congrArg Sink.flushes same
  have size : (bytes lines).length = (bytes lines').length := congrArg (·.accepted.size) same
  rwa [Fits, ← count, ← size]

end Limits

end Sink

namespace Machine

variable {M : Type} [Memory M] [PlainMemory M] {comparison : Comparison} {limits : Sink.Limits}
  {m m' : Machine M Sink} {done : List String} {line : String}

/-- The line that the next step prints, where nothing fails. -/
def line? (m : Machine M Sink) : Option String := do
  let fetched ← (fetched? m.processor m.memory).toOption
  guard (fetched.opcode = Opcode.prn.byte)
  let value ← (m.processor.registers.read fetched.a).toOption
  return Text.decimal value.toNat ++ "\n"

/-- A machine that is about to print, with its line. -/
def printing? (m : Machine M Sink) : Option (Machine M Sink × String) := m.line?.map (m, ·)

/-- What a run prints where nothing fails. -/
def printings (comparison : Comparison) (m : Machine M Sink) : List (Machine M Sink × String) :=
  (course (step comparison) { m with output := {} }).filterMap printing?

def lines (comparison : Comparison) (m : Machine M Sink) : List String :=
  (printings comparison m).map Prod.snd

/-- What a line that breaks a limit leaves of the machine that was to print it: all but the state
and the bytes that were taken is as it was. -/
structure CutOff (limits : Sink.Limits) (lines : List String) (j : Nat)
    (before left : Machine M Sink) : Prop where
  processor : left.processor = { before.processor with state := .faulted }
  memory : left.memory = before.memory
  accepted : left.output.accepted.toList = (Sink.bytes lines).take
    (min limits.capacity (Sink.bytes (lines.take (j + 1))).length)

/-- With limits, this is the result: the machine stops at the first line that breaks one. -/
def Stops (comparison : Comparison) (limits : Sink.Limits) (m : Machine M Sink)
    (result : EStateM.Result Fault (Machine M Sink) Unit) : Prop :=
  ∃ j before line left, (m.printings comparison)[j]? = some (before, line) ∧
    limits.Breaks (m.lines comparison) j ∧
    (∀ i < j, ¬limits.Breaks (m.lines comparison) i) ∧
    result = .error (.output (limits.cause (m.lines comparison) j)) left ∧
    CutOff limits (m.lines comparison) j before left

theorem toOption_eq_some_iff {α : Type} {result : Except Fault α} {value : α} :
    result.toOption = some value ↔ result = .ok value := by
  cases result <;> simp [Except.toOption]

theorem line?_eq_some_iff (comparison : Comparison) :
    m.line? = some line ↔ planned comparison m = .ok (.instruction .prn, .print line) := by
  rw [planned_eq_print_iff]
  simp [line?, Option.bind_eq_some_iff, Option.guard_eq_some', toOption_eq_some_iff]

theorem output_after_step_of_silent (silent : m.line? = none) (comparison : Comparison) :
    (after (step comparison) m).output = m.output := by
  cases plans : planned comparison m with
  | error fault => exact (sameEnd_step_of_refused plans).after_of_error.2.2
  | ok chosen =>
    obtain ⟨executed, intent⟩ := chosen
    cases intent with
    | update p => exact (sameEnd_step_of_update plans).after_of_ok.2.2
    | print text =>
      obtain ⟨rfl, -⟩ := planned_eq_print_iff.mp plans
      cases silent.symm.trans ((line?_eq_some_iff comparison).mpr plans)
    | push value =>
      cases stored : PlainMemory.set m.memory (m.processor.stackPointer - 1).toNat value with
      | ok memory => exact (sameEnd_step_of_stored plans stored).after_of_ok.2.2
      | error fault => exact (sameEnd_step_of_unstored plans stored).after_of_error.2.2

/-- On a sink that never fails a step prints its line. -/
theorem output_after_step_of_holding (held : m.output = .holding done) (comparison : Comparison) :
    (after (step comparison) m).output = .holding (done ++ m.line?.toList) := by
  cases prints : m.line? with
  | none =>
    rw [output_after_step_of_silent prints, Option.toList_none, List.append_nil, held]
  | some line =>
    have plans := (line?_eq_some_iff comparison).mp prints
    have printed : Writer.print m.output line = (.ok (), .holding (done ++ [line])) := by
      rw [held, Sink.print_holding]
    have left := (sameEnd_step_of_printed plans (congrArg Prod.fst printed)).after_of_ok.2.2
    rw [left, printed, Option.toList_some]

theorem course_of_rounds {count : Nat} (rounds : Rounds (step comparison) count m m')
    (ends : Ends (step comparison) m') (held : m.output = .holding done) :
    ∃ begun, course (step comparison) m =
        begun ++ course (step comparison) m' ∧
      m'.output = .holding (done ++ begun.filterMap line?) := by
  induction rounds generalizing done with
  | refl => exact ⟨[], rfl, by simpa using held⟩
  | @cons _ m m₁ _ _ acted running rest inductionHypothesis =>
    have held₁ := output_after_step_of_holding held comparison
    rw [after_eq_of_ok acted] at held₁
    obtain ⟨begun, split, held'⟩ := inductionHypothesis ends held₁
    refine ⟨m :: begun, ?_, ?_⟩
    · rw [course_of_running acted running (rest.ends_iff.mpr ends), split, List.cons_append]
    · rw [held', List.append_assoc]
      cases prints : m.line? <;> simp [prints]

/-- What prints to a limited sink and what prints to a free one, as long as no limit is broken. -/
structure InPace (limits : Sink.Limits) (limited free : Sink) : Prop where
  limited_eq : limited = limits.on free
  held : ∃ lines, limits.Fits lines ∧ free = .holding lines

omit [Memory M] [PlainMemory M] in
theorem InPace.alike_print (text : String) :
    Alike (M := M) (N := M) (Paired Eq (InPace limits)) (fun fault _ => fault.IsOutput) (print text)
      (print text) := by
  intro m n related
  obtain ⟨limited, lines, fits, free⟩ := related.output
  simp only [print, toOutput, limited, free, Sink.print_holding]
  by_cases broken : limits.Breaks (lines ++ [text]) lines.length
  · rw [(Sink.Limits.print_on_of_breaks fits broken).1]
    exact .parted ⟨_, rfl⟩
  · have fits' := fits.concat broken
    rw [Sink.Limits.print_on_of_fits fits']
    exact .ok ⟨related.processor, related.memory, rfl, _, fits', rfl⟩

omit [PlainMemory M] in
theorem InPace.alike_step (comparison : Comparison) :
    Alike (M := M) (N := M) (Paired Eq (InPace limits)) (fun fault _ => fault.IsOutput)
      (step comparison) (step comparison) :=
  Paired.alike_step InPace.alike_print (fun _ fails => fails) comparison

theorem map_snd_filterMap_printing? (machines : List (Machine M Sink)) :
    (machines.filterMap printing?).map Prod.snd = machines.filterMap line? := by
  rw [List.map_filterMap]
  congr 1
  funext before
  rw [printing?, Option.map_map]
  exact Option.map_id'

theorem lines_eq (comparison : Comparison) (m : Machine M Sink) :
    m.lines comparison = (course (step comparison)
      { m with output := {} }).filterMap line? := map_snd_filterMap_printing? _

theorem getElem?_printings {begun rest : List (Machine M Sink)} {before : Machine M Sink}
    (split : course (step comparison) { m with output := {} } =
      begun ++ before :: rest) (prints : before.line? = some line) :
    (m.printings comparison)[(begun.filterMap line?).length]? = some (before, line) := by
  have printing : before.printing? = some (before, line) := by
    rw [printing?, prints, Option.map_some]
  have count := congrArg List.length (map_snd_filterMap_printing? begun)
  rw [List.length_map] at count
  rw [printings, split, List.filterMap_append, List.filterMap_cons_some printing, ← count,
    List.getElem?_append_right (Nat.le_refl _), Nat.sub_self, List.getElem?_cons_zero]

theorem lines_of_last {begun : List (Machine M Sink)} {last : Machine M Sink}
    (split : course (step comparison) { m with output := {} } =
      begun ++ course (step comparison) last)
    (ends : ∀ value final, step comparison last = .ok value final →
      final.processor.state = .halted) :
    m.lines comparison = begun.filterMap line? ++ last.line?.toList := by
  rw [lines_eq, split, course_of_last ends, List.filterMap_append]
  cases prints : last.line? <;> simp [prints]

theorem output_after_untilHalted (ends : Ends (step comparison) { m with output := {} }) :
    (after (untilHalted (step comparison)) { m with output := {} }).output =
      .holding (m.lines comparison) := by
  obtain ⟨count, last, rounds, ends⟩ := exists_last_round ends
  have fresh : ({ m with output := {} } : Machine M Sink).output = .holding [] := rfl
  obtain ⟨begun, split, held⟩ := course_of_rounds rounds (.of_last ends) fresh
  rw [List.nil_append] at held
  rw [after_untilHalted rounds ends, output_after_step_of_holding held, lines_of_last split ends]

theorem fits_of_matched {n : Machine M Sink} (held : n.output = .holding done)
    (matched : Matched (Paired Eq (InPace limits)) unparted (step comparison m)
      (step comparison n)) : limits.Fits (done ++ n.line?.toList) := by
  obtain ⟨-, lines, fits, free⟩ := matched.after.output
  exact fits.of_holding (free.symm.trans (output_after_step_of_holding held comparison))

omit [Memory M] [PlainMemory M] in
theorem CutOff.append {lines : List String} {j : Nat} {before left : Machine M Sink}
    (cut : CutOff limits lines j before left) (inside : j < lines.length) (rest : List String) :
    CutOff limits (lines ++ rest) j before left := by
  refine ⟨cut.processor, cut.memory, ?_⟩
  have short : min limits.capacity (Sink.bytes (lines.take (j + 1))).length ≤
      (Sink.bytes lines).length :=
    Nat.le_trans (Nat.min_le_right _ _) (Sink.length_bytes_take_le lines (j + 1))
  rw [cut.accepted, List.take_append_of_le_length inside, Sink.bytes_append,
    List.take_append_of_le_length short]

/-- Where a limit is broken, the step that does not see the limits goes on. -/
theorem broken_of_error {n left : Machine M Sink} {cause : WriteError}
    (related : Paired Eq (InPace limits) m n) (held : n.output = .holding done)
    (failed : step comparison m = .error (.output cause) left) (ends : Ends (step comparison) n) :
    ∃ line rest, n.line? = some line ∧
      course (step comparison) n = n :: rest ∧
      limits.Fits done ∧ limits.Breaks (done ++ [line]) done.length ∧
      cause = limits.cause (done ++ [line]) done.length ∧
      CutOff limits (done ++ [line]) done.length n left := by
  obtain ⟨line, plans, refused, processor, memory, output⟩ := step_output_error failed
  obtain ⟨limited, lines, fits, free⟩ := related.output
  have fits' : limits.Fits done := fits.of_holding (free.symm.trans held)
  rw [held] at limited
  have plans' : planned comparison n = .ok (.instruction .prn, .print line) := by
    rwa [planned, ← related.processor, ← related.memory]
  have printed : Writer.print n.output line = (.ok (), .holding (done ++ [line])) := by
    rw [held, Sink.print_holding]
  obtain ⟨n', stepped, same⟩ :=
    (sameEnd_step_of_printed plans' (congrArg Prod.fst printed)).eq_ok
  have running : n'.processor.state ≠ .halted := by
    rw [same.1]
    simp [Processor.past]
  have broken : limits.Breaks (done ++ [line]) done.length := by
    apply Classical.byContradiction
    intro unbroken
    rw [limited, Sink.Limits.print_on_of_fits (fits'.concat unbroken)] at refused
    cases refused
  obtain ⟨caused, accepted⟩ := Sink.Limits.print_on_of_breaks fits' broken
  have onwards : Ends (step comparison) n' :=
    (Rounds.cons stepped running (.refl n')).ends_iff.mp ends
  refine ⟨line, _, (line?_eq_some_iff comparison).mpr plans',
    course_of_running stepped running onwards, fits', broken, ?_, ?_, ?_, ?_⟩
  · rw [limited, caused] at refused
    exact (Except.error.inj refused).symm
  · rw [processor, related.processor]
  · rw [memory, related.memory]
  · rw [output, limited, List.take_of_length_le (l := done ++ [line]) (by simp),
      ← List.take_eq_take_min]
    exact accepted

/-- Where a loop with limits and a loop without them are, side by side, when the first of them comes
to its last round: `begun` are the machines that the second one has passed. -/
structure LastRound (comparison : Comparison) (limits : Sink.Limits) (m : Machine M Sink)
    (begun : List (Machine M Sink)) (last last' : Machine M Sink) : Prop where
  limited : ∃ count, Rounds (step comparison) count { m with output := limits.on {} } last
  free : ∃ count, Rounds (step comparison) count { m with output := {} } last'
  onwards : Ends (step comparison) last'
  ends : ∀ value final, step comparison last = .ok value final → final.processor.state = .halted
  related : Paired Eq (InPace limits) last last'
  split : course (step comparison) { m with output := {} } =
    begun ++ course (step comparison) last'
  held : last'.output = .holding (begun.filterMap line?)

theorem exists_lastRound (limits : Sink.Limits)
    (onwards : Ends (step comparison) { m with output := {} }) : ∃ begun last last',
    LastRound comparison limits m begun last last' := by
  have start : Paired Eq (InPace limits) { m with output := limits.on {} }
      { m with output := {} } := ⟨rfl, rfl, rfl, [], Sink.Limits.fits_nil, rfl⟩
  obtain ⟨count, last, rounds, ends⟩ :=
    exists_last_round (onwards.of_alike Paired.agree (InPace.alike_step comparison) start)
  obtain ⟨last', rounds', related⟩ :=
    rounds.transfer Paired.agree (InPace.alike_step comparison) start
  have fresh : ({ m with output := {} } : Machine M Sink).output = .holding [] := rfl
  have rest := rounds'.ends_iff.mp onwards
  obtain ⟨begun, split, held⟩ := course_of_rounds rounds' rest fresh
  exact ⟨begun, last, last', ⟨count, rounds⟩, ⟨count, rounds'⟩, rest, ends, related, split, held⟩

namespace LastRound

variable {begun : List (Machine M Sink)} {last last' left : Machine M Sink}

/-- The last rounds end alike: then no line has broken a limit, and the loops end alike. -/
theorem same (round : LastRound comparison limits m begun last last')
    (matched : Matched (Paired Eq (InPace limits)) unparted (step comparison last)
      (step comparison last')) :
    limits.Fits (m.lines comparison) ∧
      Matched (Paired Eq fun limited free => limited = limits.on free) unparted
        (untilHalted (step comparison) { m with output := limits.on {} })
        (untilHalted (step comparison) { m with output := {} }) := by
  constructor
  · rw [lines_of_last round.split ((matched.last_iff Paired.agree).mp round.ends)]
    exact fits_of_matched round.held matched
  · obtain ⟨_, rounds⟩ := round.limited
    obtain ⟨_, rounds'⟩ := round.free
    apply (matched_untilHalted Paired.agree rounds rounds' round.ends matched).imp _ id
    exact fun same => ⟨same.processor, same.memory, same.output.limited_eq⟩

/-- The round with limits fails to print: then the loop without them goes on, past a line that is
the first to break one. -/
theorem stops {cause : WriteError} (round : LastRound comparison limits m begun last last')
    (failed : step comparison last = .error (.output cause) left) :
    Stops comparison limits m (untilHalted (step comparison)
      { m with output := limits.on {} }) := by
  obtain ⟨line, rest, prints, onwards, fits, broken, rfl, cut⟩ :=
    broken_of_error round.related round.held failed round.onwards
  have split := round.split
  rw [onwards] at split
  have all : m.lines comparison = (begun.filterMap line? ++ [line]) ++ rest.filterMap line? := by
    rw [lines_eq, split, List.filterMap_append, List.filterMap_cons_some prints,
      List.append_assoc, List.singleton_append]
  have inside : (begun.filterMap line?).length < (begun.filterMap line? ++ [line]).length := by
    simp
  refine ⟨(begun.filterMap line?).length, last', line, left, ?_, ?_, ?_, ?_, ?_⟩
  · exact getElem?_printings split prints
  · rwa [all, Sink.Limits.breaks_append_iff inside]
  · intro i earlier
    rw [all, List.append_assoc, Sink.Limits.breaks_append_iff earlier]
    exact fits.not_breaks earlier
  · obtain ⟨_, rounds⟩ := round.limited
    rw [untilHalted_of_rounds rounds, untilHalted_of_error failed, all,
      Sink.Limits.cause_append inside]
  · rw [all]
    exact cut.append inside _

end LastRound

theorem Stops.not_fits {result : EStateM.Result Fault (Machine M Sink) Unit}
    (stops : Stops comparison limits m result) : ¬limits.Fits (m.lines comparison) := by
  obtain ⟨j, before, line, left, printing, broken, -⟩ := stops
  have inside : j < (m.lines comparison).length := by
    rw [lines, List.length_map]
    exact (List.getElem?_eq_some_iff.mp printing).1
  exact fun fits => fits.not_breaks inside broken

/-- What is recorded about a loop does not matter to where it stops. -/
theorem Stops.run (running : m.processor.state ≠ .halted)
    (ends : Ends (step comparison) { m with output := limits.on {} })
    (stops : Stops comparison limits m (untilHalted (step comparison)
      { m with output := limits.on {} })) :
    Stops comparison limits m (Machine.run comparison { m with output := limits.on {} }) := by
  obtain ⟨j, before, line, left, printing, broken, first, ended, cut⟩ := stops
  have whole := sameEnd_run ends running
  rw [ended] at whole
  obtain ⟨left', ran, same⟩ := whole.eq_error
  refine ⟨j, before, line, left', printing, broken, first, ran, ?_, ?_, ?_⟩
  · rw [same.1, cut.processor]
  · rw [same.2.1, cut.memory]
  · rw [same.2.2, cut.accepted]

/-- What limits on its output make of a run. -/
structure Truncated (comparison : Comparison) (limits : Sink.Limits)
    (m : Machine M Sink) : Prop where
  /-- Without limits the run prints all of its lines. -/
  unlimited : (after (run comparison) { m with output := {} }).output.accepted.toList =
    Sink.bytes (m.lines comparison)
  same : limits.Fits (m.lines comparison) →
    Matched (Paired Eq fun limited free => limited = limits.on free) unparted
      (run comparison { m with output := limits.on {} }) (run comparison { m with output := {} })
  stops : ¬limits.Fits (m.lines comparison) →
    Stops comparison limits m (run comparison { m with output := limits.on {} })

theorem truncated (running : m.processor.state ≠ .halted)
    (ends : Ends (step comparison) { m with output := {} }) (limits : Sink.Limits) :
    Truncated comparison limits m := by
  obtain ⟨begun, last, last', round⟩ := exists_lastRound limits ends
  have ends' : Ends (step comparison) { m with output := limits.on {} } := by
    obtain ⟨_, rounds⟩ := round.limited
    exact rounds.ends_iff.mpr (.of_last round.ends)
  have ended := (InPace.alike_step comparison round.related).unparted_or
  constructor
  case unlimited =>
    have whole := sameEnd_run ends running
    rw [whole.after.2.2, output_after_untilHalted ends]
    rfl
  case same =>
    intro fits
    rcases ended with matched | ⟨fault, left, failed, cause, rfl⟩
    · exact matched_run Paired.unseen ends' ends running running (round.same matched).2
    · exact absurd fits (round.stops failed).not_fits
  case stops =>
    intro overflow
    rcases ended with matched | ⟨fault, left, failed, cause, rfl⟩
    · exact absurd (round.same matched).1 overflow
    · exact (round.stops failed).run running ends'

/-- An output that fails truncates what is printed, and does nothing else, on the machine's own
memory and wherever the run would end without it. -/
theorem failing_output_truncates (comparison : Comparison) (limits : Sink.Limits) :
    (∀ m : Machine Ram Sink, m.processor.state ≠ .halted → Truncated comparison limits m) ∧
    ∀ {M : Type} [Memory M] [PlainMemory M] (m : Machine M Sink), m.processor.state ≠ .halted →
      Ends (step comparison) { m with output := {} } → Truncated comparison limits m :=
  ⟨fun _ running => truncated running (ends_ram comparison _) limits,
    fun _ running ends => truncated running ends limits⟩

/-- The third byte is the last one taken: a zero that was to end a second line. -/
theorem failing_output_truncates_third_byte :
    let ram : Ram := Bank.ofImagePrefix [0x47, 0, 0x47, 0, 1]
    let m : Machine Ram Sink := { memory := ram, output := {}, diagnostics := {} }
    let limits : Sink.Limits := { capacity := 3, whenFull := .incomplete, failingFlushes := [] }
    m.processor.state ≠ .halted ∧ Truncated .contents limits m ∧
      ¬limits.Fits (m.lines .contents) ∧
      (after (run .contents) { m with output := limits.on {} }).output.accepted =
        #[48, 10, 48] := by
  intro ram m limits
  have running : m.processor.state ≠ .halted := by decide
  have lines : m.lines .contents = ["0\n", "0\n"] := by
    simp only [lines_eq, course_ram]
    decide +kernel
  refine ⟨running, (failing_output_truncates .contents limits).1 m running, ?_, ?_⟩
  · rintro ⟨room, -⟩
    rw [lines] at room
    exact absurd room (by decide +kernel)
  · simp only [run_ram]
    decide +kernel

end Machine

end ByteMachine
