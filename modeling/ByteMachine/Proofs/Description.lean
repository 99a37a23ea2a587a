import ByteMachine.CommandLine.Execution
import ByteMachine.Conformance.Suite
import ByteMachine.Proofs.LastComparison
import ByteMachine.Proofs.Numerals
import ByteMachine.Proofs.Resumption

/-!
# What a description tells

The text that shows a processor has words for its program counter, its flags and its registers. Of
the flags it shows three bits, which is all that a history of comparisons can leave there. Main
statement: two processors with any histories are shown by the same text, alone or within the report
of a fault, exactly if they agree in all that the text is about.
-/

namespace ByteMachine

/-- The flags before any comparison and those that comparisons set. -/
def Flags.settled : List UInt8 := [0, equal, greater, less]

/-- Comparisons leave nothing in the flags but their own settings. -/
theorem FlagsAfter.mem_settled {comparison : Comparison} {attempts : List Attempt} {flags : UInt8}
    (after : FlagsAfter comparison 0 attempts flags) : flags ∈ Flags.settled := by
  cases after with
  | kept _ => decide
  | told _ orders _ =>
    obtain ⟨fetched, x, y, -, -, told⟩ := orders
    cases told <;> decide

theorem History.flags_mem_settled {overflow : Overflow} {comparison : Comparison}
    {events : List Event} (completes : Completes overflow comparison events) :
    (ofEvents comparison events).processor.flags ∈ Flags.settled := by
  have powerOn : FlagsAfter comparison 0 [] Processor.powerOn.flags := .kept nofun
  exact ((Machine.preserved_flags comparison 0).ofEvents powerOn completes).mem_settled

namespace Processor

variable {p q : Processor}

section Words

/-- What stands before each value of a description. -/
def labels : List (List Char) :=
  ["PC:", "FL:", "R0:", "R1:", "R2:", "R3:", "R4:", "R5:", "R6:", "SP:"].map String.toList

/-- The values that a description shows. -/
def shownValues (p : Processor) : List (List Char) :=
  Text.numeral 16 2 p.pc :: p.flagLetters.toList ::
    p.registers.toList.map (Text.numeral 16 2 ·.toNat)

def labelled (labels values : List (List Char)) : List (List Char) :=
  (labels.zip values).map fun (label, value) => label ++ value

/-- Values can be read back from where they stand behind their labels. -/
theorem labelled_inj {labels values values' : List (List Char)}
    (complete : values.length = labels.length) (complete' : values'.length = labels.length) :
    labelled labels values = labelled labels values' ↔ values = values' := by
  refine ⟨fun same => ?_, congrArg _⟩
  induction labels generalizing values values' with
  | nil => rw [List.eq_nil_of_length_eq_zero complete, List.eq_nil_of_length_eq_zero complete']
  | cons label labels inductionHypothesis =>
    obtain ⟨value, values, rfl⟩ := List.exists_cons_of_length_eq_add_one complete
    obtain ⟨value', values', rfl⟩ := List.exists_cons_of_length_eq_add_one complete'
    obtain ⟨first, later⟩ := List.cons.inj same
    rw [List.append_cancel_left first,
      inductionHypothesis (Nat.succ.inj complete) (Nat.succ.inj complete') later]

def descriptionWords (p : Processor) : List (List Char) := labelled labels p.shownValues

theorem length_shownValues (p : Processor) : p.shownValues.length = labels.length := by
  simp [shownValues, labels]

theorem toList_registers (registers : Registers) : registers.toList =
    [registers[0], registers[1], registers[2], registers[3], registers[4], registers[5],
      registers[6], registers.get Registers.stackPointer] := by
  have cells : Vector.ofFn (fun r => registers[r.val]) = registers := Vector.ofFn_getElem
  rw [← cells, Vector.toList_ofFn]
  simp only [List.ofFn_succ]
  rfl

/-- With a blank in front of the text there is one before each of its words. -/
theorem toList_describe (p : Processor) :
    ' ' :: p.describe.toList = p.descriptionWords.flatMap (' ' :: ·) := by
  unfold describe
  rw [descriptionWords, shownValues, toList_registers, stackPointer]
  simp only [String.toList_append, Text.toList_hex, Text.hexByte, labels, labelled, List.map_cons,
    List.map_nil, List.zip_cons_cons, List.zip_nil_right, List.flatMap_cons, List.flatMap_nil,
    List.append_assoc, List.cons_append, List.append_nil]
  rfl

/-- What separates the words of a description and what it is put in are in none of them. -/
theorem not_mem_descriptionWords {c : Char} (around : c = ' ' ∨ c = '(' ∨ c = ')')
    (p : Processor) : ∀ word ∈ p.descriptionWords, c ∉ word := by
  have digits : ∀ digit < 16, (Nat.digitChar digit).toUpper ≠ c := by
    rcases around with rfl | rfl | rfl <;> decide
  have numeral (width n : Nat) : c ∉ Text.numeral 16 width n :=
    Text.not_mem_numeral (by decide) digits width n
  have letters : c ∉ p.flagLetters.toList := by
    simp only [flagLetters, flagLetter]
    rcases around with rfl | rfl | rfl <;> split_ifs <;> decide
  have values : ∀ value ∈ p.shownValues, c ∉ value := by simp [shownValues, numeral, letters]
  have named : ∀ label ∈ labels, c ∉ label := by
    rcases around with rfl | rfl | rfl <;> decide
  intro word among
  obtain ⟨⟨label, value⟩, pair, rfl⟩ := List.mem_map.mp among
  obtain ⟨labels, shown⟩ := List.of_mem_zip pair
  exact List.not_mem_append (named label labels) (values value shown)

theorem not_mem_describe {c : Char} (bracket : c = '(' ∨ c = ')') (p : Processor) :
    c ∉ p.describe.toList := by
  have other : c ≠ ' ' := by rcases bracket with rfl | rfl <;> decide
  have words := not_mem_descriptionWords (.inr bracket) p
  have spread : c ∉ ' ' :: p.describe.toList := by
    rw [toList_describe]
    simpa [other] using words
  exact fun within => spread (List.mem_cons_of_mem _ within)

/-- Among settled flags no two have the same letters. -/
theorem flagLetters_inj (settled : p.flags ∈ Flags.settled) (settled' : q.flags ∈ Flags.settled) :
    p.flagLetters = q.flagLetters ↔ p.flags = q.flags := by
  have letters (p : Processor) :
      p.flagLetters = { powerOn with flags := p.flags }.flagLetters := rfl
  have apart : ∀ flags ∈ Flags.settled, ∀ flags' ∈ Flags.settled,
      { powerOn with flags }.flagLetters = { powerOn with flags := flags' }.flagLetters →
        flags = flags' := by decide +kernel
  constructor
  · intro same
    rw [letters p, letters q] at same
    exact apart p.flags settled q.flags settled' same
  · intro same
    rw [letters p, letters q, same]

end Words

/-- What the text of a processor is about is the same. -/
def Resembles (p q : Processor) : Prop :=
  p.pc = q.pc ∧ p.flags = q.flags ∧ p.registers = q.registers

/-- A description is read back as what it was made of. -/
theorem describe_inj (settled : p.flags ∈ Flags.settled) (settled' : q.flags ∈ Flags.settled) :
    p.describe = q.describe ↔ p.Resembles q := by
  have split (p : Processor) :
      Text.split ' ' (' ' :: p.describe.toList) = [] :: p.descriptionWords := by
    rw [toList_describe]
    exact Text.split_flatMap_cons List.not_mem_nil (not_mem_descriptionWords (.inl rfl) p)
  calc p.describe = q.describe
    _ ↔ p.descriptionWords = q.descriptionWords := by
      constructor
      · intro same
        have words := split p
        rw [same, split q] at words
        exact (List.cons.inj words).2.symm
      · intro same
        have texts := toList_describe p
        rw [same, ← toList_describe] at texts
        exact String.toList_inj.mp (List.cons.inj texts).2
    _ ↔ p.shownValues = q.shownValues := labelled_inj p.length_shownValues q.length_shownValues
    _ ↔ p.Resembles q := by
      rw [shownValues, shownValues, List.cons.injEq, List.cons.injEq, String.toList_inj,
        flagLetters_inj settled settled',
        (Text.numeral_injective (by decide) (by decide) 2).eq_iff,
        (List.map_injective_iff.mpr Text.byteNumeral_injective).eq_iff, Vector.toList_inj,
        Resembles]

/-- Other flags would not be told apart, as no other bit of them is shown. -/
example : { powerOn with flags := 8 }.describe = powerOn.describe := by decide +kernel

end Processor

/-- A text that ends in brackets tells what is within them, and what is before them. -/
theorem Text.bracketed_inj {before before' inner inner' : String} (plain : '(' ∉ inner.toList)
    (plain' : '(' ∉ inner'.toList) :
    before ++ " (" ++ inner ++ ")" = before' ++ " (" ++ inner' ++ ")" ↔
      before = before' ∧ inner = inner' := by
  have closed {inner : String} (plain : '(' ∉ inner.toList) : '(' ∉ inner.toList ++ [')'] :=
    List.not_mem_append plain (by decide)
  have last : (before.toList ++ [' ']) ++ '(' :: (inner.toList ++ [')']) =
        (before'.toList ++ [' ']) ++ '(' :: (inner'.toList ++ [')']) ↔
      before.toList ++ [' '] = before'.toList ++ [' '] ∧
        inner.toList ++ [')'] = inner'.toList ++ [')'] :=
    append_cons_inj_last (closed plain) (closed plain')
  simpa [← String.toList_inj] using last

section Texts

open Machine CommandLine

/-- What the texts that show two processors tell about them. -/
structure TextsTell (p q : Processor) : Prop where
  described : p.describe = q.describe ↔ p.Resembles q
  shown {M N V W : Type} (m : Machine M V) (n : Machine N W) : m.processor = p → n.processor = q →
    (m.showProcessor = n.showProcessor ↔ p.Resembles q)
  /-- The program is told too, whatever characters its path is made of. -/
  faulted (program program' : String) (m n : Computer) : m.processor = p → n.processor = q →
    (faultContext program m = faultContext program' n ↔ program = program' ∧ p.Resembles q)
  /-- So is the cause, once the program is known. -/
  reported (program : String) (fault fault' : Fault) (m n : Computer) :
    m.processor = p → n.processor = q →
      (CommandLine.failure (faultContext program m :: fault.chain) =
          CommandLine.failure (faultContext program n :: fault'.chain) ↔
        p.Resembles q ∧
          String.intercalate ": " fault.chain = String.intercalate ": " fault'.chain)
  failed (fault fault' : Fault) :
    (Conformance.Failure.faulted fault p).message =
        (Conformance.Failure.faulted fault' q).message ↔
      fault.message = fault'.message ∧ p.Resembles q

variable {p q : Processor}

theorem textsTell (settled : p.flags ∈ Flags.settled) (settled' : q.flags ∈ Flags.settled) :
    TextsTell p q := by
  have described := Processor.describe_inj settled settled'
  have showed {M W : Type} (m : Machine M W) :
      '(' ∉ m.showProcessor.toList ∧ ')' ∉ m.showProcessor.toList := by
    simp [showProcessor, Processor.not_mem_describe]
  have shown {M N V W : Type} (m : Machine M V) (n : Machine N W) (processor : m.processor = p)
      (processor' : n.processor = q) : m.showProcessor = n.showProcessor ↔ p.Resembles q := by
    rw [showProcessor, showProcessor, String.append_right_inj, processor, processor', described]
  constructor
  case described => exact described
  case shown => exact shown
  case faulted =>
    intro program program' m n processor processor'
    have bracketed (program : String) (m : Computer) :
        faultContext program m = program ++ " faulted" ++ " (" ++ m.showProcessor ++ ")" := by
      simp [faultContext, String.append_assoc]
    rw [bracketed, bracketed, Text.bracketed_inj (showed m).1 (showed n).1, String.append_left_inj,
      shown m n processor processor']
  case reported =>
    intro program fault fault' m n processor processor'
    have split (fault : Fault) (m : Computer) :
        (String.intercalate ": " (faultContext program m :: fault.chain)).toList =
          (program ++ " faulted (").toList ++ (m.showProcessor.toList ++
            ')' :: (": ".toList ++ (String.intercalate ": " fault.chain).toList)) := by
      rw [Fault.chain, String.intercalate_cons_cons]
      simp [faultContext]
    rw [CommandLine.failure, CommandLine.failure, Log.Entry.message.injEq, ← String.toList_inj,
      split, split, List.append_cancel_left_eq,
      Text.append_cons_inj_first (showed m).2 (showed n).2, List.append_cancel_left_eq,
      String.toList_inj, String.toList_inj, shown m n processor processor']
    simp only [true_and]
  case failed =>
    intro fault fault'
    have plain (p : Processor) : '(' ∉ p.describe.toList := p.not_mem_describe (.inl rfl)
    rw [Conformance.Failure.message, Conformance.Failure.message,
      Text.bracketed_inj (plain p) (plain q), described]

end Texts

namespace History

variable {overflow : Overflow} {comparison : Comparison} {events : List Event} {M W : Type}

/-- More events lead to the processor, and all of them come to an end. -/
def LeadsTo (overflow : Overflow) (comparison : Comparison) (events : List Event) (p : Processor) :
    Prop :=
  ∃ later, Completes overflow comparison (events ++ later) ∧
    (ofEvents comparison (events ++ later)).processor = p

theorem LeadsTo.operation [Memory M] [Writer W] {m : Machine M W}
    (led : LeadsTo overflow comparison events m.processor) {op : Operation}
    (completes : op.Completes overflow comparison m) :
    LeadsTo overflow comparison events (Machine.after (op.carryOut comparison) m).processor := by
  obtain ⟨later, completed, processor⟩ := led
  refine ⟨later ++ [.operation op m.memory m.output m.diagnostics m.log], ?_, ?_⟩
  · rw [← List.append_assoc]
    refine completed.concat ?_
    rw [← ofEvents, EventCompletes, processor]
    exact completes
  · rw [← List.append_assoc, ofEvents, List.foldl_concat, ← ofEvents, extend, processor]

/-- A computer runs by operations on its processor, traced or not. -/
theorem LeadsTo.call {m : Computer} (led : LeadsTo overflow comparison events m.processor)
    (call : Computer.Call) :
    LeadsTo overflow comparison events (Machine.after (call.action comparison) m).processor := by
  let made : Computer.TracedCall := ⟨call, m.diagnostics⟩
  change LeadsTo overflow comparison events (Machine.after (made.action comparison) m).processor
  by_cases halted : m.processor.state = .halted
  · rwa [(Computer.call_of_halted made halted).after_of_ok.1]
  · -- A call that its trace stops has still taken whole steps; any other ends as a run does.
    rcases Computer.call_cases made halted with
      ⟨cause, m', stopped, count, last, rounds, same⟩ | whole
    · rw [Machine.after_eq_of_error stopped, same.1]
      refine rounds.invariant (P := fun m => LeadsTo overflow comparison events m.processor) ?_ led
      intro m m' executed led stepped _
      have onwards := led.operation (Operation.completes_of_confined (.ram m) .step)
      rwa [Operation.carryOut, map_eq_pure_bind, Machine.after_answer,
        Machine.after_eq_of_ok stepped] at onwards
    · have plain := whole.trans (Machine.sameEnd_run (Machine.ends_ram comparison m) halted).symm
      have onwards := led.operation (Operation.completes_of_confined (.ram m) .run)
      rwa [Operation.carryOut, Machine.after_answer _ fun _ => .done, ← plain.after.1] at onwards

end History

/-- What the texts tell that show processors with histories. -/
structure DescriptionsTell (overflow overflow' : Overflow) (comparison comparison' : Comparison) :
    Prop where
  histories (events events' : List Event) : History.Completes overflow comparison events →
    History.Completes overflow' comparison' events' →
    TextsTell (History.ofEvents comparison events).processor
      (History.ofEvents comparison' events').processor
  /-- The flags are told exactly, by three of their bits. -/
  flags (events events' : List Event) : History.Completes overflow comparison events →
    History.Completes overflow' comparison' events' →
    ((History.ofEvents comparison events).processor.flagLetters =
        (History.ofEvents comparison' events').processor.flagLetters ↔
      (History.ofEvents comparison events).processor.flags =
        (History.ofEvents comparison' events').processor.flags)
  /-- What a call leaves behind is a processor with a history. -/
  calls (events : List Event) (call : Computer.Call) (m : Computer) :
    History.Completes overflow comparison events →
    m.processor = (History.ofEvents comparison events).processor →
      History.LeadsTo overflow comparison events
        (Machine.after (call.action comparison) m).processor

/-- Processors with any histories are shown alike exactly if they have the same program counter, the
same flags and the same registers. -/
theorem History.descriptions_tell_apart (overflow overflow' : Overflow)
    (comparison comparison' : Comparison) :
    DescriptionsTell overflow overflow' comparison comparison' := by
  constructor
  case histories =>
    exact fun events events' completes completes' => textsTell (flags_mem_settled completes)
      (flags_mem_settled completes')
  case flags =>
    exact fun events events' completes completes' =>
      Processor.flagLetters_inj (flags_mem_settled completes) (flags_mem_settled completes')
  case calls =>
    intro events call m completes processor
    have reached : LeadsTo overflow comparison events m.processor := by
      refine ⟨[], ?_, ?_⟩
      · rwa [List.append_nil]
      · rw [List.append_nil, processor]
    exact reached.call call

/-- One has compared before it faulted at the end of its memory, the other has not. -/
theorem History.descriptions_tell_apart_compared :
    let asked (op : Operation) (image : List UInt8) : Event :=
      .operation op (HostMemory.ofSize 6 image) ({} : Sink) {} #[]
    let compared := [asked .run [0x82, 0, 8, 0xA7, 0, 1]]
    let loaded := [asked .run [0x82, 0, 8], asked .reset [], asked (.setRegister 0 8) []]
    Completes .aborts .contents compared ∧ Completes .wraps .indices loaded ∧
      TextsTell (ofEvents .contents compared).processor (ofEvents .indices loaded).processor := by
  intro asked compared loaded
  have small (image : List UInt8) : (HostMemory.ofSize 6 image).size ≤ 65532 :=
    (by decide : 6 ≤ 65532)
  have completes : Completes .aborts .contents compared :=
    completes_of_confined (by simp [compared, asked, Event.Confined, Machine.Confined.host, small])
  have completes' : Completes .wraps .indices loaded :=
    completes_of_confined (by simp [loaded, asked, Event.Confined, Machine.Confined.host, small])
  exact ⟨completes, completes',
    (descriptions_tell_apart .aborts .wraps .contents .indices).histories compared loaded completes
      completes'⟩

end ByteMachine
