import ByteMachine.Machine.Report
import ByteMachine.Machine.Trace
import ByteMachine.Proofs.Numerals
import ByteMachine.Text.Lines
import Mathlib.Data.List.Forall2

/-!
# What messages and trace lines say

The messages of the processor and the lines of a trace word by word, with the numerals and names
that stand in them. Main statements: each report is worded as it should be, and its words tell what
it reports; and so it is with a trace line and the machine that it shows.
-/

namespace ByteMachine.Machine

open Text

/-- What the processor tells of its execution. -/
inductive Told where
  | running (pc : Nat)
  | halted (pc executed : Nat)
  | faulted (pc : Nat) (fault : Fault)
  /-- The byte at the program counter encodes no instruction. -/
  | skipped (pc : Nat) (byte : UInt8)
  | fetched (pc : Nat) (opcode : Opcode) (a b : UInt8)
  deriving DecidableEq

/-- The names of the instructions. -/
def mnemonics : List (Opcode × String) :=
  [(.hlt, "HLT"), (.push, "PUSH"), (.pop, "POP"), (.prn, "PRN"), (.ldi, "LDI"), (.alu .add, "ADD"),
    (.alu .sub, "SUB"), (.alu .mul, "MUL"), (.alu .div, "DIV"), (.alu .cmp, "CMP")]

/-- What is between the blanks of the text of a fault. -/
inductive FaultWords : Fault → List (List Char) → Prop where
  | addressing {address : Nat} {digits : List Char} : IsNumeralOf 16 4 address digits →
      FaultWords (.addressing address) ["address".toList, '0' :: 'x' :: digits, "is".toList,
        "outside".toList, "of".toList, "memory".toList]
  | register {index : UInt8} {digits : List Char} : IsNumeralOf 10 1 index.toNat digits →
      FaultWords (.register index)
        ["register".toList, 'R' :: digits, "does".toList, "not".toList, "exist".toList]
  | divisionByZero : FaultWords .divisionByZero ["division".toList, "by".toList, "zero".toList]
  | output {cause : WriteError} : FaultWords (.output cause)
      ["could".toList, "not".toList, "write".toList, "program".toList, "output".toList]

namespace Told

def level : Told → Log.Level
  | running _ | halted _ _ | faulted _ _ => .debug
  | skipped _ _ => .warn
  | fetched _ _ _ _ => .trace

/-- What is between the blanks of a message. Addresses and operands are hexadecimal, the byte that
is skipped is binary, and what is counted is decimal. -/
inductive Words : Told → List (List Char) → Prop where
  | running {pc : Nat} {here : List Char} : IsNumeralOf 16 2 pc here →
      Words (.running pc) ["Running".toList, "from".toList, here]
  | halted {pc executed : Nat} {here count : List Char} : IsNumeralOf 16 2 pc here →
      IsNumeralOf 10 1 executed count →
      Words (.halted pc executed) ["Halted".toList, "at".toList, here, "after".toList, count,
        "instructions".toList]
  | faulted {pc : Nat} {fault : Fault} {here : List Char} {cause : List (List Char)} :
      IsNumeralOf 16 2 pc here → FaultWords fault cause →
      Words (.faulted pc fault) ("Faulted".toList :: "at".toList :: (here ++ [':']) :: cause)
  | skipped {pc : Nat} {byte : UInt8} {here bits length : List Char} : IsNumeralOf 16 2 pc here →
      IsNumeralOf 2 8 byte.toNat bits → IsNumeralOf 10 1 (instructionLength byte) length →
      Words (.skipped pc byte) ["Unknown".toList, "opcode".toList, bits, "at".toList,
        here ++ [','], "skipping".toList, length, "byte(s)".toList]
  | fetched {pc : Nat} {opcode : Opcode} {a b : UInt8} {here first second : List Char}
      {name : String} : IsNumeralOf 16 2 pc here → (opcode, name) ∈ mnemonics →
      IsNumeralOf 16 2 a.toNat first → IsNumeralOf 16 2 b.toNat second →
      Words (.fetched pc opcode a b) [here ++ [':'], name.toList, first, second]

/-- The entry is a message of the processor that says this, at the level that is due to it. -/
def SaidIn (told : Told) (entry : Log.Entry) : Prop :=
  ∃ text, entry = .message told.level .processor text ∧ told.Words (split ' ' text.toList)

def entry : Told → Log.Entry
  | running pc => Report.running pc
  | halted pc executed => Report.halted pc executed
  | faulted pc fault => Report.faulted pc fault
  | skipped pc byte => Report.unknownOpcode pc byte
  | fetched pc opcode a b => Report.decoded pc opcode a b

end Told

section Reports

theorem split_words (word : List Char) (words : List (List Char)) {text : List Char}
    (joined : text = word ++ words.flatMap (' ' :: ·))
    (solid : ∀ piece ∈ word :: words, ' ' ∉ piece) :
    split ' ' text = word :: words := by
  obtain ⟨first, later⟩ := List.forall_mem_cons.mp solid
  rw [joined]
  exact split_flatMap_cons first later

theorem blank_not_mem_numeral (base : Nat) (positional : 1 < base) (hexadecimal : base ≤ 16)
    (width n : Nat) : ' ' ∉ numeral base width n := by
  apply not_mem_numeral positional
  intro digit below
  have each : ∀ digit < 16, (Nat.digitChar digit).toUpper ≠ ' ' := by decide
  exact each digit (by omega)

theorem isNumeralOf_hex (n : Nat) {width : Nat} (positive : 0 < width) :
    IsNumeralOf 16 width n (numeral 16 width n) :=
  isNumeralOf_numeral (by decide) (by decide) positive n

theorem isNumeralOf_decimal (n : Nat) : IsNumeralOf 10 1 n (numeral 10 1 n) :=
  isNumeralOf_numeral (by decide) (by decide) (by decide) n

theorem mem_mnemonics (opcode : Opcode) : (opcode, opcode.mnemonic) ∈ mnemonics := by
  have each : ∀ opcode ∈ Opcode.all, (opcode, opcode.mnemonic) ∈ mnemonics := by decide
  exact each opcode opcode.mem_all

theorem blank_not_mem_mnemonic (opcode : Opcode) : ' ' ∉ opcode.mnemonic.toList := by
  have each : ∀ opcode ∈ Opcode.all, ' ' ∉ opcode.mnemonic.toList := by decide
  exact each opcode opcode.mem_all

/-- The text of a fault, cut into words without blanks. -/
theorem exists_faultWords (fault : Fault) :
    ∃ word words, FaultWords fault (word :: words) ∧
      fault.message.toList = word ++ words.flatMap (' ' :: ·) ∧
      ∀ piece ∈ word :: words, ' ' ∉ piece := by
  have hexadecimal := blank_not_mem_numeral 16 (by decide) (by decide)
  have decimal := blank_not_mem_numeral 10 (by decide) (by decide)
  cases fault with
  | addressing address =>
    refine ⟨_, _, .addressing (isNumeralOf_hex address (by decide)), ?_, ?_⟩
    · simp [Fault.message]
    · simp [hexadecimal]
  | register index =>
    refine ⟨_, _, .register (isNumeralOf_decimal index.toNat), ?_, ?_⟩
    · simp [Fault.message]
    · simp [decimal]
  | divisionByZero => exact ⟨_, _, .divisionByZero, by simp [Fault.message], by simp⟩
  | output cause => exact ⟨_, _, .output, by simp [Fault.message], by simp⟩

/-- What is reported is said. -/
theorem Told.saidIn_entry (told : Told) : told.SaidIn told.entry := by
  have hexadecimal := blank_not_mem_numeral 16 (by decide) (by decide)
  have decimal := blank_not_mem_numeral 10 (by decide) (by decide)
  have binary := blank_not_mem_numeral 2 (by decide) (by decide)
  have here (pc : Nat) : IsNumeralOf 16 2 pc (numeral 16 2 pc) := isNumeralOf_hex pc (by decide)
  have byte (b : UInt8) : IsNumeralOf 16 2 b.toNat (numeral 16 2 b.toNat) :=
    isNumeralOf_hex b.toNat (by decide)
  cases told with
  | running pc =>
    refine ⟨_, rfl, ?_⟩
    rw [split_words "Running".toList ["from".toList, numeral 16 2 pc]]
    · exact .running (here pc)
    · simp
    · simp [hexadecimal]
  | halted pc executed =>
    refine ⟨_, rfl, ?_⟩
    rw [split_words "Halted".toList ["at".toList, numeral 16 2 pc, "after".toList,
      numeral 10 1 executed, "instructions".toList]]
    · exact .halted (here pc) (isNumeralOf_decimal executed)
    · simp
    · simp [hexadecimal, decimal]
  | faulted pc fault =>
    obtain ⟨word, words, worded, message, solid⟩ := exists_faultWords fault
    refine ⟨_, rfl, ?_⟩
    rw [split_words "Faulted".toList ("at".toList :: (numeral 16 2 pc ++ [':']) :: word :: words)]
    · exact .faulted (here pc) worded
    · simp [message]
    · simpa [hexadecimal] using solid
  | skipped pc b =>
    refine ⟨_, rfl, ?_⟩
    rw [split_words "Unknown".toList ["opcode".toList, numeral 2 8 b.toNat, "at".toList,
      numeral 16 2 pc ++ [','], "skipping".toList, numeral 10 1 (instructionLength b),
      "byte(s)".toList]]
    · exact .skipped (here pc) (isNumeralOf_numeral (by decide) (by decide) (by decide) _)
        (isNumeralOf_decimal _)
    · simp
    · simp [hexadecimal, decimal, binary]
  | fetched pc opcode a b =>
    refine ⟨_, rfl, ?_⟩
    rw [split_words (numeral 16 2 pc ++ [':']) [opcode.mnemonic.toList, numeral 16 2 a.toNat,
      numeral 16 2 b.toNat]]
    · exact .fetched (here pc) (mem_mnemonics opcode) (byte a) (byte b)
    · simp [hexByte]
    · simp [hexadecimal, blank_not_mem_mnemonic]

end Reports

section Reading

/-- The fault without the cause behind it, which its text does not tell. -/
def shownFault : Fault → Fault
  | .output _ => .output .full
  | fault => fault

def Told.shown : Told → Told
  | faulted pc fault => faulted pc (shownFault fault)
  | told => told

theorem FaultWords.unique {fault fault' : Fault} {words words' : List (List Char)}
    (first : FaultWords fault words) (second : FaultWords fault' words') (same : words = words') :
    shownFault fault = shownFault fault' := by
  cases first with
  | addressing digits =>
    cases second <;> simp at same
    case addressing digits' =>
      rw [digits.unique (same ▸ digits')]
  | register digits =>
    cases second <;> simp at same
    case register digits' =>
      rw [UInt8.toNat_inj.mp (digits.unique (same ▸ digits'))]
  | divisionByZero =>
    cases second <;> simp at same
    rfl
  | output =>
    cases second <;> simp at same
    rfl

theorem opcode_of_mnemonic {opcode opcode' : Opcode} {name : String}
    (first : (opcode, name) ∈ mnemonics) (second : (opcode', name) ∈ mnemonics) :
    opcode = opcode' := by
  have each : ∀ row ∈ mnemonics, ∀ row' ∈ mnemonics, row.2 = row'.2 → row.1 = row'.1 := by decide
  exact each _ first _ second rfl

/-- The words of a message tell all that it is about. -/
theorem Told.Words.unique {told told' : Told} {words words' : List (List Char)}
    (first : told.Words words) (second : told'.Words words') (same : words = words') :
    told.shown = told'.shown := by
  cases first with
  | running here =>
    cases second <;> simp at same
    case running here' => rw [here.unique (same ▸ here')]
  | halted here count =>
    cases second <;> simp at same
    case halted here' count' =>
      obtain ⟨rfl, rfl⟩ := same
      rw [here.unique here', count.unique count']
  | faulted here cause =>
    cases second <;> simp at same
    case faulted here' cause' =>
      obtain ⟨rfl, same⟩ := same
      rw [here.unique here']
      simp only [shown, cause.unique cause' same]
    -- A fault has more than one word.
    case fetched => cases cause <;> simp at same
  | skipped here bits length =>
    cases second <;> simp at same
    case skipped here' bits' length' =>
      obtain ⟨rfl, rfl, -⟩ := same
      rw [here.unique here', UInt8.toNat_inj.mp (bits.unique bits')]
  | fetched here name a b =>
    cases second <;> simp at same
    case fetched here' name' a' b' =>
      obtain ⟨rfl, same, rfl, rfl⟩ := same
      obtain rfl := String.toList_inj.mp same
      rw [here.unique here', opcode_of_mnemonic name name', UInt8.toNat_inj.mp (a.unique a'),
        UInt8.toNat_inj.mp (b.unique b')]
    case faulted _ cause => cases cause <;> simp at same

/-- No two messages read the same, but for which write has failed. -/
theorem Told.SaidIn.unique {told told' : Told} {entry : Log.Entry} (first : told.SaidIn entry)
    (second : told'.SaidIn entry) : told.shown = told'.shown := by
  obtain ⟨text, rfl, words⟩ := first
  obtain ⟨text', same, words'⟩ := second
  obtain ⟨-, -, rfl⟩ := Log.Entry.message.inj same
  exact words.unique words' rfl

end Reading

section Lines

/-- What stands between the blanks of a trace line, after its heading. -/
def traceWords (p : Processor) (shown : Fetched) : List (List Char) :=
  Text.numeral 16 2 p.pc :: ['|'] ::
    [shown.opcode, shown.a, shown.b].map (Text.numeral 16 2 ·.toNat) ++
    ['|'] :: p.registers.toList.map (Text.numeral 16 2 ·.toNat)

theorem toList_spaced (bytes : List UInt8) :
    (spaced bytes).toList = (bytes.map (Text.numeral 16 2 ·.toNat)).flatMap (' ' :: ·) := by
  induction bytes with
  | nil => rfl
  | cons b rest inductionHypothesis => simp [spaced, Text.hexByte, inductionHypothesis]

theorem toList_traceText (p : Processor) (shown : Fetched) :
    (traceText p shown).toList = "TRACE:".toList ++ (traceWords p shown).flatMap (' ' :: ·) := by
  simp [traceText, traceWords, toList_spaced]

theorem blank_not_mem_traceWords (p : Processor) (shown : Fetched) :
    ∀ word ∈ traceWords p shown, ' ' ∉ word := by
  have solid := blank_not_mem_numeral 16 (by decide) (by decide)
  simp [traceWords, solid]

theorem split_traceText (p : Processor) (shown : Fetched) :
    Text.split ' ' (traceText p shown).toList = "TRACE:".toList :: traceWords p shown := by
  rw [toList_traceText]
  exact Text.split_flatMap_cons (by decide) (blank_not_mem_traceWords p shown)

/-- What is between the blanks of a line of a trace, which shows a program counter, bytes and
registers, all in hexadecimal. -/
inductive LineWords (pc : Nat) (bytes registers : List UInt8) : List (List Char) → Prop where
  | shown {here : List Char} {cells contents : List (List Char)} : IsNumeralOf 16 2 pc here →
      List.Forall₂ (IsNumeralOf 16 2 ·.toNat ·) bytes cells →
      List.Forall₂ (IsNumeralOf 16 2 ·.toNat ·) registers contents →
      LineWords pc bytes registers
        ("TRACE:".toList :: here :: ['|'] :: (cells ++ ['|'] :: contents))

theorem lineWords_traceText (p : Processor) (shown : Fetched) :
    LineWords p.pc [shown.opcode, shown.a, shown.b] p.registers.toList
      (split ' ' (traceText p shown).toList) := by
  have each (bytes : List UInt8) :
      List.Forall₂ (IsNumeralOf 16 2 ·.toNat ·) bytes (bytes.map (numeral 16 2 ·.toNat)) := by
    rw [List.forall₂_map_right_iff, List.forall₂_same]
    exact fun b _ => isNumeralOf_hex b.toNat (by decide)
  rw [split_traceText]
  exact .shown (isNumeralOf_hex p.pc (by decide)) (each _) (each _)

/-- A trace line is read back as what it was made of. -/
theorem traceText_eq_iff {p q : Processor} {shown shown' : Fetched} :
    traceText p shown = traceText q shown' ↔
      p.pc = q.pc ∧ shown = shown' ∧ p.registers = q.registers := by
  constructor
  · intro same
    have words : Text.split ' ' (traceText p shown).toList =
        Text.split ' ' (traceText q shown').toList := by rw [same]
    simp only [split_traceText, traceWords, List.map_cons, List.map_nil, List.cons_append,
      List.nil_append, List.cons.injEq, true_and] at words
    obtain ⟨pc, opcode, a, b, registers⟩ := words
    refine ⟨Text.numeral_injective (by decide) (by decide) 2 pc, ?_, ?_⟩
    · cases shown
      cases shown'
      cases Text.byteNumeral_injective opcode
      cases Text.byteNumeral_injective a
      cases Text.byteNumeral_injective b
      rfl
    · exact Vector.toList_inj.mp (List.map_injective_iff.mpr Text.byteNumeral_injective registers)
  · rintro ⟨pc, rfl, registers⟩
    rw [traceText, traceText, pc, registers]

end Lines

end ByteMachine.Machine
