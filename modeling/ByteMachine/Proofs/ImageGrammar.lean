import ByteMachine.Image
import Mathlib.Data.List.Forall2
import Mathlib.Data.List.TakeWhile
import Mathlib.Data.Nat.Digits.Lemmas

/-!
# The grammar of program images

What an image is, said without reading one: its lines, the code of each of them, and what these
codes make it. Main statement: parsing an image gives a result exactly if the grammar does.
-/

namespace ByteMachine

namespace Text

/-- The lines of a text: each is ended by a newline, but for a last one that is not empty. -/
inductive IsLines : List Char → List (List Char) → Prop where
  | nil : IsLines [] []
  | last {line} : line ≠ [] → '\n' ∉ line → IsLines line [line]
  | cons {line rest lines} : '\n' ∉ line → IsLines rest lines →
      IsLines (line ++ '\n' :: rest) (line :: lines)

/-- What remains of a text without the blanks at its ends. -/
def Trims (text core : List Char) : Prop :=
  ∃ before after, text = before ++ core ++ after ∧ (∀ c ∈ before, isBlank c) ∧
    (∀ c ∈ after, isBlank c) ∧ (∀ c ∈ core.head?, ¬isBlank c) ∧ ∀ c ∈ core.getLast?, ¬isBlank c

section Lines

variable {text line : List Char}

theorem lines_of_unbroken (nonempty : line ≠ []) (unbroken : '\n' ∉ line) :
    lines line = [line] := by
  induction line with
  | nil => exact absurd rfl nonempty
  | cons c rest inductionHypothesis =>
    simp only [List.mem_cons, not_or] at unbroken
    cases rest with
    | nil => simp [lines, Ne.symm unbroken.1]
    | cons d rest =>
      rw [lines, if_neg (Ne.symm unbroken.1), inductionHypothesis (by simp) unbroken.2]

theorem lines_append_newline (unbroken : '\n' ∉ line) (rest : List Char) :
    lines (line ++ '\n' :: rest) = line :: lines rest := by
  induction line with
  | nil => simp
  | cons c line inductionHypothesis =>
    simp only [List.mem_cons, not_or] at unbroken
    simp [lines, Ne.symm unbroken.1, inductionHypothesis unbroken.2]

theorem IsLines.cons_char {c : Char} {later : List (List Char)}
    (split : IsLines text (line :: later)) (other : c ≠ '\n') :
    IsLines (c :: text) ((c :: line) :: later) := by
  cases split with
  | last _ unbroken => exact .last (by simp) (by simp [other.symm, unbroken])
  | cons unbroken split =>
    have longer : '\n' ∉ c :: line := by simp [other.symm, unbroken]
    exact .cons longer split

theorem isLines_lines (text : List Char) : IsLines text (lines text) := by
  induction text with
  | nil => exact .nil
  | cons c rest inductionHypothesis =>
    by_cases newline : c = '\n'
    · subst newline
      exact .cons List.not_mem_nil inductionHypothesis
    · cases following : lines rest with
      | nil =>
        obtain rfl := lines_eq_nil_iff.mp following
        rw [lines, if_neg newline, following]
        exact .last (by simp) (by simpa using Ne.symm newline)
      | cons line later =>
        rw [following] at inductionHypothesis
        rw [lines, if_neg newline, following]
        exact inductionHypothesis.cons_char newline

/-- A text has one list of lines. -/
theorem isLines_iff {pieces : List (List Char)} : IsLines text pieces ↔ lines text = pieces := by
  constructor
  · intro split
    induction split with
    | nil => rfl
    | last nonempty unbroken => exact lines_of_unbroken nonempty unbroken
    | cons unbroken _ inductionHypothesis =>
      rw [lines_append_newline unbroken, inductionHypothesis]
  · rintro rfl
    exact isLines_lines text

end Lines

section Trim

variable {text core after : List Char}

theorem trimEnd_of_blank (blank : ∀ c ∈ text, isBlank c) : trimEnd text = [] := by
  induction text with
  | nil => rfl
  | cons c rest inductionHypothesis =>
    simp only [List.forall_mem_cons] at blank
    simp [trimEnd, inductionHypothesis blank.2, blank.1]

theorem trimEnd_append_of_blank (blank : ∀ c ∈ after, isBlank c) (text : List Char) :
    trimEnd (text ++ after) = trimEnd text := by
  induction text with
  | nil => simp [trimEnd_of_blank blank, trimEnd]
  | cons c text inductionHypothesis => simp [trimEnd, inductionHypothesis]

theorem trimEnd_of_last (last : ∀ c ∈ core.getLast?, ¬isBlank c) : trimEnd core = core := by
  induction core with
  | nil => rfl
  | cons c rest inductionHypothesis =>
    cases rest with
    | nil => simpa [trimEnd] using last
    | cons d rest => simp_all [trimEnd]

theorem exists_trimEnd (text : List Char) :
    ∃ after, text = trimEnd text ++ after ∧ (∀ c ∈ after, isBlank c) ∧
      ∀ c ∈ (trimEnd text).getLast?, ¬isBlank c := by
  induction text with
  | nil => exact ⟨[], by simp [trimEnd]⟩
  | cons c rest inductionHypothesis =>
    obtain ⟨after, split, blank, last⟩ := inductionHypothesis
    cases kept : trimEnd rest with
    | nil =>
      rw [kept, List.nil_append] at split
      subst split
      by_cases blank' : isBlank c
      · exact ⟨c :: rest, by simpa [trimEnd, kept, blank'] using blank⟩
      · exact ⟨rest, by simp_all [trimEnd]⟩
    | cons d kept' =>
      rw [kept] at split last
      refine ⟨after, ?_⟩
      simp only [trimEnd, kept, List.cons_append]
      exact ⟨congrArg (c :: ·) split, blank, by simpa using last⟩

theorem head?_trimStart (text : List Char) : ∀ c ∈ (trimStart text).head?, ¬isBlank c := by
  intro c starts
  have other := List.head?_dropWhile_not isBlank text
  rw [trimStart, Option.mem_def] at starts
  rw [starts] at other
  simp [other]

/-- What remains of a text is determined by it. -/
theorem trims_iff : Trims text core ↔ trim text = core := by
  constructor
  · rintro ⟨before, after, rfl, blankBefore, blankAfter, first, last⟩
    have skipped : trimStart (before ++ (core ++ after)) = trimStart (core ++ after) :=
      List.dropWhile_append_of_pos blankBefore
    rw [trim, List.append_assoc, skipped]
    cases core with
    | nil =>
      have nothing : trimStart after = [] := List.dropWhile_eq_nil_iff.mpr blankAfter
      simp [nothing, trimEnd]
    | cons c rest =>
      have stays : trimStart (c :: rest ++ after) = c :: rest ++ after := by
        simp_all [trimStart]
      rw [stays, trimEnd_append_of_blank blankAfter, trimEnd_of_last last]
  · rintro rfl
    obtain ⟨after, split, blank, last⟩ := exists_trimEnd (trimStart text)
    refine ⟨text.takeWhile isBlank, after, ?_, ?_, blank, ?_, last⟩
    · rw [List.append_assoc, trim, ← split, trimStart, List.takeWhile_append_dropWhile]
    · exact fun c found => List.mem_takeWhile_imp found
    · intro c starts
      have same := congrArg List.head? split
      rw [List.head?_append, ← trim, Option.mem_def.mp starts, Option.some_or] at same
      exact head?_trimStart text c same

end Trim

end Text

namespace Image

/-- The code of a line: what stands before its first hash sign, without the blanks around it. -/
def IsCode (line code : List Char) : Prop :=
  ∃ before comment, line = before ++ comment ∧ '#' ∉ before ∧ (∀ c ∈ comment.head?, c = '#') ∧
    Text.Trims before code

/-- One to eight binary digits. -/
def IsLiteral (code : List Char) : Prop :=
  code ≠ [] ∧ code.length ≤ 8 ∧ ∀ c ∈ code, c = '0' ∨ c = '1'

def digit (c : Char) : Nat := if c = '1' then 1 else 0

/-- The number that binary digits stand for, of which the last is worth one. -/
def value (code : List Char) : Nat := Nat.ofDigits 2 (code.reverse.map digit)

/-- The codes that are not empty. -/
def written (codes : List (List Char)) : List (List Char) := codes.filter (· ≠ [])

/-- What the codes of its lines make of an image. -/
inductive Verdict (codes : List (List Char)) : Except ImageError (List UInt8) → Prop where
  | accepted {bytes} : (∀ code ∈ written codes, IsLiteral code) → (written codes).length ≤ 256 →
      bytes.map UInt8.toNat = (written codes).map value → Verdict codes (.ok bytes)
  | tooLarge : (∀ code ∈ written codes, IsLiteral code) → 256 < (written codes).length →
      Verdict codes (.error (.tooLarge (written codes).length))
  /-- The first bad code is reported, however many codes there are. -/
  | invalidLiteral {before code after} : codes = before ++ code :: after →
      (∀ earlier ∈ written before, IsLiteral earlier) → code ≠ [] → ¬IsLiteral code →
      Verdict codes (.error (.invalidLiteral (before.length + 1) (String.ofList code)))

/-- What the grammar makes of a text. -/
def Reads (text : String) (result : Except ImageError (List UInt8)) : Prop :=
  ∃ lines codes, Text.IsLines text.toList lines ∧ List.Forall₂ IsCode lines codes ∧
    Verdict codes result

theorem isCode_iff {line code' : List Char} : IsCode line code' ↔ code line = code' := by
  constructor
  · rintro ⟨before, comment, rfl, uncommented, comments, trims⟩
    have cut : (before ++ comment).takeWhile (· ≠ '#') = before := by
      rw [List.takeWhile_append_of_pos (by grind)]
      cases comment <;> simp_all
    rw [code, cut]
    exact Text.trims_iff.mp trims
  · rintro rfl
    refine ⟨_, _, List.takeWhile_append_dropWhile.symm, ?_, ?_, Text.trims_iff.mpr rfl⟩
    · intro found
      simpa using List.mem_takeWhile_imp found
    · intro c starts
      have other := List.head?_dropWhile_not (· ≠ '#') line
      rw [Option.mem_def.mp starts] at other
      simpa using other

section Literal

variable {code : List Char}

theorem value_eq_foldl (code : List Char) :
    value code = code.foldl (fun n c => 2 * n + digit c) 0 := by
  rw [value, Nat.ofDigits_eq_foldr, List.foldr_map, List.foldr_reverse]
  simp [Nat.add_comm]

/-- No bit is lost: a byte has room for eight digits. -/
theorem value_lt (literal : IsLiteral code) : value code < 256 := by
  obtain ⟨-, short, -⟩ := literal
  have small : value code < 2 ^ code.length := by
    rw [value, ← List.length_reverse, ← List.length_map (f := digit)]
    apply Nat.ofDigits_lt_base_pow_length (by decide)
    simp only [List.mem_map]
    rintro _ ⟨c, -, rfl⟩
    unfold digit
    split <;> decide
  exact Nat.lt_of_lt_of_le small (Nat.pow_le_pow_right (by decide) short)

/-- In a byte, shifting a digit in is doubling and adding. -/
theorem shiftIn_ofNat {bit : Nat} (binary : bit < 2) (n : Nat) :
    shiftIn (UInt8.ofNat n) (UInt8.ofNat (0x30 + bit)) = some (UInt8.ofNat (2 * n + bit)) := by
  have wrap (m : Nat) : UInt8.ofNat (m % 256) = UInt8.ofNat m := by
    apply UInt8.toNat_inj.mp
    simp
  have shifts : ∀ bit < 2, ∀ m < 256,
      shiftIn (UInt8.ofNat m) (UInt8.ofNat (0x30 + bit)) = some (UInt8.ofNat (2 * m + bit)) := by
    decide +kernel
  have doubled : (2 * (n % 256) + bit) % 256 = (2 * n + bit) % 256 := by omega
  rw [← wrap n, shifts bit binary (n % 256) (Nat.mod_lt n (by decide)), ← wrap, doubled, wrap]

theorem utf8EncodeChar_of_binary {c : Char} (binary : c = '0' ∨ c = '1') :
    String.utf8EncodeChar c = [UInt8.ofNat (0x30 + digit c)] := by
  rcases binary with rfl | rfl <;> rfl

theorem utf8_of_binary (binary : ∀ c ∈ code, c = '0' ∨ c = '1') :
    code.flatMap String.utf8EncodeChar = code.map fun c => UInt8.ofNat (0x30 + digit c) := by
  induction code with
  | nil => rfl
  | cons c rest inductionHypothesis =>
    simp only [List.forall_mem_cons] at binary
    simp [utf8EncodeChar_of_binary binary.1, inductionHypothesis binary.2]

theorem foldlM_shiftIn (code : List Char) (n : Nat) :
    (code.map fun c => UInt8.ofNat (0x30 + digit c)).foldlM shiftIn (UInt8.ofNat n) =
      some (UInt8.ofNat (code.foldl (fun n c => 2 * n + digit c) n)) := by
  induction code generalizing n with
  | nil => rfl
  | cons c rest inductionHypothesis =>
    have bit : digit c < 2 := by
      unfold digit
      split <;> decide
    rw [List.map_cons, List.foldlM_cons, shiftIn_ofNat bit]
    exact inductionHypothesis _

theorem foldlM_shiftIn_eq_none {bytes : List UInt8} {bad : UInt8} (found : bad ∈ bytes)
    (other : bad ≠ 0x30 ∧ bad ≠ 0x31) (n : UInt8) : bytes.foldlM shiftIn n = none := by
  induction bytes generalizing n with
  | nil => cases found
  | cons first rest inductionHypothesis =>
    rw [List.foldlM_cons]
    rcases List.mem_cons.mp found with rfl | later
    · simp [shiftIn, other]
    · cases shiftIn n first <;> simp [inductionHypothesis later]

/-- Only the digits themselves are encoded in bytes of digits. -/
theorem exists_bad_byte {c : Char} (other : ¬(c = '0' ∨ c = '1')) :
    ∃ bad ∈ String.utf8EncodeChar c, bad ≠ 0x30 ∧ bad ≠ 0x31 := by
  have zero : c.val.toNat ≠ 48 := fun same => other (.inl (Char.ext (UInt32.toNat_inj.mp same)))
  have one : c.val.toNat ≠ 49 := fun same => other (.inr (Char.ext (UInt32.toNat_inj.mp same)))
  unfold String.utf8EncodeChar
  simp only
  split_ifs
  all_goals
    refine ⟨_, List.mem_cons_self, ?_⟩
    simp only [ne_eq, ← UInt8.toNat_inj, UInt8.toNat_ofNat', UInt8.reduceToNat]
    omega

theorem literal?_of_isLiteral (literal : IsLiteral code) :
    literal? code = some (UInt8.ofNat (value code)) := by
  obtain ⟨-, short, binary⟩ := literal
  have shifted := foldlM_shiftIn code 0
  rw [← value_eq_foldl] at shifted
  simpa [literal?, utf8_of_binary binary, short] using shifted

theorem literal?_of_not_isLiteral (nonempty : code ≠ []) (bad : ¬IsLiteral code) :
    literal? code = none := by
  by_cases binary : ∀ c ∈ code, c = '0' ∨ c = '1'
  · have long : ¬code.length ≤ 8 := fun short => bad ⟨nonempty, short, binary⟩
    simp [literal?, utf8_of_binary binary, long]
  · simp only [not_forall] at binary
    obtain ⟨c, present, other⟩ := binary
    obtain ⟨byte, encoded, unbinary⟩ := exists_bad_byte other
    have found : byte ∈ code.flatMap String.utf8EncodeChar :=
      List.mem_flatMap.mpr ⟨c, present, encoded⟩
    simp [literal?, foldlM_shiftIn_eq_none found unbinary]

instance (code : List Char) : Decidable (IsLiteral code) := inferInstanceAs (Decidable (_ ∧ _))

end Literal

section Codes

variable {code : List Char} {codes before : List (List Char)}

/-- The codes of the lines of a text, empty ones included. -/
def lineCodes (text : List Char) : List (List Char) := (Text.lines text).map Image.code

theorem lineCodes_of_unbroken {line : List Char} (nonempty : line ≠ []) (unbroken : '\n' ∉ line) :
    lineCodes line = [Image.code line] := by
  rw [lineCodes, Text.lines_of_unbroken nonempty unbroken, List.map_singleton]

theorem lineCodes_append_newline {line : List Char} (unbroken : '\n' ∉ line) (rest : List Char) :
    lineCodes (line ++ '\n' :: rest) = Image.code line :: lineCodes rest := by
  rw [lineCodes, Text.lines_append_newline unbroken, List.map_cons, lineCodes]

/-- The bytes of codes that stand in lines counted from `line` on. -/
def bytesFrom (line : Nat) (codes : List (List Char)) : Except ImageError (List UInt8) :=
  ((codes.zipIdx line).filter fun (code, _) => code ≠ []).mapM readCode

theorem bytesFrom_cons_of_empty (line : Nat) (codes : List (List Char)) :
    bytesFrom line ([] :: codes) = bytesFrom (line + 1) codes := by
  simp [bytesFrom]

theorem bytesFrom_cons_of_literal (literal : IsLiteral code) (line : Nat)
    (codes : List (List Char)) :
    bytesFrom line (code :: codes) =
      (bytesFrom (line + 1) codes).map (UInt8.ofNat (value code) :: ·) := by
  have read : readCode (code, line) = .ok (UInt8.ofNat (value code)) := by
    simp [readCode, literal?_of_isLiteral literal]
  simp only [bytesFrom, List.zipIdx_cons, List.filter_cons, literal.1, ne_eq, not_false_eq_true,
    decide_true, if_true, List.mapM_cons, read]
  rfl

theorem bytesFrom_cons_of_bad (nonempty : code ≠ []) (bad : ¬IsLiteral code) (line : Nat)
    (codes : List (List Char)) :
    bytesFrom line (code :: codes) = .error (.invalidLiteral line (String.ofList code)) := by
  have read : readCode (code, line) = .error (.invalidLiteral line (String.ofList code)) := by
    simp [readCode, literal?_of_not_isLiteral nonempty bad]
  simp only [bytesFrom, List.zipIdx_cons, List.filter_cons, nonempty, ne_eq, not_false_eq_true,
    decide_true, if_true, List.mapM_cons, read]
  rfl

theorem written_cons_of_empty (codes : List (List Char)) :
    written ([] :: codes) = written codes := by
  simp [written]

theorem written_cons_of_nonempty (nonempty : code ≠ []) (codes : List (List Char)) :
    written (code :: codes) = code :: written codes := by
  simp [written, nonempty]

theorem bytesFrom_append_of_literals (literals : ∀ code ∈ written before, IsLiteral code)
    (line : Nat) (after : List (List Char)) :
    bytesFrom line (before ++ after) =
      (bytesFrom (line + before.length) after).map
        ((written before).map (UInt8.ofNat ∘ value) ++ ·) := by
  induction before generalizing line with
  | nil => cases read : bytesFrom line after <;> simp [written, Except.map, read]
  | cons code before inductionHypothesis =>
    rw [List.cons_append, List.length_cons, Nat.add_comm before.length, ← Nat.add_assoc]
    by_cases empty : code = []
    · subst empty
      rw [written_cons_of_empty] at literals ⊢
      rw [bytesFrom_cons_of_empty, inductionHypothesis literals]
    · rw [written_cons_of_nonempty empty, List.forall_mem_cons] at literals
      rw [written_cons_of_nonempty empty, bytesFrom_cons_of_literal literals.1,
        inductionHypothesis literals.2]
      cases bytesFrom (line + 1 + before.length) after <;> rfl

theorem bytesFrom_of_literals (literals : ∀ code ∈ written codes, IsLiteral code) (line : Nat) :
    bytesFrom line codes = .ok ((written codes).map (UInt8.ofNat ∘ value)) := by
  have read := bytesFrom_append_of_literals literals line []
  rw [List.append_nil] at read
  rw [read]
  simp [bytesFrom, Except.map, pure, Except.pure]

theorem map_toNat_ofNat_value (literals : ∀ code ∈ written codes, IsLiteral code) :
    ((written codes).map (UInt8.ofNat ∘ value)).map UInt8.toNat = (written codes).map value := by
  rw [List.map_map]
  apply List.map_congr_left
  intro code found
  simp [Nat.mod_eq_of_lt (value_lt (literals code found))]

theorem exists_verdict (codes : List (List Char)) : ∃ result, Verdict codes result := by
  cases found : codes.find? fun code => code ≠ [] ∧ ¬IsLiteral code with
  | none =>
    have literals : ∀ code ∈ written codes, IsLiteral code := by
      simp_all [written]
    by_cases fits : (written codes).length ≤ 256
    · exact ⟨_, .accepted literals fits (map_toNat_ofNat_value literals)⟩
    · exact ⟨_, .tooLarge literals (Nat.not_le.mp fits)⟩
  | some code =>
    -- The search stops at the first bad code, so all before it are literals.
    obtain ⟨bad, before, after, split, earlier⟩ := List.find?_eq_some_iff_append.mp found
    have literals : ∀ earlier ∈ written before, IsLiteral earlier := by
      intro other present
      have good := earlier other (List.mem_of_mem_filter present)
      have nonempty := List.of_mem_filter present
      simp_all
    simp only [ne_eq, decide_eq_true_eq] at bad
    exact ⟨_, .invalidLiteral split literals bad.1 bad.2⟩

theorem parse_of_verdict {text : String} {result : Except ImageError (List UInt8)}
    (verdict : Verdict (lineCodes text.toList) result) : parse text = result := by
  have read : bytes text.toList = bytesFrom 1 (lineCodes text.toList) := rfl
  cases verdict with
  | @accepted image literals fits values =>
    rw [bytesFrom_of_literals literals] at read
    rw [← map_toNat_ofNat_value literals] at values
    obtain rfl := List.map_injective_iff.mpr (fun _ _ => UInt8.toNat_inj.mp) values
    simp [parse, read, bind, Except.bind, fits, pure, Except.pure]
  | tooLarge literals large =>
    rw [bytesFrom_of_literals literals] at read
    simp [parse, read, bind, Except.bind, Nat.not_le.mpr large, throw, throwThe,
      MonadExceptOf.throw]
  | invalidLiteral split literals nonempty bad =>
    rw [split, bytesFrom_append_of_literals literals, bytesFrom_cons_of_bad nonempty bad] at read
    simp [parse, read, bind, Except.bind, Except.map, Nat.add_comm]

theorem parse_eq_iff_verdict {text : String} {result : Except ImageError (List UInt8)} :
    parse text = result ↔ Verdict (lineCodes text.toList) result := by
  constructor
  · rintro rfl
    obtain ⟨result, verdict⟩ := exists_verdict (lineCodes text.toList)
    rwa [parse_of_verdict verdict]
  · exact parse_of_verdict

theorem length_le_of_parse {text : String} {bytes : List UInt8} (parsed : parse text = .ok bytes) :
    bytes.length ≤ memorySize := by
  cases parse_eq_iff_verdict.mp parsed with
  | accepted _ fits values =>
    have lengths := congrArg List.length values
    rw [List.length_map, List.length_map] at lengths
    exact lengths ▸ fits

/-- Memory has room for any image that is parsed. -/
theorem ofImage_of_parse {text : String} {bytes : List UInt8} (parsed : parse text = .ok bytes) :
    (Bank.ofImage bytes : Except Fault Ram) = .ok (Bank.ofImagePrefix bytes) :=
  Bank.ofImage_of_length_le (length_le_of_parse parsed)

/-- Parsing accepts exactly the images of the grammar, with the bytes they stand for, and reports
exactly the mistake that the grammar finds in any other text. -/
theorem parse_eq_iff_reads {text : String} {result : Except ImageError (List UInt8)} :
    parse text = result ↔ Reads text result := by
  rw [parse_eq_iff_verdict]
  constructor
  · intro verdict
    refine ⟨_, _, Text.isLines_lines text.toList, ?_, verdict⟩
    simp [lineCodes, List.forall₂_map_right_iff, List.forall₂_same, isCode_iff]
  · rintro ⟨lines, codes, split, cut, verdict⟩
    rw [Text.isLines_iff] at split
    subst split
    have same : lineCodes text.toList = codes := by
      rw [lineCodes, ← List.forall₂_eq_eq_eq, List.forall₂_map_left_iff]
      exact cut.imp fun _ _ => isCode_iff.mp
    rwa [same]

end Codes

end Image

end ByteMachine
