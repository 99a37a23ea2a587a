import ByteMachine.Proofs.ImageGrammar

/-!
# Writing program images

All the ways in which a text can write bytes: literals of any width, blanks around them, comments,
lines that hold nothing, either end of a line, and a last line with or without one. Main statement:
parsing yields bytes exactly if the text writes them and they fit into memory, so bytes that have
been parsed can be written anew in any of these ways.
-/

namespace ByteMachine.Image

/-- White space that does not end a line. -/
def Blanks (text : List Char) : Prop := ∀ c ∈ text, Text.isBlank c ∧ c ≠ '\n'

instance (text : List Char) : Decidable (Blanks text) :=
  List.decidableBAll (fun c => Text.isBlank c ∧ c ≠ '\n') text

/-- Nothing, or a hash sign and any text behind it on the line. -/
inductive IsComment : List Char → Prop where
  | none : IsComment []
  | hash {text} : '\n' ∉ text → IsComment ('#' :: text)

/-- The binary digits of a byte, with as many leading zeros as eight digits leave room for. -/
def Spells (b : UInt8) (digits : List Char) : Prop :=
  ∃ zeros, digits = List.replicate zeros '0' ++ Nat.toDigits 2 b.toNat ∧ digits.length ≤ 8

/-- A line, without its end, that holds a byte or none. -/
inductive WritesLine : Option UInt8 → List Char → Prop where
  | empty {blanks comment} : Blanks blanks → IsComment comment →
      WritesLine none (blanks ++ comment)
  | literal {b before digits after comment} : Blanks before → Spells b digits → Blanks after →
      IsComment comment → WritesLine (some b) (before ++ digits ++ after ++ comment)

inductive IsLineEnd : List Char → Prop where
  | newline : IsLineEnd ['\n']
  | carriageReturn : IsLineEnd ['\r', '\n']

/-- A text that writes these bytes in order, no more than one a line. Its last line need not be
ended. -/
inductive Writes : List UInt8 → List Char → Prop where
  | nil : Writes [] []
  | last {byte line} : WritesLine byte line → Writes byte.toList line
  | cons {byte line ending bytes rest} : WritesLine byte line → IsLineEnd ending →
      Writes bytes rest → Writes (byte.toList ++ bytes) (line ++ ending ++ rest)

/-- One literal of eight digits a line. -/
def render (bytes : List UInt8) : String :=
  String.ofList (bytes.flatMap fun b => Text.numeral 2 8 b.toNat ++ ['\n'])

section Digits

variable {b : UInt8} {code : List Char} {c : Char}

theorem digit_lt_two (c : Char) : digit c < 2 := by
  unfold digit
  split <;> decide

theorem toDigits_digit (binary : c = '0' ∨ c = '1') : Nat.toDigits 2 (digit c) = [c] := by
  rcases binary with rfl | rfl <;> rfl

theorem digitChar_of_lt_two {n : Nat} (small : n < 2) :
    (n.digitChar = '0' ∨ n.digitChar = '1') ∧ digit n.digitChar = n := by
  interval_cases n <;> decide

theorem value_concat (code : List Char) (c : Char) :
    value (code ++ [c]) = 2 * value code + digit c := by
  simp only [value_eq_foldl, List.foldl_append, List.foldl_cons, List.foldl_nil]

/-- Leading zeros are worth nothing. -/
theorem value_zeros_append (zeros : Nat) (code : List Char) :
    value (List.replicate zeros '0' ++ code) = value code := by
  induction zeros with
  | zero => rfl
  | succ zeros inductionHypothesis =>
    rw [← inductionHypothesis]
    simp [value_eq_foldl, List.replicate_succ, digit]

theorem toDigits_binary (n : Nat) :
    (∀ c ∈ Nat.toDigits 2 n, c = '0' ∨ c = '1') ∧ value (Nat.toDigits 2 n) = n := by
  induction n using Nat.strongRecOn with
  | ind n inductionHypothesis =>
    rw [Nat.toDigits_eq_if Nat.one_lt_two]
    split
    case isTrue small =>
      have last := digitChar_of_lt_two small
      have single := value_concat [] n.digitChar
      simp_all [value]
    case isFalse large =>
      obtain ⟨binary, half⟩ := inductionHypothesis (n / 2) (by omega)
      have last := digitChar_of_lt_two (Nat.mod_lt n Nat.two_pos)
      constructor
      · intro c found
        rcases List.mem_append.mp found with earlier | final
        · exact binary c earlier
        · rw [List.mem_singleton.mp final]
          exact last.1
      · rw [value_concat, half, last.2]
        omega

/-- Binary digits are those of their value behind leading zeros. -/
theorem exists_zeros (nonempty : code ≠ []) (binary : ∀ c ∈ code, c = '0' ∨ c = '1') :
    ∃ zeros, code = List.replicate zeros '0' ++ Nat.toDigits 2 (value code) := by
  induction code using List.reverseRecOn with
  | nil => exact absurd rfl nonempty
  | append_singleton code c inductionHypothesis =>
    have last := toDigits_digit (binary c (by simp))
    rw [value_concat]
    by_cases single : code = []
    · subst single
      exact ⟨0, by simp [value, last]⟩
    · obtain ⟨zeros, split⟩ :=
        inductionHypothesis single fun c found => binary c (List.mem_append_left _ found)
      by_cases worthless : value code = 0
      · rw [worthless] at split ⊢
        refine ⟨zeros + 1, ?_⟩
        rw [Nat.mul_zero, Nat.zero_add, last, List.replicate_succ', ← Nat.toDigits_zero 2, ← split]
      · refine ⟨zeros, ?_⟩
        have joined := Nat.toDigits_append_toDigits Nat.one_lt_two
          (Nat.pos_of_ne_zero worthless) (digit_lt_two c)
        rw [← joined, last, ← List.append_assoc, ← split]

theorem spells_iff : Spells b code ↔ IsLiteral code ∧ value code = b.toNat := by
  constructor
  · rintro ⟨zeros, rfl, short⟩
    obtain ⟨binary, worth⟩ := toDigits_binary b.toNat
    refine ⟨⟨by simp [Nat.toDigits_ne_nil], short, ?_⟩, ?_⟩
    · intro c found
      rcases List.mem_append.mp found with zero | other
      · exact .inl (List.eq_of_mem_replicate zero)
      · exact binary c other
    · rw [value_zeros_append, worth]
  · rintro ⟨⟨nonempty, short, binary⟩, worth⟩
    obtain ⟨zeros, split⟩ := exists_zeros nonempty binary
    exact ⟨zeros, worth ▸ split, short⟩

theorem forall₂_spells_iff {bytes : List UInt8} {codes : List (List Char)} :
    List.Forall₂ Spells bytes codes ↔
      (∀ code ∈ codes, IsLiteral code) ∧ bytes.map UInt8.toNat = codes.map value := by
  induction bytes generalizing codes with
  | nil => cases codes <;> simp
  | cons b bytes inductionHypothesis =>
    cases codes with
    | nil => simp
    | cons code codes =>
      simp only [List.forall₂_cons, spells_iff, inductionHypothesis, List.forall_mem_cons,
        List.map_cons, List.cons.injEq]
      grind

theorem spells_numeral (b : UInt8) : Spells b (Text.numeral 2 8 b.toNat) := by
  have upper : (Nat.toDigits 2 b.toNat).map Char.toUpper = Nat.toDigits 2 b.toNat := by
    rw [List.map_congr_left (g := id), List.map_id]
    intro c found
    rcases (toDigits_binary b.toNat).1 c found with rfl | rfl <;> rfl
  have short : (Nat.toDigits 2 b.toNat).length ≤ 8 :=
    (Nat.length_toDigits_le_iff Nat.one_lt_two (by decide)).mpr b.toNat_lt
  refine ⟨8 - (Nat.toDigits 2 b.toNat).length, ?_, ?_⟩
  · rw [Text.numeral, upper]
    rfl
  · rw [Text.numeral, upper, List.length_leftpad]
    exact Nat.max_le.mpr ⟨Nat.le_refl 8, short⟩

end Digits

section Lines

variable {byte : Option UInt8} {bytes : List UInt8}
  {line core before after comment text : List Char}

/-- What a line that holds this byte, or none, has for its code. -/
def Encodes : Option UInt8 → List Char → Prop
  | none, code => code = []
  | some b, code => Spells b code

theorem blanks_nil : Blanks [] := List.forall_mem_nil _

theorem Blanks.not_mem (blank : Blanks text) : '#' ∉ text ∧ '\n' ∉ text :=
  ⟨fun found => absurd (blank _ found).1 (by decide), fun found => (blank _ found).2 rfl⟩

theorem Encodes.visible (encodes : Encodes byte core) :
    ∀ c ∈ core, ¬Text.isBlank c ∧ c ≠ '#' ∧ c ≠ '\n' := by
  intro c found
  cases byte with
  | none =>
    rw [encodes] at found
    cases found
  | some b => rcases (spells_iff.mp encodes).1.2.2 c found with rfl | rfl <;> decide

theorem isComment_iff :
    IsComment comment ↔ (∀ c ∈ comment.head?, c = '#') ∧ '\n' ∉ comment := by
  constructor
  · intro comments
    cases comments with
    | none => simp
    | hash unbroken => simpa using unbroken
  · rintro ⟨starts, unbroken⟩
    cases comment with
    | nil => exact .none
    | cons c rest =>
      obtain rfl : c = '#' := starts c rfl
      exact .hash fun found => unbroken (List.mem_cons_of_mem _ found)

theorem trims_padded (trims : Text.Trims text core) (blank : Blanks before)
    (blank' : Blanks after) : Text.Trims (before ++ text ++ after) core := by
  obtain ⟨first, last, rfl, blankFirst, blankLast, visible⟩ := trims
  refine ⟨before ++ first, last ++ after, by simp, ?_, ?_, visible⟩
  · exact List.forall_mem_append.mpr ⟨fun c found => (blank c found).1, blankFirst⟩
  · exact List.forall_mem_append.mpr ⟨blankLast, fun c found => (blank' c found).1⟩

/-- Neither blanks around a line nor a comment behind it are part of its code. -/
theorem code_padded (blank : Blanks before) (line : List Char) (blank' : Blanks after)
    (comments : IsComment comment) : code (before ++ line ++ after ++ comment) = code line := by
  obtain ⟨coded, comment', split, uncommented, starts, trims⟩ :=
    isCode_iff.mpr (rfl : code line = code line)
  apply isCode_iff.mp
  cases comment' with
  | nil =>
    rw [List.append_nil] at split
    refine ⟨before ++ line ++ after, comment, rfl, ?_, (isComment_iff.mp comments).1, ?_⟩
    · simp only [List.mem_append, not_or]
      exact ⟨⟨blank.not_mem.1, split ▸ uncommented⟩, blank'.not_mem.1⟩
    · exact trims_padded (split ▸ trims) blank blank'
  | cons hash text =>
    -- The line has a comment already, which goes on with what is added behind.
    refine ⟨before ++ coded, hash :: text ++ after ++ comment, by simp [split], ?_, starts, ?_⟩
    · exact fun found => (List.mem_append.mp found).elim blank.not_mem.1 uncommented
    · simpa using trims_padded trims blank blanks_nil

theorem Encodes.code_eq (encodes : Encodes byte core) : code core = core := by
  have visible := encodes.visible
  have uncommented : '#' ∉ core := fun found => (visible _ found).2.1 rfl
  have trims : Text.Trims core core :=
    ⟨[], [], by simp, by simp, by simp,
      fun c first => (visible c (List.mem_of_mem_head? first)).1,
      fun c last => (visible c (List.mem_of_mem_getLast? last)).1⟩
  exact isCode_iff.mp ⟨core, [], by simp, uncommented, by simp, trims⟩

/-- The code is what remains of a line without its comment and the blanks. -/
theorem code_of_parts (blank : Blanks before) (encodes : Encodes byte core) (blank' : Blanks after)
    (comments : IsComment comment) :
    '\n' ∉ before ++ core ++ after ++ comment ∧
      code (before ++ core ++ after ++ comment) = core := by
  have visible := encodes.visible
  constructor
  · simp only [List.mem_append, not_or]
    exact ⟨⟨⟨blank.not_mem.2, fun found => (visible _ found).2.2 rfl⟩, blank'.not_mem.2⟩,
      (isComment_iff.mp comments).2⟩
  · rw [code_padded blank core blank' comments, encodes.code_eq]

theorem writesLine_iff : WritesLine byte line ↔ '\n' ∉ line ∧ Encodes byte (code line) := by
  constructor
  · intro writes
    cases writes with
    | @empty blanks comment blank comments =>
      have nothing : Encodes none [] := rfl
      simpa [Encodes] using code_of_parts blank nothing blanks_nil comments
    | @literal b before digits after comment blank spells blank' comments =>
      have encodes : Encodes (some b) digits := spells
      obtain ⟨unbroken, same⟩ := code_of_parts blank encodes blank' comments
      rw [same]
      exact ⟨unbroken, encodes⟩
  · rintro ⟨unbroken, encodes⟩
    obtain ⟨_, comment, split, -, starts, before, after, rfl, blank, blank', -⟩ :=
      isCode_iff.mpr (rfl : code line = code line)
    generalize code line = core at encodes split
    subst split
    simp only [List.mem_append, not_or] at unbroken
    obtain ⟨⟨⟨unbroken₁, -⟩, unbroken₂⟩, unbroken₃⟩ := unbroken
    have blanks : Blanks before :=
      fun c found => ⟨blank c found, fun same => unbroken₁ (same ▸ found)⟩
    have blanks' : Blanks after :=
      fun c found => ⟨blank' c found, fun same => unbroken₂ (same ▸ found)⟩
    have comments := isComment_iff.mpr ⟨starts, unbroken₃⟩
    cases byte with
    | none =>
      obtain rfl : core = [] := encodes
      rw [List.append_nil]
      refine .empty ?_ comments
      intro c found
      exact (List.mem_append.mp found).elim (blanks c) (blanks' c)
    | some b => exact .literal blanks encodes blanks' comments

/-- A carriage return before the end of a line belongs to its blanks, or to its comment. -/
theorem code_carriageReturn (line : List Char) : code (line ++ ['\r']) = code line := by
  have blank : Blanks ['\r'] := by decide
  simpa using code_padded blanks_nil line blank .none

theorem lineCodes_append_lineEnd {ending : List Char} (unbroken : '\n' ∉ line)
    (ends : IsLineEnd ending) (rest : List Char) :
    lineCodes (line ++ (ending ++ rest)) = code line :: lineCodes rest := by
  cases ends with
  | newline => exact lineCodes_append_newline unbroken rest
  | carriageReturn =>
    have longer : '\n' ∉ line ++ ['\r'] := by simpa using unbroken
    have split : line ++ (['\r', '\n'] ++ rest) = line ++ ['\r'] ++ '\n' :: rest := by simp
    rw [split, lineCodes_append_newline longer, code_carriageReturn]

theorem forall₂_written_cons_iff {cores : List (List Char)} :
    List.Forall₂ Spells bytes (written (core :: cores)) ↔
      ∃ byte rest, bytes = byte.toList ++ rest ∧ Encodes byte core ∧
        List.Forall₂ Spells rest (written cores) := by
  by_cases empty : core = []
  · rw [empty, written_cons_of_empty]
    constructor
    · intro spell
      exact ⟨none, bytes, rfl, rfl, spell⟩
    · rintro ⟨byte, rest, rfl, encodes, spell⟩
      cases byte with
      | none => exact spell
      | some b => exact absurd rfl (spells_iff.mp encodes).1.1
  · rw [written_cons_of_nonempty empty, List.forall₂_cons_right_iff]
    constructor
    · rintro ⟨b, rest, spells, spell, rfl⟩
      exact ⟨some b, rest, rfl, spells, spell⟩
    · rintro ⟨byte, rest, rfl, encodes, spell⟩
      cases byte with
      | none => exact absurd encodes empty
      | some b => exact ⟨b, rest, encodes, spell, rfl⟩

theorem written_code_of_unbroken (unbroken : '\n' ∉ line) :
    written (lineCodes line) = written [code line] := by
  by_cases empty : line = []
  · subst empty
    rfl
  · rw [lineCodes_of_unbroken empty unbroken]

/-- The codes of a text tell the bytes that it writes. -/
theorem writes_iff :
    Writes bytes text ↔ List.Forall₂ Spells bytes (written (lineCodes text)) := by
  constructor
  · intro writes
    induction writes with
    | nil => exact .nil
    | @last byte line writes =>
      obtain ⟨unbroken, encodes⟩ := writesLine_iff.mp writes
      rw [written_code_of_unbroken unbroken, forall₂_written_cons_iff]
      exact ⟨byte, [], (List.append_nil _).symm, encodes, .nil⟩
    | @cons byte line ending bytes rest writes ends _ inductionHypothesis =>
      obtain ⟨unbroken, encodes⟩ := writesLine_iff.mp writes
      rw [List.append_assoc, lineCodes_append_lineEnd unbroken ends, forall₂_written_cons_iff]
      exact ⟨byte, bytes, rfl, encodes, inductionHypothesis⟩
  · intro spell
    have split := Text.isLines_lines text
    rw [lineCodes] at spell
    generalize Text.lines text = pieces at spell split
    induction split generalizing bytes with
    | nil =>
      cases spell
      exact .nil
    | @last line _ unbroken =>
      obtain ⟨byte, rest, rfl, encodes, nothing⟩ := forall₂_written_cons_iff.mp spell
      cases nothing
      rw [List.append_nil]
      exact .last (writesLine_iff.mpr ⟨unbroken, encodes⟩)
    | @cons line rest pieces unbroken _ inductionHypothesis =>
      obtain ⟨byte, later, rfl, encodes, spell'⟩ := forall₂_written_cons_iff.mp spell
      have writes := writesLine_iff.mpr ⟨unbroken, encodes⟩
      have whole := Writes.cons writes .newline (inductionHypothesis spell')
      rwa [List.append_assoc] at whole

end Lines

section Parse

variable {bytes : List UInt8} {text : String}

theorem parse_eq_ok_iff_writes :
    parse text = .ok bytes ↔ bytes.length ≤ 256 ∧ Writes bytes text.toList := by
  rw [parse_eq_iff_verdict, writes_iff]
  constructor
  · intro verdict
    cases verdict with
    | accepted literals fits values =>
      have spell := forall₂_spells_iff.mpr ⟨literals, values⟩
      exact ⟨spell.length_eq ▸ fits, spell⟩
  · rintro ⟨fits, spell⟩
    obtain ⟨literals, values⟩ := forall₂_spells_iff.mp spell
    exact .accepted literals (spell.length_eq ▸ fits) values

theorem writes_render (bytes : List UInt8) : Writes bytes (render bytes).toList := by
  rw [render, String.toList_ofList]
  induction bytes with
  | nil => exact .nil
  | cons b bytes inductionHypothesis =>
    have writes := WritesLine.literal blanks_nil (spells_numeral b) blanks_nil .none
    have whole := Writes.cons writes .newline inductionHypothesis
    simpa using whole

/-- A text is parsed to bytes exactly if it writes them and they fit into memory. So bytes that have
been parsed, however they are written anew, are parsed to the same bytes. -/
theorem parsing_inverts_writing (text : String) (bytes : List UInt8) :
    (parse text = .ok bytes ↔ bytes.length ≤ 256 ∧ Writes bytes text.toList) ∧
      (parse text = .ok bytes → parse (render bytes) = .ok bytes ∧
        ∀ again : String, Writes bytes again.toList → parse again = .ok bytes) := by
  refine ⟨parse_eq_ok_iff_writes, fun parsed => ?_⟩
  have fits := (parse_eq_ok_iff_writes.mp parsed).1
  have anew (again : String) (writes : Writes bytes again.toList) : parse again = .ok bytes :=
    parse_eq_ok_iff_writes.mpr ⟨fits, writes⟩
  exact ⟨anew (render bytes) (writes_render bytes), anew⟩

/-- A literal between blanks of two kinds and before a comment, a line that holds a comment only,
and a last line that is not ended. -/
theorem parsing_inverts_writing_three_lines :
    let text := "\u2003010 \t# a # b\r\n\u00a0#\n11111111"
    Writes [2, 255] text.toList ∧ parse text = .ok [2, 255] ∧
      parse (render [2, 255]) = .ok [2, 255] := by
  intro text
  have first : WritesLine (some 2) "\u2003010 \t# a # b".toList :=
    .literal (by decide : Blanks ['\u2003']) (⟨1, by decide⟩ : Spells 2 ['0', '1', '0'])
      (by decide : Blanks [' ', '\t']) (.hash (by decide))
  have second : WritesLine none "\u00a0#".toList :=
    .empty (by decide : Blanks ['\u00a0']) (.hash (by decide))
  have third : WritesLine (some 255) "11111111".toList :=
    .literal blanks_nil (⟨0, by decide⟩ : Spells 255 (List.replicate 8 '1')) blanks_nil .none
  have split : text.toList = "\u2003010 \t# a # b".toList ++ ['\r', '\n'] ++
      ("\u00a0#".toList ++ ['\n'] ++ "11111111".toList) := by decide
  have writes : Writes [2, 255] text.toList := by
    rw [split]
    exact .cons first .carriageReturn (.cons second .newline (.last third))
  have parsed := (parsing_inverts_writing text [2, 255]).1.mpr ⟨by decide, writes⟩
  exact ⟨writes, parsed, ((parsing_inverts_writing text [2, 255]).2 parsed).1⟩

end Parse

end ByteMachine.Image
