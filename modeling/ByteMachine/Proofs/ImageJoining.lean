import ByteMachine.Proofs.ImageGrammar

/-!
# Joining program images

An image with another one behind it. Main statement: if the first one ends its last line, what
parsing makes of the two together is determined by what it makes of each of them and by the number
of lines of the first.
-/

namespace ByteMachine

namespace Text

/-- Nothing, or a text with a newline at its end. -/
def Ended (text : List Char) : Prop := ∀ c ∈ text.getLast?, c = '\n'

instance (text : List Char) : Decidable (Ended text) :=
  decidable_of_iff (text.getLast?.all (· == '\n')) (by simp [Ended, Option.all_eq_true])

section Ended

variable {first second line rest : List Char} {pieces pieces' : List (List Char)}

theorem Ended.behind_newline (ended : Ended (line ++ '\n' :: rest)) : Ended rest := by
  intro c last
  apply ended
  simp [List.getLast?_append, List.getLast?_cons, Option.mem_def.mp last]

theorem IsLines.append (split : IsLines first pieces) (split' : IsLines second pieces')
    (ended : Ended first) : IsLines (first ++ second) (pieces ++ pieces') := by
  induction split with
  | nil => exact split'
  | last nonempty unbroken =>
    have newline := ended _ (List.getLast?_eq_some_getLast nonempty)
    exact absurd (newline ▸ List.getLast_mem nonempty) unbroken
  | cons unbroken _ inductionHypothesis =>
    rw [List.append_assoc, List.cons_append]
    exact .cons unbroken (inductionHypothesis ended.behind_newline)

theorem lines_append (ended : Ended first) (second : List Char) :
    lines (first ++ second) = lines first ++ lines second :=
  isLines_iff.mp ((isLines_lines first).append (isLines_lines second) ended)

end Ended

end Text

namespace Image

/-- How many bytes a text holds, whether they fit into memory or not, by what parsing makes of
it. -/
inductive Holds : Except ImageError (List UInt8) → Nat → Prop where
  | ok {bytes} : Holds (.ok bytes) bytes.length
  | tooLarge {length} : Holds (.error (.tooLarge length)) length

/-- What a first text, of so many lines, and a second one behind it make together. -/
inductive Joins (lines : Nat) (first second : Except ImageError (List UInt8)) :
    Except ImageError (List UInt8) → Prop where
  | firstBad {line text} : first = .error (.invalidLiteral line text) →
      Joins lines first second (.error (.invalidLiteral line text))
  | secondBad {n line text} : Holds first n → second = .error (.invalidLiteral line text) →
      Joins lines first second (.error (.invalidLiteral (lines + line) text))
  | tooLarge {n k} : Holds first n → Holds second k → 256 < n + k →
      Joins lines first second (.error (.tooLarge (n + k)))
  | fits {bytes bytes'} : first = .ok bytes → second = .ok bytes' →
      bytes.length + bytes'.length ≤ 256 → Joins lines first second (.ok (bytes ++ bytes'))

section Joining

variable {codes codes' : List (List Char)} {first second : Except ImageError (List UInt8)}

theorem lineCodes_append {text : List Char} (ended : Text.Ended text) (later : List Char) :
    lineCodes (text ++ later) = lineCodes text ++ lineCodes later := by
  rw [lineCodes, Text.lines_append ended, List.map_append, lineCodes, lineCodes]

theorem written_append (codes codes' : List (List Char)) :
    written (codes ++ codes') = written codes ++ written codes' := List.filter_append ..

/-- Without a bad code, a text holds as many bytes as codes have been written. -/
theorem Verdict.holds_or_bad (verdict : Verdict codes first) :
    ((∀ code ∈ written codes, IsLiteral code) ∧ Holds first (written codes).length) ∨
      ∃ line text, first = .error (.invalidLiteral line text) := by
  cases verdict with
  | accepted literals fits values =>
    have counted := congrArg List.length values
    rw [List.length_map, List.length_map] at counted
    exact .inl ⟨literals, counted ▸ .ok⟩
  | tooLarge literals large => exact .inl ⟨literals, .tooLarge⟩
  | invalidLiteral => exact .inr ⟨_, _, rfl⟩

/-- A bad code is reported whatever stands behind it. -/
theorem Verdict.append_of_bad {line : Nat} {text : String}
    (verdict : Verdict codes (.error (.invalidLiteral line text))) (codes' : List (List Char)) :
    Verdict (codes ++ codes') (.error (.invalidLiteral line text)) := by
  cases verdict with
  | invalidLiteral split literals nonempty bad =>
    have longer := congrArg (· ++ codes') split
    rw [List.append_assoc, List.cons_append] at longer
    exact .invalidLiteral longer literals nonempty bad

/-- Literals in front of a bad code only add to the number of its line. -/
theorem Verdict.literals_append_of_bad {line : Nat} {text : String}
    (literals : ∀ code ∈ written codes, IsLiteral code)
    (verdict : Verdict codes' (.error (.invalidLiteral line text))) :
    Verdict (codes ++ codes') (.error (.invalidLiteral (codes.length + line) text)) := by
  cases verdict with
  | @invalidLiteral before code after split literals' nonempty bad =>
    rw [← Nat.add_assoc, ← List.length_append]
    refine .invalidLiteral (by rw [split, List.append_assoc]) ?_ nonempty bad
    rw [written_append]
    exact List.forall_mem_append.mpr ⟨literals, literals'⟩

theorem Verdict.ok_of_literals (verdict : Verdict codes first)
    (literals : ∀ code ∈ written codes, IsLiteral code) (fits : (written codes).length ≤ 256) :
    ∃ bytes, first = .ok bytes ∧ bytes.map UInt8.toNat = (written codes).map value := by
  cases verdict with
  | accepted _ _ values => exact ⟨_, rfl, values⟩
  | tooLarge _ large => exact absurd fits (Nat.not_le.mpr large)
  | @invalidLiteral before code after split _ nonempty bad =>
    refine absurd (literals code ?_) bad
    rw [split, written_append, written_cons_of_nonempty nonempty]
    exact List.mem_append_right _ List.mem_cons_self

theorem Verdict.join (verdict : Verdict codes first) (verdict' : Verdict codes' second) :
    ∃ joined, Joins codes.length first second joined ∧ Verdict (codes ++ codes') joined := by
  rcases verdict.holds_or_bad with ⟨literals, holds⟩ | ⟨line, text, rfl⟩
  · rcases verdict'.holds_or_bad with ⟨literals', holds'⟩ | ⟨line, text, rfl⟩
    · have together : ∀ code ∈ written (codes ++ codes'), IsLiteral code := by
        rw [written_append]
        exact List.forall_mem_append.mpr ⟨literals, literals'⟩
      have counted : (written (codes ++ codes')).length =
          (written codes).length + (written codes').length := by
        rw [written_append, List.length_append]
      by_cases fits : (written (codes ++ codes')).length ≤ 256
      · obtain ⟨bytes, rfl, values⟩ := verdict.ok_of_literals literals (by omega)
        obtain ⟨bytes', rfl, values'⟩ := verdict'.ok_of_literals literals' (by omega)
        have joinedValues : (bytes ++ bytes').map UInt8.toNat =
            (written (codes ++ codes')).map value := by
          rw [written_append, List.map_append, List.map_append, values, values']
        have size := congrArg List.length joinedValues
        rw [List.length_map, List.length_map, List.length_append] at size
        exact ⟨_, .fits rfl rfl (size ▸ fits), .accepted together fits joinedValues⟩
      · have large := Nat.not_le.mp fits
        refine ⟨_, .tooLarge holds holds' (counted ▸ large), ?_⟩
        rw [← counted]
        exact .tooLarge together large
    · exact ⟨_, .secondBad holds rfl, verdict'.literals_append_of_bad literals⟩
  · exact ⟨_, .firstBad rfl, verdict.append_of_bad codes'⟩

/-- Parsing texts one behind the other is parsing each of them, as long as no line of the first runs
into the second. -/
theorem parsing_joins_texts {s t : String} (ended : Text.Ended s.toList) :
    Joins (Text.lines s.toList).length (parse s) (parse t) (parse (s ++ t)) := by
  have verdict := parse_eq_iff_verdict.mp (rfl : parse s = _)
  have verdict' := parse_eq_iff_verdict.mp (rfl : parse t = _)
  obtain ⟨joined, joins, together⟩ := verdict.join verdict'
  rw [← lineCodes_append ended, ← String.toList_append] at together
  rw [parse_eq_iff_verdict.mpr together]
  rwa [lineCodes, List.length_map] at joins

/-- The second line of the second text is the fourth of both. -/
theorem parsing_joins_texts_bad_fourth_line :
    let s := "1\n#\n"
    let t := "0\r\n2"
    Text.Ended s.toList ∧ Joins 2 (parse s) (parse t) (parse (s ++ t)) ∧
      parse (s ++ t) = .error (.invalidLiteral 4 "2") := by
  intro s t
  have ended : Text.Ended s.toList := by decide
  have twoLines : (Text.lines s.toList).length = 2 := by decide
  exact ⟨ended, twoLines ▸ parsing_joins_texts ended, by decide +kernel⟩

end Joining

end Image

end ByteMachine
