import ByteMachine.Proofs.ImageJoining
import ByteMachine.Proofs.ImageWriting

/-!
# Editing program images

Edits of what the format ignores: either end of a line, comments, blanks around a line, and lines
that hold nothing. Main statement: whatever the text is, no sequence of such edits changes what
parsing makes of it, but for the number of a bad line, which counts the lines inserted before it.
-/

namespace ByteMachine

/-- The same mistake in a line with another number. -/
def ImageError.renumbered (f : Nat → Nat) : ImageError → ImageError
  | invalidLiteral line text => invalidLiteral (f line) text
  | tooLarge length => tooLarge length

namespace Image

/-- The same text with a carriage return before every newline. -/
def withCarriageReturns (text : List Char) : List Char :=
  text.flatMap fun c => if c = '\n' then ['\r', '\n'] else [c]

/-- What can stand behind a line: its end with any text after it, or nothing. -/
def FollowsLine (after : List Char) : Prop :=
  after = [] ∨ ∃ ending rest, IsLineEnd ending ∧ after = ending ++ rest

/-- An addition to a line, which is given without its end. -/
inductive AddsTo (line : List Char) : List Char → Prop where
  | comment {text} : '\n' ∉ text → AddsTo line (line ++ '#' :: text)
  | blanksBefore {blanks} : Blanks blanks → AddsTo line (blanks ++ line)
  | blanksBehind {blanks} : Blanks blanks → AddsTo line (line ++ blanks)

/-- The new number of a line when another one is inserted behind the first `count`. -/
def movedBehind (count line : Nat) : Nat := if count < line then line + 1 else line

/-- An edit of a text, with the new numbers that it gives to the lines. -/
inductive Edit : (Nat → Nat) → List Char → List Char → Prop where
  | lineEnds {text} : Edit id text (withCarriageReturns text)
  | addition {before line line' after} : Text.Ended before → '\n' ∉ line → FollowsLine after →
      AddsTo line line' → Edit id (before ++ (line ++ after)) (before ++ (line' ++ after))
  | insertion {before line ending after} : Text.Ended before → WritesLine none line →
      IsLineEnd ending → Edit (movedBehind (Text.lines before).length) (before ++ after)
        (before ++ (line ++ ending ++ after))

/-- Any number of edits, one after the other. -/
inductive Edits : (Nat → Nat) → List Char → List Char → Prop where
  | none {text} : Edits id text text
  | another {f g text between again} : Edits f text between → Edit g between again →
      Edits (g ∘ f) text again

section Codes

variable {line line' after : List Char}

theorem AddsTo.code_eq (adds : AddsTo line line') : code line' = code line := by
  cases adds with
  | comment unbroken => simpa using code_padded blanks_nil line blanks_nil (.hash unbroken)
  | blanksBefore blank => simpa using code_padded blank line blanks_nil .none
  | blanksBehind blank => simpa using code_padded blanks_nil line blank .none

theorem AddsTo.unbroken (adds : AddsTo line line') (unbroken : '\n' ∉ line) : '\n' ∉ line' := by
  cases adds with
  | comment unbroken' => simp [unbroken, unbroken']
  | blanksBefore blank => simp [unbroken, blank.not_mem.2]
  | blanksBehind blank => simp [unbroken, blank.not_mem.2]

theorem AddsTo.length_le (adds : AddsTo line line') : line.length ≤ line'.length := by
  cases adds <;> simp

/-- A line counts with its code, but an empty one that has no end does not count. -/
theorem exists_lineCodes_behind (follows : FollowsLine after) :
    ∃ later, ∀ line, '\n' ∉ line → line ++ after ≠ [] →
      lineCodes (line ++ after) = code line :: later := by
  rcases follows with rfl | ⟨ending, rest, ends, rfl⟩
  · refine ⟨[], fun line unbroken nonempty => ?_⟩
    rw [List.append_nil] at nonempty ⊢
    exact lineCodes_of_unbroken nonempty unbroken
  · exact ⟨lineCodes rest, fun line unbroken _ => lineCodes_append_lineEnd unbroken ends rest⟩

theorem withCarriageReturns_of_unbroken (unbroken : '\n' ∉ line) :
    withCarriageReturns line = line := by
  have kept : ∀ c ∈ line, (if c = '\n' then ['\r', '\n'] else [c]) = [c] := by
    intro c found
    rw [if_neg]
    rintro rfl
    exact unbroken found
  rw [withCarriageReturns, List.flatMap_congr kept, List.flatMap_singleton']

theorem lineCodes_withCarriageReturns (text : List Char) :
    lineCodes (withCarriageReturns text) = lineCodes text := by
  obtain ⟨pieces, split⟩ : ∃ pieces, Text.IsLines text pieces := ⟨_, Text.isLines_lines text⟩
  induction split with
  | nil => rfl
  | last _ unbroken => rw [withCarriageReturns_of_unbroken unbroken]
  | @cons line rest _ unbroken _ inductionHypothesis =>
    have split : withCarriageReturns (line ++ '\n' :: rest) =
        line ++ (['\r', '\n'] ++ withCarriageReturns rest) := by
      rw [withCarriageReturns, List.flatMap_append, ← withCarriageReturns,
        withCarriageReturns_of_unbroken unbroken]
      simp [withCarriageReturns]
    rw [split, lineCodes_append_lineEnd unbroken .carriageReturn, inductionHypothesis,
      lineCodes_append_newline unbroken]

end Codes

section Verdicts

variable {f : Nat → Nat} {line line' after text again : List Char}
  {codes codes' : List (List Char)} {result : Except ImageError (List UInt8)}

theorem mapError_renumbered_id (result : Except ImageError (List UInt8)) :
    result.mapError (ImageError.renumbered id) = result := by
  cases result with
  | ok bytes => rfl
  | error mistake => cases mistake <;> rfl

theorem mapError_renumbered_comp (f g : Nat → Nat) (result : Except ImageError (List UInt8)) :
    result.mapError (ImageError.renumbered (g ∘ f)) =
      (result.mapError (ImageError.renumbered f)).mapError (ImageError.renumbered g) := by
  cases result with
  | ok bytes => rfl
  | error mistake => cases mistake <;> rfl

theorem written_insert_empty (codes codes' : List (List Char)) :
    written (codes ++ [] :: codes') = written (codes ++ codes') := by
  rw [written_append, written_cons_of_empty, written_append]

theorem behind_or_before {earlier later : List (List Char)} {code : List Char}
    (split : codes ++ codes' = earlier ++ code :: later) :
    (∃ between, earlier = codes ++ between ∧ codes' = between ++ code :: later) ∨
      ∃ between, codes = earlier ++ code :: between ∧ later = between ++ codes' := by
  rcases List.append_eq_append_iff.mp split with behind | ⟨between, rfl, rest⟩
  · exact .inl behind
  · rcases List.cons_eq_append_iff.mp rest with ⟨rfl, same⟩ | ⟨between, rfl, same⟩
    · exact .inl ⟨[], by simp, same⟩
    · exact .inr ⟨between, rfl, same⟩

/-- An empty code between others does no more than move the line of a bad code behind it. -/
theorem Verdict.insert_empty (verdict : Verdict (codes ++ codes') result)
    (stays : ∀ line ≤ codes.length, f line = line)
    (moves : ∀ line, codes.length < line → line ≤ codes.length + codes'.length →
      f line = line + 1) :
    Verdict (codes ++ [] :: codes') (result.mapError (ImageError.renumbered f)) := by
  cases verdict with
  | accepted literals fits values =>
    rw [← written_insert_empty] at literals fits values
    exact .accepted literals fits values
  | tooLarge literals large =>
    rw [← written_insert_empty] at literals large ⊢
    exact .tooLarge literals large
  | @invalidLiteral earlier code later split literals nonempty bad =>
    rcases behind_or_before split with ⟨between, rfl, rfl⟩ | ⟨between, rfl, rfl⟩
    · have moved : f ((codes ++ between).length + 1) = (codes ++ [] :: between).length + 1 := by
        simp only [List.length_append, List.length_cons] at moves ⊢
        rw [moves _ (by omega) (by omega)]
        omega
      have longer : codes ++ [] :: (between ++ code :: later) =
          codes ++ [] :: between ++ code :: later := by simp
      rw [← written_insert_empty] at literals
      rw [Except.mapError, ImageError.renumbered, moved]
      exact .invalidLiteral longer literals nonempty bad
    · have stayed : f (earlier.length + 1) = earlier.length + 1 := stays _ (by simp)
      have longer : earlier ++ code :: between ++ [] :: codes' =
          earlier ++ code :: (between ++ [] :: codes') := by simp
      rw [Except.mapError, ImageError.renumbered, stayed]
      exact .invalidLiteral longer literals nonempty bad

/-- Nor does one at the end. -/
theorem Verdict.append_empty (verdict : Verdict codes result) :
    Verdict (codes ++ [[]]) result := by
  rw [← List.append_nil codes] at verdict
  rw [← mapError_renumbered_id result]
  refine verdict.insert_empty (fun _ _ => rfl) fun line behind within => ?_
  exact absurd within (Nat.not_le.mpr behind)

/-- An addition to a line leaves the codes as they are, or makes an empty line at the end count. -/
theorem AddsTo.lineCodes_eq (adds : AddsTo line line') (unbroken : '\n' ∉ line)
    (follows : FollowsLine after) :
    lineCodes (line' ++ after) = lineCodes (line ++ after) ∨
      lineCodes (line ++ after) = [] ∧ lineCodes (line' ++ after) = [[]] := by
  obtain ⟨later, counts⟩ := exists_lineCodes_behind follows
  by_cases nothing : line ++ after = []
  · obtain ⟨rfl, rfl⟩ := List.append_eq_nil_iff.mp nothing
    by_cases nothing' : line' = []
    · exact .inl (by rw [nothing'])
    · refine .inr ⟨rfl, ?_⟩
      rw [List.append_nil, lineCodes_of_unbroken nothing' (adds.unbroken unbroken), adds.code_eq]
      rfl
  · have something : line' ++ after ≠ [] := by
      have longer := adds.length_le
      have positive := List.length_pos_iff.mpr nothing
      apply List.ne_nil_of_length_pos
      rw [List.length_append] at positive ⊢
      omega
    left
    rw [counts line unbroken nothing, counts line' (adds.unbroken unbroken) something, adds.code_eq]

theorem Edit.verdict (edit : Edit f text again) (verdict : Verdict (lineCodes text) result) :
    Verdict (lineCodes again) (result.mapError (ImageError.renumbered f)) := by
  cases edit with
  | lineEnds =>
    rw [mapError_renumbered_id, lineCodes_withCarriageReturns]
    exact verdict
  | @addition before line line' after ended unbroken follows adds =>
    rw [lineCodes_append ended] at verdict
    rw [mapError_renumbered_id, lineCodes_append ended]
    rcases adds.lineCodes_eq unbroken follows with same | ⟨nothing, empty⟩
    · rw [same]
      exact verdict
    · rw [nothing, List.append_nil] at verdict
      rw [empty]
      exact verdict.append_empty
  | @insertion before line ending after ended writes ends =>
    obtain ⟨unbroken, empty⟩ := writesLine_iff.mp writes
    rw [Encodes] at empty
    rw [lineCodes_append ended] at verdict
    rw [lineCodes_append ended, List.append_assoc, lineCodes_append_lineEnd unbroken ends, empty]
    have counted : (Text.lines before).length = (lineCodes before).length := by
      rw [lineCodes, List.length_map]
    rw [counted]
    exact verdict.insert_empty (fun line before => if_neg (Nat.not_lt.mpr before))
      fun line behind _ => if_pos behind

theorem Edits.verdict (edits : Edits f text again) (verdict : Verdict (lineCodes text) result) :
    Verdict (lineCodes again) (result.mapError (ImageError.renumbered f)) := by
  induction edits with
  | none =>
    rw [mapError_renumbered_id]
    exact verdict
  | another _ edit inductionHypothesis =>
    rw [mapError_renumbered_comp]
    exact edit.verdict (inductionHypothesis verdict)

end Verdicts

/-- Edits of what the format ignores only change the number of a bad line. -/
theorem edits_keep_meaning {f : Nat → Nat} {text again : String}
    (edits : Edits f text.toList again.toList) :
    parse again = (parse text).mapError (ImageError.renumbered f) :=
  parse_eq_iff_verdict.mpr (edits.verdict (parse_eq_iff_verdict.mp rfl))

/-- Another end and a comment for the first line, and a new line before the second, which is bad. -/
theorem edits_keep_meaning_bad_third_line :
    let text := "1\n2"
    let again := "1# a\r\n\t#\n2"
    Edits (movedBehind 1) text.toList again.toList ∧
      parse again = (parse text).mapError (ImageError.renumbered (movedBehind 1)) ∧
      parse again = .error (.invalidLiteral 3 "2") := by
  intro text again
  have ends : Edit id text.toList "1\r\n2".toList := by
    have replaced : withCarriageReturns text.toList = "1\r\n2".toList := by decide
    exact replaced ▸ .lineEnds
  have comment : Edit id "1\r\n2".toList "1# a\r\n2".toList := by
    have adds : AddsTo ['1'] "1# a".toList := .comment (by decide : '\n' ∉ [' ', 'a'])
    have follows : FollowsLine "\r\n2".toList := .inr ⟨_, ['2'], .carriageReturn, rfl⟩
    have ended : Text.Ended [] := by decide
    exact .addition ended (by decide) follows adds
  have line : Edit (movedBehind 1) "1# a\r\n2".toList again.toList := by
    have ended : Text.Ended "1# a\r\n".toList := by decide
    have nothing : WritesLine none "\t#".toList :=
      .empty (by decide : Blanks ['\t']) (.hash (by decide : '\n' ∉ []))
    have oneLine : (Text.lines "1# a\r\n".toList).length = 1 := by decide
    have split : "1# a\r\n2".toList = "1# a\r\n".toList ++ ['2'] := by decide
    have split' : again.toList = "1# a\r\n".toList ++ ("\t#".toList ++ ['\n'] ++ ['2']) := by
      decide
    rw [split, split', ← oneLine]
    exact .insertion ended nothing .newline
  have edits : Edits (movedBehind 1) text.toList again.toList :=
    .another (.another (.another .none ends) comment) line
  exact ⟨edits, edits_keep_meaning edits, by decide +kernel⟩

end Image

end ByteMachine
