/-!
# Lines

A text cut at a separator, and a text as lines. `split` keeps an empty last piece, `lines` does not.
-/

namespace ByteMachine.Text

/-- The pieces between separators: one more than there are separators. -/
def split (separator : Char) : List Char → List (List Char)
  | [] => [[]]
  | c :: rest =>
    if c = separator then [] :: split separator rest
    else match split separator rest with
      | [] => [[c]]
      | piece :: later => (c :: piece) :: later

/-- The lines of a text: the pieces that a newline ends, and what follows the last newline unless it
is empty. -/
def lines : List Char → List (List Char)
  | [] => []
  | c :: rest =>
    if c = '\n' then [] :: lines rest
    else match lines rest with
      | [] => [[c]]
      | line :: later => (c :: line) :: later

theorem split_of_not_mem {separator : Char} {piece : List Char} (unbroken : separator ∉ piece) :
    split separator piece = [piece] := by
  induction piece with
  | nil => rfl
  | cons c rest inductionHypothesis =>
    rw [List.mem_cons, not_or] at unbroken
    obtain ⟨other, later⟩ := unbroken
    simp [split, Ne.symm other, inductionHypothesis later]

theorem split_append_cons {separator : Char} {piece : List Char} (unbroken : separator ∉ piece)
    (rest : List Char) :
    split separator (piece ++ separator :: rest) = piece :: split separator rest := by
  induction piece with
  | nil => simp [split]
  | cons c piece inductionHypothesis =>
    rw [List.mem_cons, not_or] at unbroken
    obtain ⟨other, later⟩ := unbroken
    simp [split, Ne.symm other, inductionHypothesis later]

/-- A text that is put together from pieces is cut into these. -/
theorem split_flatMap_cons {separator : Char} {piece : List Char} {pieces : List (List Char)}
    (unbroken : separator ∉ piece) (each : ∀ piece ∈ pieces, separator ∉ piece) :
    split separator (piece ++ pieces.flatMap (separator :: ·)) = piece :: pieces := by
  induction pieces generalizing piece with
  | nil =>
    rw [List.flatMap_nil, List.append_nil]
    exact split_of_not_mem unbroken
  | cons next pieces inductionHypothesis =>
    obtain ⟨first, others⟩ := List.forall_mem_cons.mp each
    rw [List.flatMap_cons, List.cons_append, split_append_cons unbroken]
    exact congrArg (piece :: ·) (inductionHypothesis first others)

/-- What stands before the first separator, and what stands behind it, are told by the whole. -/
theorem append_cons_inj_first {separator : Char} {piece piece' rest rest' : List Char}
    (unbroken : separator ∉ piece) (unbroken' : separator ∉ piece') :
    piece ++ separator :: rest = piece' ++ separator :: rest' ↔ piece = piece' ∧ rest = rest' := by
  constructor
  · intro same
    have pieces := congrArg (split separator) same
    rw [split_append_cons unbroken, split_append_cons unbroken'] at pieces
    obtain rfl := (List.cons.inj pieces).1
    exact ⟨rfl, (List.cons.inj (List.append_cancel_left same)).2⟩
  · rintro ⟨rfl, rfl⟩
    rfl

theorem append_cons_inj_last {separator : Char} {before before' piece piece' : List Char}
    (unbroken : separator ∉ piece) (unbroken' : separator ∉ piece') :
    before ++ separator :: piece = before' ++ separator :: piece' ↔
      before = before' ∧ piece = piece' := by
  have mirrored : piece.reverse ++ separator :: before.reverse =
        piece'.reverse ++ separator :: before'.reverse ↔
      piece.reverse = piece'.reverse ∧ before.reverse = before'.reverse :=
    append_cons_inj_first (mt List.mem_reverse.mp unbroken) (mt List.mem_reverse.mp unbroken')
  rw [← List.reverse_inj, and_comm]
  simpa using mirrored

theorem lines_eq_nil_iff {text : List Char} : lines text = [] ↔ text = [] := by
  fun_cases lines text <;> simp

@[simp] theorem lines_newline_cons (rest : List Char) : lines ('\n' :: rest) = [] :: lines rest :=
  rfl

end ByteMachine.Text
