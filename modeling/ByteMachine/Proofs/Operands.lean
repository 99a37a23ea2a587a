import ByteMachine.Proofs.Plan

/-!
# Operands

When the operands of an instruction can be read and what they then are, and which of them is to
blame when they cannot.
-/

namespace ByteMachine

theorem Except.map_eq_error_iff {α β : Type} {result : Except Fault α} {f : α → β}
    {fault : Fault} : result.map f = .error fault ↔ result = .error fault := by
  cases result <;> simp [Except.map]

theorem Except.bind_eq_error_iff {α β : Type} {result : Except Fault α}
    {next : α → Except Fault β} {fault : Fault} :
    result >>= next = .error fault ↔
      result = .error fault ∨ ∃ value, result = .ok value ∧ next value = .error fault := by
  cases result <;> simp [bind, Except.bind]

/-- What cannot fail itself adds no fault. -/
theorem Except.bind_eq_error_iff_of_passes {α β : Type} {result : Except Fault α}
    {next : α → Except Fault β} (passes : ∀ value, ∃ found, next value = .ok found)
    {fault : Fault} : result >>= next = .error fault ↔ result = .error fault := by
  rw [Except.bind_eq_error_iff]
  refine or_iff_left ?_
  rintro ⟨value, -, failed⟩
  obtain ⟨found, passed⟩ := passes value
  cases passed.symm.trans failed

theorem Text.decimal_eq_toString (n : UInt8) : Text.decimal n.toNat = toString n.toNat := by
  have each : ∀ n < 256, Text.decimal n = toString n := by decide +kernel
  exact each n.toNat n.toNat_lt

theorem Registers.read_eq_ok_iff {registers : Registers} {i value : UInt8} :
    registers.read i = .ok value ↔ ∃ r : RegisterIndex, i.toNat = r ∧ registers.get r = value := by
  simp only [Registers.read, Except.map_eq_ok_iff, Registers.index_eq_ok_iff]

theorem Registers.read_of_named {i : UInt8} {r : RegisterIndex} (named : i.toNat = r)
    (registers : Registers) : registers.read i = .ok (registers.get r) :=
  read_eq_ok_iff.mpr ⟨r, named, rfl⟩

theorem Registers.exists_index_iff {i : UInt8} :
    (∃ r, Registers.index i = .ok r) ↔ i.toNat < registerCount := by
  simp only [Registers.index_eq_ok_iff]
  exact ⟨fun ⟨r, named⟩ => named ▸ r.isLt, fun inside => ⟨⟨i.toNat, inside⟩, rfl⟩⟩

namespace Alu

variable {comparison : Comparison} {registers : Registers} {a b x y : UInt8}
  {target : RegisterIndex} {fault : Fault}

theorem operands_eq_ok_iff :
    operands registers a b = .ok (target, x, y) ↔
      a.toNat = target ∧ registers.get target = x ∧
        ∃ t : RegisterIndex, b.toNat = t ∧ registers.get t = y := by
  simp only [operands, Except.bind_eq_ok_iff, Registers.index_eq_ok_iff, Registers.read_eq_ok_iff]
  constructor
  · rintro ⟨r, named, value, ⟨t, named', rfl⟩, ⟨⟩⟩
    exact ⟨named, rfl, t, named', rfl⟩
  · rintro ⟨named, rfl, t, named', rfl⟩
    exact ⟨target, named, _, ⟨t, named', rfl⟩, rfl⟩

theorem operands_eq_error_iff :
    operands registers a b = .error fault ↔
      (8 ≤ a.toNat ∧ fault = .register a) ∨
        (a.toNat < 8 ∧ 8 ≤ b.toNat ∧ fault = .register b) := by
  simp only [operands, Registers.read, Except.bind_eq_error_iff, Except.map_eq_error_iff,
    Registers.index_eq_error_iff]
  constructor
  · rintro (unnamed | ⟨r, named, unnamed | ⟨value, -, ⟨⟩⟩⟩)
    · exact .inl unnamed
    · exact .inr ⟨Registers.exists_index_iff.mp ⟨r, named⟩, unnamed⟩
  · rintro (unnamed | ⟨inside, unnamed⟩)
    · exact .inl unnamed
    · obtain ⟨r, named⟩ := Registers.exists_index_iff.mpr inside
      exact .inr ⟨r, named, .inl unnamed⟩

/-- Sums, differences and products fail only by their operands. -/
theorem evaluate_eq_error_iff_of_total {operation : AluOperation} (undivided : operation ≠ .div)
    (combining : operation ≠ .cmp) :
    evaluate comparison operation a b registers = .error fault ↔
      operands registers a b = .error fault := by
  cases operation with
  | add | sub | mul => exact Except.bind_eq_error_iff_of_passes fun _ => ⟨_, rfl⟩
  | div => exact absurd rfl undivided
  | cmp => exact absurd rfl combining

theorem evaluate_div_eq_ok_iff {effect : Effect} :
    evaluate comparison .div a b registers = .ok effect ↔
      ∃ target x y, operands registers a b = .ok (target, x, y) ∧ y ≠ 0 ∧
        effect = .register target (x / y) := by
  simp only [evaluate, Except.bind_eq_ok_iff]
  constructor
  · rintro ⟨⟨target, x, y⟩, found, divided⟩
    by_cases zero : y = 0
    · simp only [zero, if_true] at divided
      cases divided
    · simp only [zero, if_false] at divided
      cases divided
      exact ⟨target, x, y, found, zero, rfl⟩
  · rintro ⟨target, x, y, found, divisor, rfl⟩
    refine ⟨(target, x, y), found, ?_⟩
    simp only [divisor, if_false]
    rfl

theorem evaluate_div_eq_error_iff :
    evaluate comparison .div a b registers = .error fault ↔
      operands registers a b = .error fault ∨
        ∃ r x, operands registers a b = .ok (r, x, 0) ∧ fault = .divisionByZero := by
  simp only [evaluate, Except.bind_eq_error_iff]
  apply or_congr_right
  constructor
  · rintro ⟨⟨r, x, y⟩, found, divided⟩
    by_cases zero : y = 0
    · subst zero
      cases divided
      exact ⟨r, x, found, rfl⟩
    · simp only [zero, if_false] at divided
      cases divided
  · rintro ⟨r, x, found, rfl⟩
    exact ⟨_, found, rfl⟩

theorem evaluate_cmp_eq_error_iff :
    evaluate comparison .cmp a b registers = .error fault ↔
      comparison = .contents ∧ operands registers a b = .error fault := by
  cases comparison with
  | contents =>
    have whole : evaluate .contents .cmp a b registers = .error fault ↔
        (operands registers a b).map Prod.snd = .error fault :=
      Except.bind_eq_error_iff_of_passes fun _ => ⟨_, rfl⟩
    rw [whole, Except.map_eq_error_iff, and_iff_right rfl]
  | indices => exact ⟨nofun, nofun⟩

end Alu

end ByteMachine
