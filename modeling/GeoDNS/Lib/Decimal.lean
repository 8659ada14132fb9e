import GeoDNS.Lib.Strings

/-!
# Decimal numbers

A number that is written out in decimal digits is read back. `digitsValue_repr` is that for the digits
alone, `atoi_itoa` for an integer that fits 64 bits, whose sign is written in front of them.
-/

namespace GeoDNS.Lib

/-- The value of the digits of a number. -/
lemma digitsValue_toDigits (n : Nat) : digitsValue (Nat.toDigits 10 n) = some n := by
  have nonempty : Nat.toDigits 10 n ≠ [] := List.ne_nil_of_length_pos Nat.length_toDigits_pos
  have digits : (Nat.toDigits 10 n).all Char.isDigit := by
    rw [List.all_eq_true]
    intro c hc
    exact Nat.isDigit_of_mem_toDigits (by decide) (by decide) hc
  rw [digitsValue, if_pos ⟨nonempty, digits⟩]
  exact congrArg some (Nat.ofDigitChars_toDigits (by decide) (by decide))

/-- The value of the text of a number is the number. -/
lemma digitsValue_repr (n : Nat) : digitsValue n.repr.toList = some n := by
  rw [Nat.toList_repr]
  exact digitsValue_toDigits n

/-- The first digit of a number is no sign. -/
lemma toDigits_cons (n : Nat) : ∃ c cs, Nat.toDigits 10 n = c :: cs ∧ c ≠ '-' ∧ c ≠ '+' := by
  cases h : Nat.toDigits 10 n with
  | nil => exact (List.ne_nil_of_length_pos Nat.length_toDigits_pos h).elim
  | cons c cs =>
    have mem : c ∈ Nat.toDigits 10 n := h ▸ List.mem_cons_self
    have digit : c.isDigit := Nat.isDigit_of_mem_toDigits (by decide) (by decide) mem
    refine ⟨c, cs, rfl, ?_, ?_⟩
    · rintro rfl
      exact absurd digit (by decide)
    · rintro rfl
      exact absurd digit (by decide)

/-- The text of a number that fits is read as the number. -/
lemma atoi_repr {n : Nat} (fits : (n : Int) < 2 ^ 63) : atoi n.repr = some (n : Int) := by
  obtain ⟨c, cs, digits, minus, plus⟩ := toDigits_cons n
  have value : digitsValue (c :: cs) = some n := digits ▸ digitsValue_toDigits n
  unfold atoi
  rw [Nat.toList_repr, digits]
  split
  · rename_i ds e
    cases e
    exact (minus rfl).elim
  · rename_i ds e
    cases e
    exact (plus rfl).elim
  · rw [value]
    show Option.filter _ (some (n : Int)) = _
    rw [Option.filter_some, if_pos (decide_eq_true ⟨by omega, fits⟩)]

/-- An integer of 64 bits is read back from its decimal form. -/
theorem atoi_itoa {n : Int} (low : -2 ^ 63 ≤ n) (high : n < 2 ^ 63) : atoi (itoa n) = some n := by
  cases n with
  | ofNat n => exact atoi_repr high
  | negSucc n =>
    have text : (itoa (Int.negSucc n)).toList = '-' :: Nat.toDigits 10 (n + 1) := by
      show ("-" ++ Nat.repr (n + 1)).toList = _
      rw [String.toList_append, Nat.toList_repr]
      rfl
    have value : digitsValue (Nat.toDigits 10 (n + 1)) = some (n + 1) := digitsValue_toDigits (n + 1)
    unfold atoi
    rw [text]
    show Option.filter _ (Option.map (fun n => -n) (digitsValue (Nat.toDigits 10 (n + 1)) >>= fun a =>
      pure (a : Int))) = _
    rw [value]
    show Option.filter _ (some (Int.negSucc n)) = _
    rw [Option.filter_some, if_pos (decide_eq_true ⟨low, high⟩)]

end GeoDNS.Lib
