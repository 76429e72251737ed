import WhitespaceLang.Decimal

/-!
Decimal text read back. A number is written with digits and at most a sign in front, and what it
stands for is the number that was written, so no two numbers have the same text.
-/

namespace WhitespaceLang
namespace Decimal

theorem digit_val (n : Nat) : (digit n).val = 0x30 + n % 10 := by
  simp only [digit, CodePoint.ofNat]
  omega

theorem isDigit_digit (n : Nat) : isDigit (digit n) = true := by
  simp only [isDigit, digit_val, Bool.and_eq_true, decide_eq_true_eq]
  omega

theorem digitsBefore_of_lt {n : Nat} (h : n < 10) (rest : Text) :
    digitsBefore n rest = digit n :: rest := by
  rw [digitsBefore, if_pos h]

theorem digitsBefore_of_le {n : Nat} (h : 10 ≤ n) (rest : Text) :
    digitsBefore n rest = digitsBefore (n / 10) (digit n :: rest) := by
  rw [digitsBefore, if_neg (Nat.not_lt_of_le h)]

/-- The digits do not depend on what they are put in front of. -/
theorem digitsBefore_eq (n : Nat) (rest : Text) : digitsBefore n rest = natText n ++ rest := by
  rw [natText]
  induction n using Nat.strongRecOn generalizing rest with
  | ind n ih =>
      by_cases hn : n < 10
      · rw [digitsBefore_of_lt hn, digitsBefore_of_lt hn]
        rfl
      · have hlt : n / 10 < n := by omega
        have hle := Nat.le_of_not_lt hn
        rw [digitsBefore_of_le hle, digitsBefore_of_le hle, ih _ hlt, ih _ hlt [digit n],
          List.append_assoc]
        rfl

theorem natText_of_lt {n : Nat} (h : n < 10) : natText n = [digit n] := digitsBefore_of_lt h []

theorem natText_of_le {n : Nat} (h : 10 ≤ n) : natText n = natText (n / 10) ++ [digit n] := by
  rw [natText, digitsBefore_of_le h, digitsBefore_eq]

theorem isDigit_of_mem_natText {n : Nat} {c : CodePoint} (h : c ∈ natText n) :
    isDigit c = true := by
  induction n using Nat.strongRecOn with
  | ind n ih =>
      by_cases hn : n < 10
      · rw [natText_of_lt hn, List.mem_singleton] at h
        rw [h]
        exact isDigit_digit n
      · rw [natText_of_le (Nat.le_of_not_lt hn), List.mem_append, List.mem_singleton] at h
        obtain h | rfl := h
        · exact ih (n / 10) (by omega) h
        · exact isDigit_digit n

theorem value_append_digit (t : Text) (c : CodePoint) :
    value (t ++ [c]) = 10 * value t + (c.val - 0x30) := by
  rw [value, value, List.foldl_append]
  rfl

theorem value_natText (n : Nat) : value (natText n) = n := by
  induction n using Nat.strongRecOn with
  | ind n ih =>
      by_cases hn : n < 10
      · rw [natText_of_lt hn, ← List.nil_append [digit n], value_append_digit, digit_val]
        change 10 * 0 + _ = n
        omega
      · rw [natText_of_le (Nat.le_of_not_lt hn), value_append_digit, digit_val,
          ih (n / 10) (by omega)]
        omega

theorem not_isDigit_minus : isDigit (.ofChar '-') = false := by decide

theorem not_isDigit_plus : isDigit (.ofChar '+') = false := by decide

/-- Digits are no sign. -/
theorem signed_of_isDigit {t : Text} (h : ∀ c ∈ t, isDigit c = true) : signed t = (false, t) := by
  cases t with
  | nil => rfl
  | cons c rest =>
      have hc : isDigit c = true := h c List.mem_cons_self
      have hminus : c ≠ .ofChar '-' := by
        intro heq
        rw [heq, not_isDigit_minus] at hc
        cases hc
      have hplus : c ≠ .ofChar '+' := by
        intro heq
        rw [heq, not_isDigit_plus] at hc
        cases hc
      rw [signed, if_neg hminus, if_neg hplus]

theorem numeralValue_text (n : Int) : numeralValue (text n) = n := by
  cases n with
  | ofNat n =>
      rw [text, numeralValue, signed_of_isDigit fun c => isDigit_of_mem_natText, value_natText]
      rfl
  | negSucc n =>
      have hsigned : signed (text (.negSucc n)) = (true, natText (n + 1)) := rfl
      rw [numeralValue, hsigned, value_natText]
      rfl

theorem text_injective {n m : Int} (h : text n = text m) : n = m := by
  rw [← numeralValue_text n, h, numeralValue_text]

theorem natText_ne_nil (n : Nat) : natText n ≠ [] := by
  by_cases hn : n < 10
  · rw [natText_of_lt hn]
    exact List.cons_ne_nil _ _
  · rw [natText_of_le (Nat.le_of_not_lt hn)]
    exact List.append_ne_nil_of_right_ne_nil _ (List.cons_ne_nil _ _)

theorem length_natText_le_iff {n k : Nat} :
    (natText n).length ≤ k + 1 ↔ n < Nat.pow 10 (k + 1) := by
  induction k generalizing n with
  | zero =>
      change _ ↔ n < 10
      by_cases hn : n < 10
      · simp [natText_of_lt hn, hn]
      · have hpos := List.length_pos_iff.mpr (natText_ne_nil (n / 10))
        rw [natText_of_le (Nat.le_of_not_lt hn), List.length_append, List.length_singleton]
        omega
  | succ k ih =>
      by_cases hn : n < 10
      · have hpow : 10 ≤ Nat.pow 10 (k + 1 + 1) := Nat.le_self_pow (Nat.succ_ne_zero _) 10
        rw [natText_of_lt hn, List.length_singleton]
        omega
      · rw [natText_of_le (Nat.le_of_not_lt hn), List.length_append, List.length_singleton,
          Nat.add_le_add_iff_right, ih, Nat.div_lt_iff_lt_mul (by decide)]
        exact Iff.rfl

theorem signed_text (n : Int) : (signed (text n)).2 = natText n.natAbs := by
  cases n with
  | ofNat n => rw [text, signed_of_isDigit fun c => isDigit_of_mem_natText]; rfl
  | negSucc n => rfl

theorem isNumeral_text (n : Int) : IsNumeral (text n) := by
  rw [IsNumeral, signed_text, List.all_eq_true]
  exact ⟨natText_ne_nil _, fun c => isDigit_of_mem_natText⟩

/-- A number is written with digits and a minus sign only. -/
theorem mem_text {n : Int} {c : CodePoint} (h : c ∈ text n) :
    isDigit c = true ∨ c = .ofChar '-' := by
  cases n with
  | ofNat n => exact .inl (isDigit_of_mem_natText h)
  | negSucc n =>
      obtain rfl | h := List.mem_cons.mp h
      · exact .inr rfl
      · exact .inl (isDigit_of_mem_natText h)

end Decimal
end WhitespaceLang
