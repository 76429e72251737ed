import WhitespaceLang.Bytes.Utf8
import Mathlib.Algebra.Order.Ring.Nat

/-!
A text that is encoded in UTF-8 is decoded to itself. The first byte of a character tells how many
follow it and carries the highest bits, and each byte behind it carries six bits more. The bounds
that the first byte sets to the second rule out no character but the surrogates.
-/

namespace WhitespaceLang
namespace Utf8

theorem toNat_continuation (n : Nat) : (continuation n).toNat = 0x80 + n % 0x40 := by
  rw [continuation, UInt8.toNat_ofNat']
  omega

/-- The last `k` bytes of the number `n`, which has more of them. -/
def continuations (n : Nat) : (k : Nat) → List UInt8
  | 0 => []
  | k + 1 => continuation (n / 0x40 ^ k) :: continuations n k

/-- The character begun is the number `n` without the bits of its last `k + 1` bytes, and takes the
first of these. -/
structure Pending.Begins (p : Pending) (n k : Nat) : Prop where
  owed_eq : p.owed = k + 1
  value_eq : p.value = n / 0x40 ^ (k + 1)
  low_le : p.low.toNat ≤ 0x80 + n / 0x40 ^ k % 0x40
  le_high : 0x80 + n / 0x40 ^ k % 0x40 ≤ p.high.toNat

namespace Pending.Begins

variable {p : Pending} {n k : Nat}

theorem step_eq (h : p.Begins n k) :
    step (some p) (continuation (n / 0x40 ^ k)) =
      if k = 0 then ([.char (CodePoint.ofNat n)], none)
      else ([], some ⟨p.seen ++ [continuation (n / 0x40 ^ k)], n / 0x40 ^ k, k, 0x80, 0xBF⟩) := by
  have hbounds : p.low ≤ continuation (n / 0x40 ^ k) ∧ continuation (n / 0x40 ^ k) ≤ p.high := by
    rw [UInt8.le_iff_toNat_le, UInt8.le_iff_toNat_le, toNat_continuation]
    exact ⟨h.low_le, h.le_high⟩
  have hvalue : p.value * 0x40 + ((continuation (n / 0x40 ^ k)).toNat - 0x80) = n / 0x40 ^ k := by
    rw [toNat_continuation, h.value_eq, Nat.add_sub_cancel_left, Nat.pow_succ,
      ← Nat.div_div_eq_div_mul, Nat.div_add_mod']
  simp only [step, if_pos hbounds, hvalue, h.owed_eq, Nat.add_sub_cancel]
  by_cases hk : k = 0
  · simp [hk]
  · simp [hk]

/-- Behind its second byte a character takes any other that carries bits. -/
theorem of_seen (seen : List UInt8) (n k : Nat) :
    Begins ⟨seen, n / 0x40 ^ (k + 1), k + 1, 0x80, 0xBF⟩ n k where
  owed_eq := rfl
  value_eq := rfl
  low_le := Nat.le_add_right _ _
  le_high := by
    change 0x80 + n / 0x40 ^ k % 0x40 ≤ 0xBF
    omega

/-- By induction on the bytes to come. -/
theorem piecesFrom_eq (h : p.Begins n k) (rest : List UInt8) :
    piecesFrom (some p) (continuations n (k + 1) ++ rest) =
      .char (CodePoint.ofNat n) :: pieces rest := by
  induction k generalizing p with
  | zero =>
      rw [continuations, List.cons_append, piecesFrom_cons, h.step_eq, if_pos rfl]
      rfl
  | succ k ih =>
      rw [continuations, List.cons_append, piecesFrom_cons, h.step_eq, if_neg k.succ_ne_zero]
      exact ih (of_seen _ n k)

end Pending.Begins

/-- What the first byte of two, three or four begins. -/
theorem start_two : ∀ m < 0x20, 2 ≤ m → start (UInt8.ofNat (0xC0 + m)) =
    ([], some ⟨[UInt8.ofNat (0xC0 + m)], m, 1, 0x80, 0xBF⟩) := by
  decide

theorem start_three : ∀ m < 0x10, start (UInt8.ofNat (0xE0 + m)) =
    ([], some ⟨[UInt8.ofNat (0xE0 + m)], m, 2, if m = 0 then 0xA0 else 0x80,
      if m = 0xD then 0x9F else 0xBF⟩) := by
  decide

theorem start_four : ∀ m < 5, start (UInt8.ofNat (0xF0 + m)) =
    ([], some ⟨[UInt8.ofNat (0xF0 + m)], m, 3, if m = 0 then 0x90 else 0x80,
      if m = 4 then 0x8F else 0xBF⟩) := by
  decide

/-- A first byte and the bytes behind it are one piece. -/
theorem pieces_of_start {b : UInt8} {p : Pending} {c : CodePoint} {k : Nat}
    (hb : start b = ([], some p)) (hp : p.Begins c.val k) (rest : List UInt8) :
    pieces (b :: continuations c.val (k + 1) ++ rest) = .char c :: pieces rest := by
  have hstep : step none b = ([], some p) := hb
  rw [pieces, List.cons_append, piecesFrom_cons, hstep]
  have hpieces := hp.piecesFrom_eq rest
  rw [CodePoint.ofNat_val] at hpieces
  exact hpieces

section Lengths

variable {c : CodePoint}

theorem pieces_one (h : c.val < 0x80) (rest : List UInt8) :
    pieces (UInt8.ofNat c.val :: rest) = .char c :: pieces rest := by
  have hval : (UInt8.ofNat c.val).toNat = c.val :=
    UInt8.toNat_ofNat_of_lt' (Nat.lt_trans h (by decide))
  have hlt : UInt8.ofNat c.val < 0x80 := by
    rw [UInt8.lt_iff_toNat_lt, hval]
    exact h
  rw [pieces, piecesFrom_cons, step, start, if_pos hlt, hval, CodePoint.ofNat_val]
  rfl

theorem pieces_two (h : 0x80 ≤ c.val) (h' : c.val < 0x800) (rest : List UInt8) :
    pieces ([UInt8.ofNat (0xC0 + c.val / 0x40), continuation c.val] ++ rest) =
      .char c :: pieces rest := by
  have hpieces := pieces_of_start (start_two (c.val / 0x40) (by omega) (by omega))
    (.of_seen _ c.val 0) rest
  simpa only [continuations, Nat.pow_zero, Nat.div_one] using hpieces

theorem pieces_three (hc : c.isSurrogate = false) (h : 0x800 ≤ c.val) (h' : c.val < 0x10000)
    (rest : List UInt8) :
    pieces ([UInt8.ofNat (0xE0 + c.val / 0x1000), continuation (c.val / 0x40),
      continuation c.val] ++ rest) = .char c :: pieces rest := by
  have hgap : c.val < 0xD800 ∨ 0xDFFF < c.val := by
    simpa only [CodePoint.isSurrogate, Bool.and_eq_false_iff, decide_eq_false_iff_not,
      Nat.not_le] using hc
  have hlow : (if c.val / 0x1000 = 0 then (0xA0 : UInt8) else 0x80).toNat ≤
      0x80 + c.val / 0x40 % 0x40 := by
    split <;> simp only [UInt8.reduceToNat] <;> omega
  have hhigh : 0x80 + c.val / 0x40 % 0x40 ≤
      (if c.val / 0x1000 = 0xD then (0x9F : UInt8) else 0xBF).toNat := by
    split <;> simp only [UInt8.reduceToNat] <;> omega
  have hpieces := pieces_of_start (k := 1) (start_three (c.val / 0x1000) (by omega))
    ⟨rfl, rfl, hlow, hhigh⟩ rest
  simpa only [continuations, Nat.pow_zero, Nat.pow_one, Nat.div_one] using hpieces

theorem pieces_four (h : 0x10000 ≤ c.val) (rest : List UInt8) :
    pieces ([UInt8.ofNat (0xF0 + c.val / 0x40000), continuation (c.val / 0x1000),
      continuation (c.val / 0x40), continuation c.val] ++ rest) = .char c :: pieces rest := by
  have hlast := c.isLt
  have hlow : (if c.val / 0x40000 = 0 then (0x90 : UInt8) else 0x80).toNat ≤
      0x80 + c.val / 0x1000 % 0x40 := by
    split <;> simp only [UInt8.reduceToNat] <;> omega
  have hhigh : 0x80 + c.val / 0x1000 % 0x40 ≤
      (if c.val / 0x40000 = 4 then (0x8F : UInt8) else 0xBF).toNat := by
    split <;> simp only [UInt8.reduceToNat] <;> omega
  have hpieces := pieces_of_start (k := 2) (start_four (c.val / 0x40000) (by omega))
    ⟨rfl, rfl, hlow, hhigh⟩ rest
  simpa only [continuations, Nat.pow_zero, Nat.pow_one, Nat.div_one, Nat.reducePow] using hpieces

/-- The cases are the numbers of bytes. -/
theorem pieces_encodeChar (hc : c.isSurrogate = false) (rest : List UInt8) :
    pieces (encodeChar c ++ rest) = .char c :: pieces rest := by
  simp only [encodeChar]
  split
  · next h => exact pieces_one h rest
  · split
    · next h h' => exact pieces_two (Nat.le_of_not_lt h) h' rest
    · split
      · next h h' => exact pieces_three hc (Nat.le_of_not_lt h) h' rest
      · next h => exact pieces_four (Nat.le_of_not_lt h) rest

end Lengths

theorem decodeFrom_map_char (t : Text) (position : Nat) :
    decodeFrom position (t.map .char) = (t, none) := by
  induction t generalizing position with
  | nil => rfl
  | cons c t ih => rw [List.map_cons, decodeFrom, ih]

/-- What is encoded without surrogates is decoded to what it was. -/
theorem decode_encode {t : Text} (h : ∀ c ∈ t, c.isSurrogate = false) :
    decode (encode t) = (t, none) := by
  have hpieces : pieces (encode t) = t.map .char := by
    induction t with
    | nil => rfl
    | cons c t ih =>
        obtain ⟨hc, ht⟩ := List.forall_mem_cons.mp h
        rw [encode, List.flatMap_cons, pieces_encodeChar hc, List.map_cons, ← ih ht, encode]
  rw [decode, hpieces, decodeFrom_map_char]

end Utf8
end WhitespaceLang
