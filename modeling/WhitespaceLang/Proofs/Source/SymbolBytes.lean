import WhitespaceLang.Bytes.Utf8
import WhitespaceLang.Symbol
import Mathlib.Tactic.Ring

/-!
The symbols in the bytes of a source. Only three bytes stand for a symbol, each by itself. No other
byte can make or hide one, since a character of several bytes is never below 0x80, and a byte that
does not continue a character is looked at again by itself.
-/

namespace WhitespaceLang

theorem CodePoint.val_ofNat {n : Nat} (h : n < 0x110000) : (ofNat n).val = n := Nat.mod_eq_of_lt h

namespace Utf8

/-- Whether a byte means something in a program. All other bytes are comments. -/
def isSignificant (b : UInt8) : Bool := b == 0x20 || b == 0x09 || b == 0x0A

end Utf8

namespace Symbol

/-- The symbol that a byte stands for by itself. -/
def ofByte? (b : UInt8) : Option Symbol := ofCodePoint? (.ofNat b.toNat)

theorem ofCodePoint?_eq_none {c : CodePoint} (h : ∀ s : Symbol, c ≠ s.codePoint) :
    ofCodePoint? c = none := by
  rw [ofCodePoint?, if_neg (h space), if_neg (h tab), if_neg (h feed)]

theorem ofCodePoint?_ofNat {n : Nat} (h : 0x80 ≤ n) (hn : n < 0x110000) :
    ofCodePoint? (.ofNat n) = none := by
  apply ofCodePoint?_eq_none
  intro s heq
  rw [← CodePoint.val_ofNat hn, heq] at h
  cases s <;> exact absurd h (by decide)

theorem ofByte?_eq_none {b : UInt8} (h : Utf8.isSignificant b = false) : ofByte? b = none := by
  simp only [Utf8.isSignificant, Bool.or_eq_false_iff, beq_eq_false_iff_ne] at h
  obtain ⟨⟨hspace, htab⟩, hfeed⟩ := h
  apply ofCodePoint?_eq_none
  intro s heq
  have hb : b.toNat = s.codePoint.val := by
    rw [← heq, CodePoint.val_ofNat (Nat.lt_trans b.toNat_lt (by decide))]
  cases s with
  | space => exact hspace (UInt8.toNat_inj.mp hb)
  | tab => exact htab (UInt8.toNat_inj.mp hb)
  | feed => exact hfeed (UInt8.toNat_inj.mp hb)

theorem ofByte?_of_le {b : UInt8} (h : 0x80 ≤ b.toNat) : ofByte? b = none :=
  ofCodePoint?_ofNat h (Nat.lt_trans b.toNat_lt (by decide))

/-- Dropping the bytes that are comments drops no symbol. -/
theorem filterMap_ofByte? (bytes : List UInt8) :
    (bytes.filter Utf8.isSignificant).filterMap ofByte? = bytes.filterMap ofByte? := by
  rw [List.filterMap_filter]
  congr
  funext b
  cases h : Utf8.isSignificant b with
  | true => rfl
  | false => rw [ofByte?_eq_none h]; rfl

end Symbol

namespace Utf8

/-- The symbol that a piece stands for. Bytes that are no character stand for none. -/
def Piece.symbol? : Piece → Option Symbol
  | .char c => Symbol.ofCodePoint? c
  | .flaw _ => none

namespace Pending

/-- The least number of a character that is completed from here. -/
def least (p : Pending) : Nat := (p.value * 0x40 + (p.low.toNat - 0x80)) * 0x40 ^ (p.owed - 1)

/-- The first number beyond all characters that are completed from here. -/
def bound (p : Pending) : Nat := (p.value * 0x40 + (p.high.toNat - 0x80) + 1) * 0x40 ^ (p.owed - 1)

/-- What is begun needs more bytes, none of them below 0x80, and completes to no character
below 0x80. -/
structure Sound (p : Pending) : Prop where
  owed_pos : 0 < p.owed
  low_le : 0x80 ≤ p.low.toNat
  least_le : 0x80 ≤ p.least
  bound_le : p.bound ≤ 0x110000

variable {p : Pending} {b : UInt8}

/-- The character begun with one more byte that continues it. -/
def continued (p : Pending) (b : UInt8) : Pending :=
  ⟨p.seen ++ [b], p.value * 0x40 + (b.toNat - 0x80), p.owed - 1, 0x80, 0xBF⟩

theorem Sound.char (h : p.Sound) (howed : p.owed ≤ 1) (hlow : p.low ≤ b) (hhigh : b ≤ p.high) :
    Symbol.ofCodePoint? (.ofNat (p.value * 0x40 + (b.toNat - 0x80))) = none := by
  have hone : p.owed - 1 = 0 := by omega
  have hleast := h.least_le
  have hbound := h.bound_le
  rw [least, hone, Nat.pow_zero, Nat.mul_one] at hleast
  rw [bound, hone, Nat.pow_zero, Nat.mul_one] at hbound
  rw [UInt8.le_iff_toNat_le] at hlow hhigh
  exact Symbol.ofCodePoint?_ofNat (by omega) (by omega)

theorem Sound.continued (h : p.Sound) (howed : 1 < p.owed) (hlow : p.low ≤ b) (hhigh : b ≤ p.high) :
    (p.continued b).Sound := by
  rw [UInt8.le_iff_toNat_le] at hlow hhigh
  have hwidth : 0x40 ^ (p.owed - 1) = 0x40 ^ (p.owed - 1 - 1) * 0x40 :=
    (Nat.pow_pred_mul (by omega)).symm
  refine ⟨by simp only [Pending.continued]; omega, Nat.le_refl _, ?_, ?_⟩
  · have hleast : (p.continued b).least =
        (p.value * 0x40 + (b.toNat - 0x80)) * 0x40 ^ (p.owed - 1) := by
      simp only [least, Pending.continued, UInt8.reduceToNat, hwidth]
      ring
    rw [hleast]
    exact Nat.le_trans h.least_le (Nat.mul_le_mul_right _ (by omega))
  · have hbound : (p.continued b).bound =
        (p.value * 0x40 + (b.toNat - 0x80) + 1) * 0x40 ^ (p.owed - 1) := by
      simp only [bound, Pending.continued, UInt8.reduceToNat, hwidth]
      ring
    rw [hbound]
    exact Nat.le_trans (Nat.mul_le_mul_right _ (by omega)) h.bound_le

end Pending

theorem start_sound {b : UInt8} {p : Pending} (h : (start b).2 = some p) : p.Sound := by
  simp only [start, UInt8.lt_iff_toNat_lt, ← UInt8.toNat_inj, UInt8.reduceToNat] at h
  repeat' split at h
  -- What is left are the branches that begin a character.
  all_goals cases h
  all_goals constructor <;> simp only [Pending.least, Pending.bound, UInt8.reduceToNat] <;> omega

theorem start_symbols (b : UInt8) :
    (start b).1.filterMap Piece.symbol? = (Symbol.ofByte? b).toList := by
  simp only [start]
  split
  · next h =>
      cases hb : Symbol.ofByte? b with
      | none => exact List.filterMap_cons_none hb
      | some s => exact List.filterMap_cons_some hb
  · next h =>
      rw [Symbol.ofByte?_of_le (Nat.le_of_not_lt h)]
      repeat' split
      all_goals rfl

variable {q : Option Pending}

theorem step_sound (hq : ∀ p ∈ q, p.Sound) (b : UInt8) : ∀ p ∈ (step q b).2, p.Sound := by
  cases q with
  | none => exact fun p hp => start_sound hp
  | some p =>
      have hp : p.Sound := hq p rfl
      simp only [step]
      split
      · next hb =>
          split
          · nofun
          · next howed =>
              intro p' hp'
              cases hp'
              exact hp.continued (Nat.lt_of_not_le howed) hb.1 hb.2
      · exact fun p' hp' => start_sound hp'

theorem step_symbols (hq : ∀ p ∈ q, p.Sound) (b : UInt8) :
    (step q b).1.filterMap Piece.symbol? = (Symbol.ofByte? b).toList := by
  cases q with
  | none => exact start_symbols b
  | some p =>
      have hp : p.Sound := hq p rfl
      simp only [step]
      split
      · next hb =>
          have hlow := UInt8.le_iff_toNat_le.mp hb.1
          rw [Symbol.ofByte?_of_le (Nat.le_trans hp.low_le hlow)]
          split
          · next howed => exact List.filterMap_cons_none (hp.char howed hb.1 hb.2)
          · rfl
      · exact start_symbols b

/-- The induction carries the character that is begun, of which no symbol can come. -/
theorem piecesFrom_symbols (hq : ∀ p ∈ q, p.Sound) (bytes : List UInt8) :
    (piecesFrom q bytes).filterMap Piece.symbol? = bytes.filterMap Symbol.ofByte? := by
  induction bytes generalizing q with
  | nil => cases q <;> rfl
  | cons b bytes ih =>
      rw [piecesFrom_cons, List.filterMap_append, step_symbols hq, ih (step_sound hq b)]
      cases h : Symbol.ofByte? b with
      | none => rw [List.filterMap_cons_none h]; rfl
      | some s => rw [List.filterMap_cons_some h]; rfl

end Utf8

theorem Text.symbols_decodeReplacing (bytes : List UInt8) :
    (Utf8.decodeReplacing bytes).symbols = bytes.filterMap Symbol.ofByte? := by
  have hnone : ∀ p ∈ (none : Option Utf8.Pending), p.Sound := nofun
  rw [← Utf8.piecesFrom_symbols hnone, Text.symbols, Utf8.decodeReplacing, List.filterMap_map]
  congr
  funext p
  cases p with
  | char c => rfl
  | flaw f => rfl

end WhitespaceLang
