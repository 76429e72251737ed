import WhitespaceLang.Instr.Spelling
import WhitespaceLang.Token.Lexer
import Mathlib.Data.List.Induction

/-!
Literals as the lexer reads them. Bits come back as they were written, a number is what its digits
say whatever zeros stand in front of them, and each way to read a number is listed with the symbols
it takes.
-/

namespace WhitespaceLang
namespace Spelling

theorem bitSymbol_ne_feed (b : Bool) : bitSymbol b ≠ .feed := by
  cases b <;> decide

/-- Every symbol but the feed is a bit. -/
theorem exists_bitSymbol_eq {s : Symbol} (h : s ≠ .feed) : ∃ b, bitSymbol b = s := by
  cases s with
  | space => exact ⟨false, rfl⟩
  | tab => exact ⟨true, rfl⟩
  | feed => exact absurd rfl h

theorem feed_not_mem_map_bitSymbol (bs : List Bool) : .feed ∉ bs.map bitSymbol := by
  intro h
  obtain ⟨b, -, hb⟩ := List.mem_map.mp h
  exact bitSymbol_ne_feed b hb

theorem exists_map_bitSymbol_eq {w : List Symbol} (h : .feed ∉ w) :
    ∃ bs : List Bool, bs.map bitSymbol = w := by
  induction w with
  | nil => exact ⟨[], rfl⟩
  | cons s w ih =>
      simp only [List.mem_cons, not_or] at h
      obtain ⟨b, rfl⟩ := exists_bitSymbol_eq (Ne.symm h.1)
      obtain ⟨bs, rfl⟩ := ih h.2
      exact ⟨b :: bs, rfl⟩

theorem MaySign.ne_feed {n : Int} {sign : Symbol} (h : MaySign n sign) : sign ≠ .feed := by
  obtain ⟨rfl, -⟩ | ⟨rfl, -⟩ := h
  · decide
  · decide

@[simp] theorem bits_cons (b : Bool) (bs : List Bool) :
    bits (b :: bs) = bitSymbol b :: bits bs := rfl

@[simp] theorem bits_nil : bits [] = [.feed] := rfl

/-- Doubling a number and adding a bit writes the bit behind its digits. -/
theorem binary_append_bit (n : Nat) (b : Bool) (h : 2 * n + b.toNat ≠ 0) :
    binary (2 * n + b.toNat) = binary n ++ [b] := by
  rw [binary, if_neg h]
  have hb : b.toNat < 2 := Bool.toNat_lt b
  have half : (2 * n + b.toNat) / 2 = n := by omega
  have last : ((2 * n + b.toNat) % 2 == 1) = b := by cases b <;> simp
  rw [half, last]

end Spelling

namespace Lexer
open Spelling

@[simp] theorem readBits_nil : readBits [] = none := rfl

@[simp] theorem readBits_feed (w : List Symbol) : readBits (.feed :: w) = some ([], w) := rfl

@[simp] theorem readBits_bit (b : Bool) (w : List Symbol) :
    readBits (bitSymbol b :: w) = (readBits w).map fun r => (b :: r.1, r.2) := by
  have h : (bitSymbol b != .feed) = true := by cases b <;> rfl
  have hb : (bitSymbol b == .tab) = b := by cases b <;> rfl
  simp only [readBits, List.dropWhile_cons, List.takeWhile_cons, h, ite_true, List.map_cons, hb]
  split <;> rfl

theorem readBits_eq_some_iff {w rest : List Symbol} {bs : List Bool} :
    readBits w = some (bs, rest) ↔ w = bits bs ++ rest := by
  induction w generalizing bs with
  | nil => simp [bits]
  | cons s w ih =>
      by_cases hs : s = .feed
      · subst hs
        cases bs with
        | nil => simp
        | cons b bs => simp [Ne.symm (bitSymbol_ne_feed b)]
      · obtain ⟨b, rfl⟩ := exists_bitSymbol_eq hs
        cases bs with
        | nil => simp [hs]
        | cons c cs =>
            have hbc : bitSymbol b = bitSymbol c ↔ b = c := by cases b <;> cases c <;> decide
            simp only [readBits_bit, Option.map_eq_some_iff, Prod.mk.injEq, List.cons.injEq,
              bits_cons, List.cons_append, hbc, ← ih]
            constructor
            · intro h
              obtain ⟨⟨ds, r⟩, hr, ⟨rfl, rfl⟩, rfl⟩ := h
              exact ⟨rfl, hr⟩
            · intro h
              obtain ⟨rfl, hr⟩ := h
              exact ⟨(cs, rest), hr, ⟨rfl, rfl⟩, rfl⟩

theorem readBits_eq_none_iff {w : List Symbol} : readBits w = none ↔ .feed ∉ w := by
  induction w with
  | nil => simp
  | cons s w ih =>
      by_cases hs : s = .feed
      · simp [hs]
      · obtain ⟨b, rfl⟩ := exists_bitSymbol_eq hs
        simp [ih, Ne.symm hs]

theorem ofBits_append_bit (bs : List Bool) (b : Bool) :
    ofBits (bs ++ [b]) = 2 * ofBits bs + b.toNat := by
  simp [ofBits]

theorem ofBits_leadingZeros (k : Nat) (bs : List Bool) :
    ofBits (List.replicate k false ++ bs) = ofBits bs := by
  induction k with
  | zero => rfl
  | succ k ih => exact ih

theorem ofBits_binary (n : Nat) : ofBits (binary n) = n := by
  induction n using binary.induct with
  | case1 => rw [binary, if_pos rfl]; rfl
  | case2 n hn ih =>
      rw [binary, if_neg hn, ofBits_append_bit, ih]
      have hr := Nat.mod_two_eq_zero_or_one n
      obtain hr | hr := hr <;> simp [hr] <;> omega

/-- Digits are the binary digits of what they stand for, behind some zeros. -/
theorem exists_leadingZeros (bs : List Bool) :
    ∃ k, bs = List.replicate k false ++ binary (ofBits bs) := by
  induction bs using List.reverseRecOn with
  | nil => exact ⟨0, by rw [binary]; rfl⟩
  | append_singleton bs b ih =>
      obtain ⟨k, hk⟩ := ih
      rw [ofBits_append_bit]
      by_cases h : 2 * ofBits bs + b.toNat = 0
      · -- All bits so far are zeros, and this one only makes the run longer.
        have hz : ofBits bs = 0 := by omega
        have hb : b = false := by
          cases b with
          | false => rfl
          | true => simp at h
        refine ⟨k + 1, ?_⟩
        rw [h, hb, binary, if_pos rfl, List.append_nil, List.replicate_succ']
        rw [hz, binary, if_pos rfl, List.append_nil] at hk
        rw [hk]
      · refine ⟨k, ?_⟩
        rw [binary_append_bit _ _ h, ← List.append_assoc, ← hk]

/-- Whatever is read with a sign is spelled by it and the digits. -/
theorem number_signedValue {sign : Symbol} {bs : List Bool} (hs : sign ≠ .feed) (hb : bs ≠ []) :
    Spelling.Number (signedValue sign bs) (sign :: bits bs) := by
  obtain ⟨k, hk⟩ := exists_leadingZeros bs
  have habs : (signedValue sign bs).natAbs = ofBits bs := by
    simp only [signedValue]
    split <;> simp
  refine ⟨sign, k, ?_, ?_, ?_⟩
  · cases sign with
    | space => exact .inl ⟨rfl, by simp [signedValue]⟩
    | tab => exact .inr ⟨rfl, by simp [signedValue]⟩
    | feed => exact absurd rfl hs
  · rwa [habs, ← hk]
  · rw [habs, ← hk]

theorem signedValue_spelled {n : Int} {sign : Symbol} (k : Nat) (h : MaySign n sign) :
    signedValue sign (List.replicate k false ++ binary n.natAbs) = n := by
  simp only [signedValue]
  rw [ofBits_leadingZeros, ofBits_binary]
  obtain ⟨rfl, hn⟩ | ⟨rfl, hn⟩ := h
  · rw [if_neg (by decide)]
    omega
  · rw [if_pos rfl]
    omega

/-- The ways to read a number, with the symbols taken and the result. -/
inductive NumberReading : List Symbol → Except LexError Int × List Symbol → Prop
  | number {n : Int} {v : List Symbol} (rest : List Symbol) (h : Spelling.Number n v) :
      NumberReading (v ++ rest) (.ok n, rest)
  | noSign (rest : List Symbol) : NumberReading (.feed :: rest) (.error .noSign, rest)
  | noDigits {sign : Symbol} (rest : List Symbol) (h : sign ≠ .feed) :
      NumberReading (sign :: .feed :: rest) (.error .noDigits, rest)
  | empty : NumberReading [] (.error .insideNumber, [])
  | unended {sign : Symbol} {w : List Symbol} (hs : sign ≠ .feed) (hw : .feed ∉ w) :
      NumberReading (sign :: w) (.error .insideNumber, [])

theorem readNumber_of_readBits {sign : Symbol} {w : List Symbol} (hs : sign ≠ .feed) :
    readNumber (sign :: w) =
      match readBits w with
      | none => (.error .insideNumber, [])
      | some ([], rest) => (.error .noDigits, rest)
      | some (bs, rest) => (.ok (signedValue sign bs), rest) := by
  cases sign with
  | space | tab => rfl
  | feed => exact absurd rfl hs

theorem numberReading (w : List Symbol) : NumberReading w (readNumber w) := by
  cases w with
  | nil => exact .empty
  | cons sign w =>
      by_cases hs : sign = .feed
      · subst hs
        exact .noSign w
      · rw [readNumber_of_readBits hs]
        split
        · next hb => exact .unended hs (readBits_eq_none_iff.mp hb)
        · next rest hb =>
            rw [readBits_eq_some_iff.mp hb]
            exact .noDigits rest hs
        · next bs rest hne hb =>
            rw [readBits_eq_some_iff.mp hb]
            exact .number rest (number_signedValue hs fun h => hne (by rw [h]))

/-- A spelled number is read as that number, and nothing behind it is touched. -/
theorem readNumber_spelled {n : Int} {v : List Symbol} (h : Spelling.Number n v)
    (rest : List Symbol) : readNumber (v ++ rest) = (.ok n, rest) := by
  obtain ⟨sign, k, hsign, hne, rfl⟩ := h
  rw [List.cons_append, readNumber_of_readBits hsign.ne_feed, readBits_eq_some_iff.mpr rfl]
  split
  · next hb => simp at hb
  · next hb =>
      simp only [Option.some.injEq, Prod.mk.injEq] at hb
      exact absurd hb.1 hne
  · next hb =>
      simp only [Option.some.injEq, Prod.mk.injEq] at hb
      obtain ⟨rfl, rfl⟩ := hb
      rw [signedValue_spelled k hsign]

theorem readLabel_spelled (l : Label) (rest : List Symbol) :
    readLabel (bits l ++ rest) = (.ok l, rest) := by
  simp only [readLabel, readBits_eq_some_iff.mpr rfl]

theorem readLabel_unended {w : List Symbol} (h : .feed ∉ w) :
    readLabel w = (.error .insideLabel, []) := by
  simp only [readLabel, readBits_eq_none_iff.mpr h]

end Lexer
end WhitespaceLang
