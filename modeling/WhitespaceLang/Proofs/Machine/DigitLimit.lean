import WhitespaceLang.Proofs.Machine.Operands

/-!
The limit on the digits of numbers in text. Five instructions can meet it: those that print a number
or read one, and those whose fault would name a number.
-/

namespace WhitespaceLang

theorem Decimal.seven_le_maxDigits : 7 ≤ maxDigits := by
  unfold maxDigits
  decide

/-- Seven digits are never too many. -/
theorem Decimal.fits_of_lt {n : Int} (h : n.natAbs < 10000000) : Fits n := by
  have hpow : Nat.pow 10 7 ≤ Nat.pow 10 maxDigits :=
    Nat.pow_le_pow_right (by decide) seven_le_maxDigits
  exact Nat.lt_of_lt_of_le h hpow

theorem CodePoint.ofInt?_of_not_fits {n : Int} (h : ¬ Decimal.Fits n) : ofInt? n = none := by
  rw [ofInt?_eq_none_iff]
  apply Decidable.byContradiction
  intro hn
  exact h (Decimal.fits_of_lt (by omega))

section Operations

variable {n : Int} {e : Decimal.TooLong}

theorem Failure.naming_eq_tooLong_iff {f : Fault} :
    naming n f = .tooLong e ↔ ¬ Decimal.Fits n ∧ e = .writing := by
  simp only [naming]
  split
  · next h => simp [h]
  · next h => simp [h, eq_comm]

theorem Decimal.write_eq_error_iff : write n = .error e ↔ ¬ Fits n ∧ e = .writing := by
  simp only [write]
  split
  · next h => simp [h]
  · next h => simp [h, eq_comm]

theorem Stack.copy_eq_tooLong_iff {s : Stack} :
    s.copy n = .error (.tooLong e) ↔ n < 0 ∧ ¬ Decimal.Fits n ∧ e = .writing := by
  rw [copy_eq]
  split
  · next hn => simp [hn, Failure.naming_eq_tooLong_iff]
  · next hn =>
      simp only [hn, false_and, iff_false]
      split <;> simp

theorem Stack.slide_eq_tooLong_iff {s : Stack} :
    s.slide n = .error (.tooLong e) ↔ n < 0 ∧ ¬ Decimal.Fits n ∧ e = .writing := by
  rw [slide_eq]
  split
  · next hn => simp [hn, Failure.naming_eq_tooLong_iff]
  · next hn =>
      simp only [hn, false_and, iff_false]
      split
      · split <;> simp
      · simp

theorem Stack.swap_ne_tooLong (s : Stack) : s.swap ≠ .error (.tooLong e) := by
  match s with
  | _ :: _ :: _ | [_] | [] => nofun

namespace Device

variable {d : Device}

theorem numberOfWord_eq_tooLong_iff {word : Text} :
    numberOfWord word = .error (.tooLong e) ↔
      Decimal.IsNumeral word ∧ Decimal.maxDigits < (Decimal.signed word).2.length ∧
        e = .reading (Decimal.signed word).2.length := by
  simp only [numberOfWord, Decimal.read]
  by_cases hw : Decimal.IsNumeral word
  · by_cases hlen : (Decimal.signed word).2.length ≤ Decimal.maxDigits
    · simp [hw, hlen, Nat.not_lt_of_le hlen]
    · simp [hw, hlen, Nat.lt_of_not_le hlen, eq_comm]
  · simp [hw]

theorem readChar_ne_tooLong : d.readChar.1 ≠ .error (.tooLong e) := by
  simp only [readChar]
  split <;> nofun

/-- The word that is read for a number is a numeral with this many digits, which is too many. -/
def OverlongWord (d : Device) (digits : Nat) : Prop :=
  ∃ c rest word rest', d.input.readPastBlanks = (.ok (some c), rest) ∧
    rest.readWord = (.ok word, rest') ∧ Decimal.IsNumeral (c :: word) ∧
    (Decimal.signed (c :: word)).2.length = digits ∧ Decimal.maxDigits < digits

theorem readNumber_eq_tooLong_iff :
    d.readNumber.1 = .error (.tooLong e) ↔
      ∃ digits, d.OverlongWord digits ∧ e = .reading digits := by
  simp only [OverlongWord, readNumber]
  split
  · next hb => simp [hb]
  · next hb => simp [hb]
  · next c rest hb =>
      split
      · next hw => simp [hb, hw]
      · next word rest' hw =>
          rw [numberOfWord_eq_tooLong_iff]
          constructor
          · intro h
            obtain ⟨hnum, hlen, rfl⟩ := h
            exact ⟨_, ⟨c, rest, word, rest', hb, hw, hnum, rfl, hlen⟩, rfl⟩
          · intro h
            obtain ⟨digits, ⟨c', r, w, r', hb', hw', hnum, rfl, hlen⟩, rfl⟩ := h
            cases hb.symm.trans hb'
            cases hw.symm.trans hw'
            exact ⟨hnum, hlen, rfl⟩

theorem write_ne_tooLong (t : Text) : (d.write t).1 ≠ .error (.tooLong e) := by
  simp only [write]
  split <;> nofun

theorem printChar_eq_tooLong_iff :
    (d.printChar n).1 = .error (.tooLong e) ↔ ¬ Decimal.Fits n ∧ e = .writing := by
  simp only [printChar]
  cases hn : CodePoint.ofInt? n with
  | some c =>
      have hfits : Decimal.Fits n := by
        apply Decidable.byContradiction
        intro h
        rw [CodePoint.ofInt?_of_not_fits h] at hn
        cases hn
      simp [hfits, write_ne_tooLong]
  | none => simp [Failure.naming_eq_tooLong_iff]

theorem printNumber_eq_tooLong_iff :
    (d.printNumber n).1 = .error (.tooLong e) ↔ ¬ Decimal.Fits n ∧ e = .writing := by
  rw [← Decimal.write_eq_error_iff]
  simp only [printNumber]
  cases Decimal.write n with
  | ok t => simp [write_ne_tooLong]
  | error e' => simp

end Device

namespace Data

variable {d : Data}

/-- The instruction has to write a number, or to read one, that has more digits than are converted.
A copy or a slide by a negative number, and a number that is no character, are named by their
fault. -/
inductive MeetsLimit (d : Data) : Instr → Decimal.TooLong → Prop
  | printNumber {v : Int} {rest : Stack} (hs : d.stack = v :: rest) (hv : ¬ Decimal.Fits v) :
      MeetsLimit d .printNumber .writing
  | printChar {v : Int} {rest : Stack} (hs : d.stack = v :: rest) (hv : ¬ Decimal.Fits v) :
      MeetsLimit d .printChar .writing
  | copy {n : Int} (hn : n < 0) (hv : ¬ Decimal.Fits n) : MeetsLimit d (.copy n) .writing
  | slide {n : Int} (hn : n < 0) (hv : ¬ Decimal.Fits n) : MeetsLimit d (.slide n) .writing
  | readNumber {digits : Nat} (h : d.device.OverlongWord digits) :
      MeetsLimit d .readNumber (.reading digits)

theorem storeRead_eq_tooLong_iff {r : Except Failure Int × Device} :
    (d.storeRead r).1 = .error (.tooLong e) ↔ r.1 = .error (.tooLong e) := by
  obtain ⟨e' | v, device⟩ := r
  · simp [storeRead]
  · simp only [storeRead]
    split <;> simp

theorem printTop_eq_tooLong_iff {print : Int → Device → Except Failure Unit × Device} :
    (d.printTop print).1 = .error (.tooLong e) ↔
      ∃ v rest, d.stack = v :: rest ∧ (print v d.device).1 = .error (.tooLong e) := by
  simp only [printTop]
  split
  · next v rest hs =>
      rw [hs]
      split <;> next hp => simp [hp]
  · next hs => simp [hs]

/-- An instruction is refused a conversion exactly where it meets the limit. -/
theorem execute_eq_tooLong_iff {i : Instr} :
    (d.execute i).1 = .error (.tooLong e) ↔ d.MeetsLimit i e := by
  constructor
  · intro h
    cases i with
    | copy n =>
        obtain ⟨hn, hv, rfl⟩ := Stack.copy_eq_tooLong_iff.mp (updateStack_eq_error_iff.mp h)
        exact .copy hn hv
    | slide n =>
        obtain ⟨hn, hv, rfl⟩ := Stack.slide_eq_tooLong_iff.mp (updateStack_eq_error_iff.mp h)
        exact .slide hn hv
    | dup =>
        obtain ⟨hn, -⟩ := Stack.copy_eq_tooLong_iff.mp (updateStack_eq_error_iff.mp h)
        exact absurd hn (Int.lt_irrefl 0)
    | swap => exact absurd (updateStack_eq_error_iff.mp h) d.stack.swap_ne_tooLong
    | printNumber =>
        obtain ⟨v, rest, hs, hp⟩ := printTop_eq_tooLong_iff.mp h
        obtain ⟨hv, rfl⟩ := Device.printNumber_eq_tooLong_iff.mp hp
        exact .printNumber hs hv
    | printChar =>
        obtain ⟨v, rest, hs, hp⟩ := printTop_eq_tooLong_iff.mp h
        obtain ⟨hv, rfl⟩ := Device.printChar_eq_tooLong_iff.mp hp
        exact .printChar hs hv
    | readNumber =>
        obtain ⟨digits, hr, rfl⟩ :=
          Device.readNumber_eq_tooLong_iff.mp (storeRead_eq_tooLong_iff.mp h)
        exact .readNumber hr
    | readChar => exact absurd (storeRead_eq_tooLong_iff.mp h) Device.readChar_ne_tooLong
    | arith op =>
        simp only [execute] at h
        split at h
        · split at h <;> cases h
        · cases h
    | discard | store | retrieve =>
        simp only [execute] at h
        split at h <;> cases h
    | jumpZero l | jumpNegative l =>
        simp only [execute, jumpIf] at h
        split at h <;> cases h
    | push n | mark l | call l | jump l | ret | exit => cases h
  · intro h
    cases h with
    | copy hn hv =>
        exact updateStack_eq_error_iff.mpr (Stack.copy_eq_tooLong_iff.mpr ⟨hn, hv, rfl⟩)
    | slide hn hv =>
        exact updateStack_eq_error_iff.mpr (Stack.slide_eq_tooLong_iff.mpr ⟨hn, hv, rfl⟩)
    | printNumber hs hv =>
        exact printTop_eq_tooLong_iff.mpr
          ⟨_, _, hs, Device.printNumber_eq_tooLong_iff.mpr ⟨hv, rfl⟩⟩
    | printChar hs hv =>
        exact printTop_eq_tooLong_iff.mpr
          ⟨_, _, hs, Device.printChar_eq_tooLong_iff.mpr ⟨hv, rfl⟩⟩
    | readNumber hr =>
        exact storeRead_eq_tooLong_iff.mpr (Device.readNumber_eq_tooLong_iff.mpr ⟨_, hr, rfl⟩)

end Data
end Operations
end WhitespaceLang
