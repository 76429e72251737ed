import WhitespaceLang.Proofs.Device.Reading

/-!
Devices over streams that never fail. Such a device is given by the text left to read and the text
written so far, and each of its operations is described by what it does to the two.
-/

namespace WhitespaceLang

theorem CodePoint.ofInt?_eq_some_iff {n : Int} {c : CodePoint} :
    ofInt? n = some c ↔ n = c.val := by
  constructor
  · intro h
    simp only [ofInt?] at h
    split at h
    · next hn =>
        cases h
        exact (Int.toNat_of_nonneg hn.1).symm
    · cases h
  · intro h
    subst h
    exact ofInt?_val c

theorem Decimal.write_eq_ok_iff {n : Int} {t : Text} :
    write n = .ok t ↔ Fits n ∧ t = text n := by
  simp only [write]
  split
  · next h => simp [h, eq_comm]
  · next h => simp [h]

namespace Device

def plain (input output : Text) : Device :=
  ⟨.ofText input, { Output.plain with written := output.toArray }⟩

variable (i o : Text)

theorem ofText_eq_plain : ofText i = plain i [] := rfl

theorem readChar_plain_cons (c : CodePoint) :
    (plain (c :: i) o).readChar = (.ok c.val, plain i o) := rfl

theorem readChar_plain_nil : (plain [] o).readChar = (.ok (-1), plain [] o) := rfl

theorem readNumber_plain_iff {n : Int} {device : Device} :
    (plain i o).readNumber = (.ok n, device) ↔
      ∃ rest, Text.ReadsNumber i n rest ∧ device = plain rest o :=
  readNumber_eq_ok_iff

theorem write_plain (t : Text) : (plain i o).write t = (.ok (), plain i (o ++ t)) := by
  simp only [plain, write, Output.write_plain]
  simp

theorem printChar_plain_iff {v : Int} {device : Device} :
    (plain i o).printChar v = (.ok (), device) ↔
      ∃ c : CodePoint, v = c.val ∧ device = plain i (o ++ [c]) := by
  simp only [printChar]
  cases hv : CodePoint.ofInt? v with
  | some c =>
      rw [CodePoint.ofInt?_eq_some_iff] at hv
      subst hv
      simp only [write_plain]
      constructor
      · intro h
        cases h
        exact ⟨c, rfl, rfl⟩
      · intro h
        obtain ⟨c', hc, rfl⟩ := h
        have heq : c = c' := Fin.ext (Int.ofNat_inj.mp hc)
        rw [heq]
  | none =>
      constructor
      · intro h
        cases h
      · intro h
        obtain ⟨c, rfl, -⟩ := h
        rw [CodePoint.ofInt?_val] at hv
        cases hv

theorem printNumber_plain_iff {v : Int} {device : Device} :
    (plain i o).printNumber v = (.ok (), device) ↔
      Decimal.Fits v ∧ device = plain i (o ++ Decimal.text v) := by
  simp only [printNumber]
  cases hv : Decimal.write v with
  | ok t =>
      obtain ⟨hfits, rfl⟩ := Decimal.write_eq_ok_iff.mp hv
      simp only [write_plain, Prod.mk.injEq, true_and, hfits]
      exact eq_comm
  | error e =>
      constructor
      · intro h
        cases h
      · intro h
        obtain ⟨hfits, -⟩ := h
        rw [Decimal.write_eq_ok_iff.mpr ⟨hfits, rfl⟩] at hv
        cases hv

theorem flush_plain : (plain i o).flush = (.ok (), plain i o) := rfl

/-- No call to the device fails, now or later. -/
def IsPlain (d : Device) : Prop := d = plain d.input.text d.output.text

theorem isPlain_plain : (plain i o).IsPlain := rfl

section IsPlain

variable {d : Device}

theorem IsPlain.readChar (h : d.IsPlain) : d.readChar.2.IsPlain := by
  rw [h]
  cases d.input.text with
  | nil => exact isPlain_plain [] _
  | cons c rest => exact isPlain_plain rest _

theorem IsPlain.readNumber (h : d.IsPlain) : d.readNumber.2.IsPlain := by
  rw [h, plain, readNumber_ofText]
  cases d.input.text.dropWhile (·.isBlank) with
  | nil => exact isPlain_plain [] _
  | cons c rest => exact isPlain_plain _ _

theorem IsPlain.write (h : d.IsPlain) (t : Text) : (d.write t).2.IsPlain := by
  rw [h, write_plain]
  exact isPlain_plain _ _

theorem IsPlain.printChar (h : d.IsPlain) (n : Int) : (d.printChar n).2.IsPlain := by
  simp only [Device.printChar]
  cases CodePoint.ofInt? n with
  | some c => exact h.write [c]
  | none => exact h

theorem IsPlain.printNumber (h : d.IsPlain) (n : Int) : (d.printNumber n).2.IsPlain := by
  simp only [Device.printNumber]
  cases Decimal.write n with
  | ok t => exact h.write t
  | error e => exact h

theorem IsPlain.flush (h : d.IsPlain) : d.flush = (.ok (), d) := by
  rw [h]
  exact flush_plain _ _

end IsPlain
end Device
end WhitespaceLang
