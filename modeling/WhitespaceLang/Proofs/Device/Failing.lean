import WhitespaceLang.Device
import WhitespaceLang.ErrorKind

/-!
What a device can fail with. Reading and writing have no other errors than those of a stream, of a
number that is not one, and of a number that is too long.
-/

namespace WhitespaceLang

/-- An error that comes from reading or writing. -/
def Failure.OfDevice (e : Failure) : Prop :=
  e.kind = .device ∨ e.kind = .numberFormat ∨ e.kind = .tooLong

section OfDevice

variable {e : Failure}

theorem Failure.OfDevice.kind_ne {k : ErrorKind} (h : e.OfDevice)
    (hk : k ∉ [.device, .numberFormat, .tooLong]) : e.kind ≠ k := by
  rintro rfl
  simp only [List.mem_cons, List.not_mem_nil, or_false] at hk
  exact hk h

/-- A fault that names a number that is too long gives way to the refusal to write it. -/
theorem Failure.kind_naming (n : Int) (f : Fault) :
    (naming n f).kind = f.kind ∨ (naming n f).kind = .tooLong := by
  simp only [naming]
  split
  · exact .inl rfl
  · exact .inr rfl

theorem Failure.kind_naming_of_fits {n : Int} {f : Fault} (h : Decimal.Fits n) :
    (naming n f).kind = f.kind := by
  rw [naming, if_pos h]
  rfl

namespace Device

variable {d : Device} {n : Int}

theorem ofDevice_readChar (h : d.readChar.1 = .error e) : e.OfDevice := by
  simp only [readChar] at h
  split at h
  · cases h
  · cases h
  · cases h
    exact .inl rfl

theorem ofDevice_numberOfWord {word : Text} (h : numberOfWord word = .error e) : e.OfDevice := by
  simp only [numberOfWord] at h
  split at h
  · cases h
  · cases h
    exact .inr (.inl rfl)
  · cases h
    exact .inr (.inr rfl)

theorem ofDevice_readNumber (h : d.readNumber.1 = .error e) : e.OfDevice := by
  simp only [readNumber] at h
  split at h
  · cases h
    exact .inl rfl
  · cases h
    exact .inr (.inl rfl)
  · split at h
    · cases h
      exact .inl rfl
    · exact ofDevice_numberOfWord h

theorem ofDevice_write {t : Text} (h : (d.write t).1 = .error e) : e.OfDevice := by
  simp only [write] at h
  split at h
  · cases h
  · cases h
    exact .inl rfl

theorem ofDevice_printChar (h : (d.printChar n).1 = .error e) : e.OfDevice := by
  simp only [printChar] at h
  split at h
  · exact ofDevice_write h
  · cases h
    exact (Failure.kind_naming n _).imp_right .inr

theorem ofDevice_printNumber (h : (d.printNumber n).1 = .error e) : e.OfDevice := by
  simp only [printNumber] at h
  split at h
  · exact ofDevice_write h
  · cases h
    exact .inr (.inr rfl)

end Device
end OfDevice
end WhitespaceLang
