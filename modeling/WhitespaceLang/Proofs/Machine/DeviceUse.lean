import WhitespaceLang.Proofs.Device.Plain
import WhitespaceLang.Proofs.Machine.Stepping

/-!
What becomes of the device. An instruction performs at most one operation on it, so what every
operation keeps is kept by every run.
-/

namespace WhitespaceLang

/-- What one operation, or none, makes of the device. -/
inductive Device.Serves (d : Device) : Device → Prop
  | unused : Serves d d
  | readChar : Serves d d.readChar.2
  | readNumber : Serves d d.readNumber.2
  | printChar (n : Int) : Serves d (d.printChar n).2
  | printNumber (n : Int) : Serves d (d.printNumber n).2

namespace Data

variable (d : Data)

theorem updateStack_device (a : Attempt Stack Failure Unit) :
    (d.updateStack a).2.device = d.device := by
  simp only [updateStack]
  split <;> rfl

theorem storeRead_device (r : Except Failure Int × Device) : (d.storeRead r).2.device = r.2 := by
  match r with
  | (.error e, device) => rfl
  | (.ok v, device) =>
      simp only [storeRead]
      split <;> rfl

theorem printTop_device (print : Int → Device → Except Failure Unit × Device) :
    (d.printTop print).2.device = d.device ∨
      ∃ v, (d.printTop print).2.device = (print v d.device).2 := by
  simp only [printTop]
  split
  · next v rest _ =>
      refine .inr ⟨v, ?_⟩
      cases print v d.device with
      | mk r device => cases r <;> rfl
  · exact .inl rfl

theorem jumpIf_device (test : Int → Bool) (l : Label) :
    (d.jumpIf test l).2.device = d.device := by
  simp only [jumpIf]
  split <;> rfl

theorem serves_execute (i : Instr) : d.device.Serves (d.execute i).2.device := by
  cases i with
  | push n | dup | copy n | swap | slide n =>
      simp only [execute, updateStack_device]
      exact .unused
  | jumpZero l | jumpNegative l =>
      simp only [execute, jumpIf_device]
      exact .unused
  | readChar =>
      simp only [execute, storeRead_device]
      exact .readChar
  | readNumber =>
      simp only [execute, storeRead_device]
      exact .readNumber
  | printChar =>
      obtain hkept | ⟨v, hv⟩ := d.printTop_device Device.printChar
      · rw [execute_printChar, hkept]
        exact .unused
      · rw [execute_printChar, hv]
        exact .printChar v
  | printNumber =>
      obtain hkept | ⟨v, hv⟩ := d.printTop_device Device.printNumber
      · rw [execute_printNumber, hkept]
        exact .unused
      · rw [execute_printNumber, hv]
        exact .printNumber v
  | arith op =>
      simp only [execute]
      split
      · split <;> exact .unused
      · exact .unused
  | discard | store | retrieve =>
      simp only [execute]
      split <;> exact .unused
  | mark l | call l | jump l | ret | exit => exact .unused

end Data

namespace Machine

theorem serves_step (m : Machine) : m.data.device.Serves m.step.2.data.device := by
  have hs := m.stepping
  generalize m.step = r at hs
  cases hs with
  | idle | ended => exact .unused
  | @failed i _ _ _ _ he | @refused i _ _ _ _ _ he | @moved i _ _ _ _ _ he =>
      have hserves := m.data.serves_execute i
      rw [he] at hserves
      exact hserves

theorem device_after {P : Device → Prop} (hP : ∀ d d' : Device, P d → d.Serves d' → P d')
    {m : Machine} (h : P m.data.device) (k : Nat) : P (m.after k).data.device :=
  after_of_step (fun m' h => hP _ _ h m'.serves_step) (P := (P ·.data.device)) h k

/-- What every operation carries on holds between the devices of an earlier and a later state. -/
theorem device_between {R : Device → Device → Prop} (hrefl : ∀ d, R d d)
    (hserves : ∀ d d' d'' : Device, R d d' → d'.Serves d'' → R d d'') (m : Machine) {j k : Nat}
    (h : j ≤ k) : R (m.after j).data.device (m.after k).data.device := by
  obtain ⟨d, rfl⟩ := Nat.exists_eq_add_of_le h
  rw [after_add]
  exact device_after (hserves _) (hrefl _) d

end Machine

theorem Device.IsPlain.serves {d d' : Device} (h : d.IsPlain) (hs : d.Serves d') : d'.IsPlain := by
  cases hs with
  | unused => exact h
  | readChar => exact h.readChar
  | readNumber => exact h.readNumber
  | printChar n => exact h.printChar n
  | printNumber n => exact h.printNumber n

/-- Streams that never fail stay such streams. -/
theorem Machine.isPlain_after {m : Machine} (h : m.data.device.IsPlain) (k : Nat) :
    (m.after k).data.device.IsPlain :=
  device_after (fun _ _ => Device.IsPlain.serves) h k

end WhitespaceLang
