import WhitespaceLang.Proofs.Machine.DeviceUse
import WhitespaceLang.Proofs.Machine.Interpretation

/-!
Machines that differ by a change of their devices. Where every operation answers the same on the
changed device and carries the change on, so does every instruction, and the two machines run side
by side. Some changes go unnoticed only as long as the devices keep clear of something, so what has
to be known of an operation may depend on the device that it leaves.
-/

namespace WhitespaceLang

/-- If an operation leaves a device with the property, then it answers the same on the changed
device, and leaves the two apart by the same change. -/
structure Device.UnnoticedWithin (P : Device → Prop) (τ : Device → Device) (d : Device) : Prop where
  readChar (h : P d.readChar.2) : (τ d).readChar = (d.readChar.1, τ d.readChar.2)
  readNumber (h : P d.readNumber.2) : (τ d).readNumber = (d.readNumber.1, τ d.readNumber.2)
  printChar (n : Int) (h : P (d.printChar n).2) :
    (τ d).printChar n = ((d.printChar n).1, τ (d.printChar n).2)
  printNumber (n : Int) (h : P (d.printNumber n).2) :
    (τ d).printNumber n = ((d.printNumber n).1, τ (d.printNumber n).2)

namespace Device

section Print

variable {P : Device → Prop} {τ : Device → Device} {d : Device}
  (h : ∀ t, P (d.write t).2 → (τ d).write t = ((d.write t).1, τ (d.write t).2))
include h

theorem printChar_of_write (n : Int) (hP : P (d.printChar n).2) :
    (τ d).printChar n = ((d.printChar n).1, τ (d.printChar n).2) := by
  simp only [printChar] at hP ⊢
  cases hn : CodePoint.ofInt? n with
  | some c =>
      rw [hn] at hP
      exact h [c] hP
  | none => rfl

theorem printNumber_of_write (n : Int) (hP : P (d.printNumber n).2) :
    (τ d).printNumber n = ((d.printNumber n).1, τ (d.printNumber n).2) := by
  simp only [printNumber] at hP ⊢
  cases hn : Decimal.write n with
  | ok t =>
      rw [hn] at hP
      exact h t hP
  | error e => rfl

end Print

variable (g : Output → Output) (d : Device)

/-- The same input with a changed output. -/
def mapOutput : Device := { d with output := g d.output }

theorem readChar_mapOutput :
    (d.mapOutput g).readChar = (d.readChar.1, d.readChar.2.mapOutput g) := by
  simp only [readChar, mapOutput]
  split <;> rfl

theorem readNumber_mapOutput :
    (d.mapOutput g).readNumber = (d.readNumber.1, d.readNumber.2.mapOutput g) := by
  simp only [readNumber, mapOutput]
  split
  · rfl
  · rfl
  · split <;> rfl

end Device

namespace Data

/-- The same stack and heap over a changed device. -/
def mapDevice (τ : Device → Device) (d : Data) : Data := { d with device := τ d.device }

variable {τ : Device → Device} {P : Device → Prop} {d : Data}

theorem updateStack_mapDevice (a : Attempt Stack Failure Unit) :
    (d.mapDevice τ).updateStack a = ((d.updateStack a).1, (d.updateStack a).2.mapDevice τ) := by
  simp only [updateStack, mapDevice]
  split <;> rfl

theorem storeRead_mapDevice {r r' : Except Failure Int × Device} (h : r' = (r.1, τ r.2)) :
    (d.mapDevice τ).storeRead r' = ((d.storeRead r).1, (d.storeRead r).2.mapDevice τ) := by
  subst h
  obtain ⟨stack, heap, device⟩ := d
  obtain ⟨e | v, device'⟩ := r
  · rfl
  · cases stack <;> rfl

theorem printTop_mapDevice {print : Int → Device → Except Failure Unit × Device}
    (h : ∀ v, P (print v d.device).2 →
      print v (τ d.device) = ((print v d.device).1, τ (print v d.device).2))
    (hP : P (d.printTop print).2.device) :
    (d.mapDevice τ).printTop print = ((d.printTop print).1, (d.printTop print).2.mapDevice τ) := by
  obtain ⟨stack, heap, device⟩ := d
  cases stack with
  | nil => rfl
  | cons v rest =>
      have hv := h v
      simp only at hv
      simp only [printTop, mapDevice] at hP ⊢
      cases hprint : print v device with
      | mk r device' =>
          rw [hprint] at hv hP
          cases r with
          | ok _ => rw [hv hP]
          | error e => rw [hv hP]

theorem execute_mapDevice (h : d.device.UnnoticedWithin P τ) (i : Instr)
    (hP : P (d.execute i).2.device) :
    (d.mapDevice τ).execute i = ((d.execute i).1, (d.execute i).2.mapDevice τ) := by
  cases i with
  | dup => exact updateStack_mapDevice _
  | copy n => exact updateStack_mapDevice _
  | swap => exact updateStack_mapDevice _
  | slide n => exact updateStack_mapDevice _
  | printChar => exact printTop_mapDevice h.printChar hP
  | printNumber => exact printTop_mapDevice h.printNumber hP
  | readChar =>
      rw [execute_readChar, storeRead_device] at hP
      exact storeRead_mapDevice (h.readChar hP)
  | readNumber =>
      rw [execute_readNumber, storeRead_device] at hP
      exact storeRead_mapDevice (h.readNumber hP)
  | arith op =>
      obtain ⟨_ | ⟨right, _ | ⟨left, rest⟩⟩, heap, device⟩ := d
      · rfl
      · rfl
      · simp only [execute, mapDevice]
        cases op.apply left right <;> rfl
  | store =>
      obtain ⟨_ | ⟨value, _ | ⟨address, rest⟩⟩, heap, device⟩ := d <;> rfl
  | discard | retrieve | jumpZero l | jumpNegative l =>
      obtain ⟨stack, heap, device⟩ := d
      cases stack <;> rfl
  | push n | mark l | call l | jump l | ret | exit => rfl

end Data

namespace Machine

def mapDevice (τ : Device → Device) (m : Machine) : Machine := m.mapData (Data.mapDevice τ)

section Steps

variable {τ : Device → Device} {P : Device → Prop} {m : Machine} {j k : Nat}

theorem step_data {i : Instr} (hp : m.flow.phase = .running)
    (hi : m.flow.program[m.flow.ip]? = some i) : m.step.2.data = (m.data.execute i).2 := by
  have hs := m.stepping
  generalize m.step = r at hs
  cases hs with
  | idle hidle => exact absurd hp hidle
  | ended _ hnone => cases hi.symm.trans hnone
  | failed _ hi' he | refused _ hi' he | moved _ hi' he =>
      cases hi.symm.trans hi'
      rw [he]

theorem step_mapDevice (h : m.data.device.UnnoticedWithin P τ) (hP : P m.step.2.data.device) :
    (m.mapDevice τ).step = (m.step.1, m.step.2.mapDevice τ) := by
  apply step_mapData
  intro hp i r d hi he
  rw [step_data hp hi] at hP
  rw [Data.execute_mapDevice h i hP, he]

/-- None of the first `k` steps notices the change of the device. -/
def Unnoticing (τ : Device → Device) (m : Machine) (k : Nat) : Prop :=
  ∀ j < k, ((m.after j).mapDevice τ).step = ((m.after j).step.1, (m.after (j + 1)).mapDevice τ)

theorem unnoticing_of_within (h : ∀ j < k, (m.after j).data.device.UnnoticedWithin P τ)
    (hP : ∀ j < k, P (m.after (j + 1)).data.device) : m.Unnoticing τ k := by
  intro j hj
  have hbehind := hP j hj
  rw [after_succ] at hbehind ⊢
  exact step_mapDevice (h j hj) hbehind

theorem Unnoticing.after (h : m.Unnoticing τ k) (hj : j ≤ k) :
    (m.mapDevice τ).after j = (m.after j).mapDevice τ := by
  induction j with
  | zero => rfl
  | succ j ih => rw [after_succ, ih (Nat.le_of_succ_le hj), h j hj]

theorem Unnoticing.answer (h : m.Unnoticing τ k) (hj : j < k) :
    ((m.mapDevice τ).after j).step.1 = (m.after j).step.1 := by
  rw [h.after (Nat.le_of_lt hj), h j hj]

theorem Unnoticing.stopsAfter {stop : Stop} (h : m.Unnoticing τ (k + 1))
    (hs : m.StopsAfter k stop) : (m.mapDevice τ).StopsAfter k stop := by
  refine ⟨?_, ?_⟩
  · intro j hj
    rw [h.answer (Nat.lt_succ_of_lt hj)]
    exact hs.continues j hj
  · rw [h.answer (Nat.lt_succ_self k)]
    exact hs.stops

end Steps

theorem flushed_close (m : Machine) (stop : Stop) : m.data.Flushed (m.close stop).machine.data := by
  cases stop with
  | ended =>
      cases hflush : m.data.device.flush.1 with
      | ok _ =>
          rw [(close_ended_of_ok hflush).1]
          exact flushed_flush m
      | error f =>
          rw [(close_ended_of_error hflush).1]
          exact (flushed_flush m).trans (flushed_fail _ f)
  | failed e =>
      cases e with
      | fault f => exact flushed_fail m f
      | tooLong e => exact ⟨rfl, rfl, rfl, rfl⟩

section Close

variable {τ : Device → Device} (hflush : ∀ d : Device, (τ d).flush = (d.flush.1, τ d.flush.2))
include hflush

theorem fail_mapDevice (m : Machine) (f : Fault) :
    (m.mapDevice τ).fail f = { m.fail f with machine := (m.fail f).machine.mapDevice τ } := by
  simp only [fail, flush, mapDevice, mapData, Data.mapDevice, hflush]

theorem close_mapDevice (m : Machine) (stop : Stop) :
    (m.mapDevice τ).close stop =
      { m.close stop with machine := (m.close stop).machine.mapDevice τ } := by
  cases stop with
  | ended =>
      have hfail (device : Device) (f : Fault) :
          fail f ⟨m.flow, { m.data with device := τ device }⟩ =
            { fail f ⟨m.flow, { m.data with device }⟩ with
              machine := (fail f ⟨m.flow, { m.data with device }⟩).machine.mapDevice τ } :=
        fail_mapDevice hflush ⟨m.flow, { m.data with device }⟩ f
      simp only [close, flush, mapDevice, mapData, Data.mapDevice, hflush]
      cases m.data.device.flush with
      | mk r device =>
          cases r with
          | ok _ => rfl
          | error f => simp only [hfail, mapDevice, mapData, Data.mapDevice]
  | failed e =>
      cases e with
      | fault f => exact fail_mapDevice hflush m f
      | tooLong e => rfl

end Close
end Machine

/-- A run that does not notice the change up to where it stops has the same report over the changed
device, and the change is in the machine that the report shows. -/
theorem Flow.Loaded.run_mapDevice {f : Flow} (hf : f.Loaded) {τ : Device → Device}
    (hflush : ∀ d : Device, (τ d).flush = (d.flush.1, τ d.flush.2)) {device : Device} {n : Nat}
    {r : Report} (hr : f.run n device = .ok (some r))
    (h : ∀ k, ((Machine.new f.started device).after k).data.Flushed r.machine.data →
      (Machine.new f.started device).Unnoticing τ k) :
    f.run n (τ device) = .ok (some { r with machine := r.machine.mapDevice τ }) := by
  obtain ⟨k, hk, stop, hstops, rfl⟩ := hf.run_eq_some_iff.mp hr
  have hunnoticed := h (k + 1) (Machine.flushed_close _ stop)
  refine hf.run_eq_some_iff.mpr ⟨k, hk, stop, hunnoticed.stopsAfter hstops, ?_⟩
  rw [← Machine.close_mapDevice hflush, ← hunnoticed.after (Nat.le_refl _)]
  rfl

end WhitespaceLang
