import WhitespaceLang.Proofs.Machine.DeviceChange

/-!
Output that was there before a run began. A program cannot see what it has printed, so it runs the
same behind any output, which stays in front of its own. The same is true of every change of the
device that no operation ever notices.
-/

namespace WhitespaceLang
namespace Device

/-- Every operation answers the same on the device as on the changed one, and leaves the two apart
by the same change. -/
structure Unnoticed (τ : Device → Device) (d : Device) : Prop where
  readChar : (τ d).readChar = (d.readChar.1, τ d.readChar.2)
  readNumber : (τ d).readNumber = (d.readNumber.1, τ d.readNumber.2)
  printChar (n : Int) : (τ d).printChar n = ((d.printChar n).1, τ (d.printChar n).2)
  printNumber (n : Int) : (τ d).printNumber n = ((d.printNumber n).1, τ (d.printNumber n).2)
  flush : (τ d).flush = (d.flush.1, τ d.flush.2)

end Device

theorem Device.Unnoticed.within {τ : Device → Device} {d : Device} (h : d.Unnoticed τ) :
    d.UnnoticedWithin (fun _ => True) τ :=
  ⟨fun _ => h.readChar, fun _ => h.readNumber, fun n _ => h.printChar n, fun n _ => h.printNumber n⟩

theorem Machine.advance_mapDevice {τ : Device → Device} (h : ∀ d : Device, d.Unnoticed τ)
    (m : Machine) (n : Nat) :
    (m.mapDevice τ).advance n = ((m.advance n).1, (m.advance n).2.mapDevice τ) := by
  induction n generalizing m with
  | zero => rfl
  | succ n ih =>
      have hstep : (m.mapDevice τ).step = (m.step.1, m.step.2.mapDevice τ) :=
        step_mapDevice (h _).within trivial
      rw [advance_succ, advance_succ, hstep]
      cases Stop.ofAnswer m.step.1 with
      | none => exact ih m.step.2
      | some stop => rfl

/-- The output with a text in front of what is written. -/
def Output.preceded (pre : Text) (o : Output) : Output :=
  { o with written := pre.toArray ++ o.written }

theorem Output.text_preceded (pre : Text) (o : Output) : (o.preceded pre).text = pre ++ o.text := by
  simp [preceded, text]

theorem Output.write_preceded (pre t : Text) (o : Output) :
    (o.preceded pre).write t = ((o.write t).1, (o.write t).2.preceded pre) := by
  have hsame : (o.preceded pre).refusal? t = o.refusal? t := rfl
  simp only [write, hsame]
  cases o.refusal? t with
  | some why => rfl
  | none =>
      simp only [preceded]
      cases o.writes.next with
      | mk fate writes =>
          cases fate with
          | some why => rfl
          | none =>
              have hassoc : pre.toArray ++ o.written ++ t = pre.toArray ++ (o.written ++ t) :=
                Array.ext' (by simp)
              simp only [hassoc]

namespace Device

def preceded (pre : Text) (d : Device) : Device := { d with output := d.output.preceded pre }

theorem IsPlain.ofText_preceded {d : Device} (h : d.IsPlain) :
    (ofText d.input.text).preceded d.output.text = d := by
  rw [h]
  rfl

theorem write_preceded (pre t : Text) (d : Device) :
    (d.preceded pre).write t = ((d.write t).1, (d.write t).2.preceded pre) := by
  simp only [write, preceded, Output.write_preceded]
  cases d.output.write t with
  | mk r output => cases r <;> rfl

theorem unnoticed_preceded (pre : Text) (d : Device) : d.Unnoticed (preceded pre) where
  readChar := readChar_mapOutput (.preceded pre) d
  readNumber := readNumber_mapOutput (.preceded pre) d
  printChar n :=
    printChar_of_write (P := fun _ => True) (fun t _ => write_preceded pre t d) n trivial
  printNumber n :=
    printNumber_of_write (P := fun _ => True) (fun t _ => write_preceded pre t d) n trivial
  flush := by
    simp only [flush, preceded, Output.flush, Output.preceded]
    cases d.output.flushes.next with
    | mk fate flushes => cases fate <;> rfl

end Device
end WhitespaceLang
