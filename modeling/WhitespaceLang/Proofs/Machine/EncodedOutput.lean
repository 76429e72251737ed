import WhitespaceLang.Proofs.Machine.DeviceChange

/-!
Output that is encoded. An encoded stream takes what a plain one does, apart from surrogates, and
what has been written stays written, so a run that has printed no surrogate in the end has been
refused no text on the way.
-/

namespace WhitespaceLang

/-- UTF-8 has room for every character of the text. -/
def Text.Encodable (t : Text) : Prop := ∀ c ∈ t, c.isSurrogate = false

theorem Text.Encodable.of_isPrefix {t u : Text} (h : u.Encodable) (hp : t <+: u) : t.Encodable :=
  fun c hc => h c (hp.subset hc)

theorem Output.write_prefix (t : Text) (o : Output) : o.text <+: (o.write t).2.text := by
  simp only [write]
  split
  · exact List.prefix_rfl
  · split
    · exact List.prefix_rfl
    · simp only [text]
      simp

namespace Device

/-- The same device with its output encoded. -/
def encoded (d : Device) : Device := { d with output := { d.output with utf8 := true } }

section Growth

variable {d d' : Device}

theorem readChar_output (d : Device) : d.readChar.2.output = d.output := by
  simp only [readChar]
  split <;> rfl

theorem readNumber_output (d : Device) : d.readNumber.2.output = d.output := by
  simp only [readNumber]
  split
  · rfl
  · rfl
  · split <;> rfl

theorem write_prefix (t : Text) (d : Device) : d.output.text <+: (d.write t).2.output.text := by
  have hwrite := d.output.write_prefix t
  simp only [write]
  split <;> next h =>
    rw [h] at hwrite
    exact hwrite

theorem Serves.output_prefix (h : d.Serves d') : d.output.text <+: d'.output.text := by
  cases h with
  | unused => exact List.prefix_rfl
  | readChar => rw [readChar_output]
  | readNumber => rw [readNumber_output]
  | printChar n =>
      simp only [Device.printChar]
      split
      · exact write_prefix _ d
      · exact List.prefix_rfl
  | printNumber n =>
      simp only [Device.printNumber]
      split
      · exact write_prefix _ d
      · exact List.prefix_rfl

end Growth

theorem flush_encoded (d : Device) : d.encoded.flush = (d.flush.1, d.flush.2.encoded) := by
  simp only [flush, encoded, Output.flush]
  cases d.output.flushes.next with
  | mk fate flushes => cases fate <;> rfl

section Plain

variable {d : Device}

theorem write_encoded (hd : d.IsPlain) {t : Text} (h : (d.write t).2.output.text.Encodable) :
    d.encoded.write t = ((d.write t).1, (d.write t).2.encoded) := by
  rw [hd, write_plain] at h ⊢
  have ht : Utf8.refusal? t = none :=
    Utf8.refusalFrom_eq_none fun c hc => h c (List.mem_append_right _ hc)
  have hwrite : (plain d.input.text d.output.text).encoded.output.write t =
      (.ok (), (plain d.input.text (d.output.text ++ t)).encoded.output) := by
    simp only [Output.write, Output.refusal?, encoded, plain, ↓reduceIte, ht]
    simp [Output.plain]
  simp only [write, hwrite]
  rfl

/-- Where no stream fails, an operation that leaves no surrogate in the output does not notice that
it is encoded. -/
theorem unnoticed_encoded (hd : d.IsPlain) :
    d.UnnoticedWithin (fun d => d.output.text.Encodable) encoded where
  readChar _ := readChar_mapOutput (fun o => { o with utf8 := true }) d
  readNumber _ := readNumber_mapOutput (fun o => { o with utf8 := true }) d
  printChar :=
    printChar_of_write (P := fun d => d.output.text.Encodable) fun _ => write_encoded hd
  printNumber :=
    printNumber_of_write (P := fun d => d.output.text.Encodable) fun _ => write_encoded hd

end Plain
end Device

theorem Machine.output_prefix_after (m : Machine) {j k : Nat} (h : j ≤ k) :
    (m.after j).data.device.output.text <+: (m.after k).data.device.output.text :=
  device_between (R := fun d d' => d.output.text <+: d'.output.text) (fun _ => List.prefix_rfl)
    (fun _ _ _ hd hs => hd.trans hs.output_prefix) m h

/-- No step notices that the output is encoded if no surrogate has been printed in the end. -/
theorem Machine.unnoticing_encoded {m : Machine} (hm : m.data.device.IsPlain) {k : Nat}
    (h : (m.after k).data.device.output.text.Encodable) : m.Unnoticing Device.encoded k :=
  unnoticing_of_within (fun j _ => Device.unnoticed_encoded (isPlain_after hm j))
    fun _ hj => h.of_isPrefix (m.output_prefix_after hj)

theorem Flow.Loaded.run_encoded {f : Flow} (hf : f.Loaded) {input : Text} {n : Nat} {r : Report}
    (hr : f.run n (.ofText input) = .ok (some r))
    (h : r.machine.data.device.output.text.Encodable) :
    f.run n ⟨.ofText input, .encoded⟩ =
      .ok (some { r with machine := r.machine.mapDevice Device.encoded }) := by
  refine hf.run_mapDevice Device.flush_encoded hr ?_
  intro k hflushed
  apply Machine.unnoticing_encoded (Device.isPlain_plain input [])
  rw [hflushed.output_eq] at h
  exact h

end WhitespaceLang
