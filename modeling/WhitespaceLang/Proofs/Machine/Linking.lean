import WhitespaceLang.Proofs.Machine.EarlierOutput

/-!
Two programs one behind the other. The first runs in front of the second as it runs alone, except
that what was its end is now the first position of the second. From there the second runs as it
would alone on the stack, the heap and the input that the first has left, at positions moved on by
the length of the first and behind the output of the first.
-/

namespace WhitespaceLang

theorem InstrOf.label?_eq_some_iff {i : Instr} {l : Label} :
    i.label? = some l ↔ i.mark? = some l ∨ i.target? = some l := by
  cases i <;> simp [label?, mark?, target?]

namespace Flow

/-- The labels that the instructions may send control to. -/
def targets (is : List Instr) : List Label := is.filterMap InstrOf.target?

theorem mem_occurring_iff {is : List Instr} {l : Label} :
    l ∈ occurring is ↔ l ∈ marks is ∨ l ∈ targets is := by
  simp only [occurring, marks, targets, List.mem_filterMap, InstrOf.label?_eq_some_iff, and_or_left,
    exists_or]

/-- A label that occurs in one of two programs and is marked in either is marked in that one, if the
other one marks none of its targets. -/
theorem mem_marks_of_occurring {is js : List Instr} {l : Label}
    (hother : ∀ l ∈ targets is, l ∉ marks js) (hl : l ∈ occurring is)
    (hmark : l ∈ marks is ∨ l ∈ marks js) : l ∈ marks is := by
  obtain hmark | hmark := hmark
  · exact hmark
  · obtain hown | htarget := mem_occurring_iff.mp hl
    · exact hown
    · exact absurd hmark (hother l htarget)

/-- The position `q` is `p` moved on by `n`. -/
def Behind (n p q : Nat) : Prop := n + p = q

section Linked

variable {ps qs : List Instr} (hmarks : (marks (ps ++ qs)).Nodup)
include hmarks

/-- In front of another program everything is in its place except the end, where that one begins. -/
theorem relocation_front (hps : ∀ l ∈ targets ps, l ∉ marks qs) (hexit : .exit ∉ ps) :
    Relocation id (fun p q => p = q ∧ p < ps.length) Eq
      (ofInstrs ps).finish (ofInstrs (ps ++ qs)).finish := by
  have hfirst : (marks ps).Nodup := by
    rw [marks_append] at hmarks
    exact hmarks.of_append_left
  apply relocation_ofInstrs hfirst hmarks
  · rintro p q ⟨rfl, hp⟩
    rw [List.getElem?_append_left hp, InstrOf.relabel_id, Option.map_id, id]
  · rintro p q i ⟨rfl, -⟩ _ _
    rfl
  · intro p i hi
    exact ⟨p, ⟨rfl, (List.getElem?_eq_some_iff.mp hi).1⟩, rfl⟩
  · intro l hl hmark
    rw [marks_append, List.mem_append] at hmark
    exact mem_marks_of_occurring hps hl hmark
  · intro hmem
    exact absurd hmem hexit

theorem relocation_back (hqs : ∀ l ∈ targets qs, l ∉ marks ps) :
    Relocation id (Behind ps.length) (Behind ps.length)
      (ofInstrs qs).finish (ofInstrs (ps ++ qs)).finish := by
  have hsecond : (marks qs).Nodup := by
    rw [marks_append] at hmarks
    exact hmarks.of_append_right
  apply relocation_ofInstrs hsecond hmarks
  · rintro p q rfl
    rw [List.getElem?_append_right (Nat.le_add_right _ _), Nat.add_sub_cancel_left,
      InstrOf.relabel_id, Option.map_id, id]
  · rintro p q i rfl _ _
    exact (Nat.add_assoc _ _ _).symm
  · intro p i _
    exact ⟨_, rfl, rfl⟩
  · intro l hl hmark
    rw [marks_append, List.mem_append] at hmark
    exact mem_marks_of_occurring hqs hl hmark.symm
  · intro _
    exact List.length_append.symm

end Linked
end Flow

namespace Machine

variable {At Near : Nat → Nat → Prop} {m m' : Machine} {k : Nat}

/-- As long as a machine goes on, its pointer is within the program, and only there need it find the
counterpart of each instruction at once. -/
theorem Relocated.continues (h : Relocated id At Near m m')
    (hat : ∀ p q, Near p q → p < m.flow.program.size → At p q) (hc : m.Continues k) :
    m'.Continues k ∧ Relocated id At Near (m.after k) (m'.after k) := by
  induction k with
  | zero => exact ⟨nofun, h⟩
  | succ k ih =>
      obtain ⟨hfirst, hlast⟩ := continues_succ_iff.mp hc
      obtain ⟨hc', h'⟩ := ih hfirst
      have hip := ip_lt_of_true hlast
      rw [program_eq_after] at hip
      have hhere := hat _ _ h'.aligned.ip hip
      rw [continues_succ_iff, after_succ, after_succ, h'.step_eq hhere]
      exact ⟨⟨hc', hlast⟩, (h'.step hhere).2⟩

end Machine

/-- The second report is that of the same run behind a program of `n` instructions that has printed
the text `o`. -/
structure Report.Follows (n : Nat) (o : Text) (r r' : Report) : Prop where
  stack_eq : r'.machine.data.stack = r.machine.data.stack
  heap_eq : r'.machine.data.heap = r.machine.data.heap
  input_eq : r'.machine.data.device.input = r.machine.data.device.input
  output_eq : r'.machine.data.device.output.text = o ++ r.machine.data.device.output.text
  phase_eq : r'.machine.flow.phase = r.machine.flow.phase
  ip_eq : r'.machine.flow.ip = n + r.machine.flow.ip
  calls_eq : r'.machine.flow.calls = r.machine.flow.calls.map (n + ·)
  ending_eq : r'.ending = r.ending.relocate (n + ·)

namespace Machine

/-- The second machine is in the same run as the first, behind a program of `n` instructions that
has printed the text `o`. -/
def Follows (n : Nat) (o : Text) (m m' : Machine) : Prop :=
  Relocated id (Flow.Behind n) (Flow.Behind n) (m.mapDevice (Device.preceded o)) m'

section Follows

variable {n : Nat} {o : Text} {m m' : Machine}

theorem Follows.advance (h : Follows n o m m') (fuel : Nat) :
    (m'.advance fuel).1 = (m.advance fuel).1 ∧
      Follows n o (m.advance fuel).2 (m'.advance fuel).2 := by
  have hrun := Relocated.advance h (fun _ _ => id) fuel
  rw [advance_mapDevice (Device.unnoticed_preceded o)] at hrun
  exact hrun

theorem Follows.close (h : Follows n o m m') (stop : Stop) :
    (m.close stop).Follows n o (m'.close stop) := by
  have hcalls := Flow.forall₂_map_iff.mp h.aligned.calls
  obtain ⟨hdata, hphase, hip, hending⟩ :=
    close_relocates (π := (n + ·)) h.data_eq h.aligned.phase_eq h.aligned.ip.symm stop
  rw [close_mapDevice fun d => (Device.unnoticed_preceded o d).flush] at hdata hphase hip hending
  refine ⟨?_, ?_, ?_, ?_, hphase, hip, ?_, hending⟩
  · rw [hdata]
    rfl
  · rw [hdata]
    rfl
  · rw [hdata]
    rfl
  · rw [hdata]
    exact Output.text_preceded o _
  · rw [close_calls, close_calls]
    exact hcalls

theorem Follows.reports (h : Follows n o m m') :
    (∀ r, m.Reports r → ∃ r', m'.Reports r' ∧ r.Follows n o r') ∧
      ∀ r', m'.Reports r' → ∃ r, m.Reports r ∧ r.Follows n o r' := by
  constructor
  · intro r hr
    obtain ⟨fuel, stop, m₁, ha, rfl⟩ := hr
    obtain ⟨hstop, h₁⟩ := h.advance fuel
    rw [ha] at hstop h₁
    have ha' : m'.advance fuel = (some stop, (m'.advance fuel).2) := Prod.ext hstop rfl
    exact ⟨_, ⟨fuel, stop, _, ha', rfl⟩, h₁.close stop⟩
  · intro r' hr'
    obtain ⟨fuel, stop, m₁, ha, rfl⟩ := hr'
    obtain ⟨hstop, h₁⟩ := h.advance fuel
    rw [ha] at hstop h₁
    have ha' : m.advance fuel = (some stop, (m.advance fuel).2) := Prod.ext hstop.symm rfl
    exact ⟨_, ⟨fuel, stop, _, ha', rfl⟩, h₁.close stop⟩

end Follows
end Machine

/-- Where a program has come to its end outside of every call, the one behind it begins. -/
theorem Machine.follows_of_end {n : Nat} {At : Nat → Nat → Prop} {m m' : Machine} {g h : Flow}
    (hfront : Relocated id At Eq m m')
    (hback : Flow.Relocation id (Flow.Behind n) (Flow.Behind n) g h)
    (hreached : h.Reached m'.flow) (hphase : m.flow.phase = .running) (hip : m.flow.ip = n)
    (hcalls : m.flow.calls = []) (hplain : m.data.device.IsPlain) :
    Follows n m.data.device.output.text
      ⟨g.started, { m.data with device := .ofText m.data.device.input.text }⟩ m' := by
  obtain ⟨-, ⟨hphase', hip', hcalls'⟩, hdata⟩ := hfront
  refine ⟨hback.congr rfl rfl hreached.program_eq hreached.labels_eq, ⟨?_, ?_, ?_⟩, ?_⟩
  · exact hphase'.trans hphase
  · exact hip.symm.trans hip'
  · rw [hcalls, List.forall₂_nil_left_iff] at hcalls'
    rw [hcalls']
    exact .nil
  · rw [hdata]
    simp only [mapDevice, mapData, Data.mapDevice, hplain.ofText_preceded]

/-- A run over plain streams that ends without a fault is its steps up to the end, with a halt. -/
theorem Flow.Loaded.exists_continues_of_finished {f : Flow} (hf : f.Loaded) {input : Text}
    {r : Report} (hr : f.Reports (.ofText input) r) (hend : r.ending = .finished) :
    ∃ k, (Machine.new f.started (.ofText input)).Continues k ∧
      let m := (Machine.new f.started (.ofText input)).after k
      m.flow.phase = .running ∧ m.flow.ip = f.program.size ∧ m.data.device.IsPlain ∧
        r.machine = { m with flow := { m.flow with phase := .halted } } := by
  have hip := hf.ip_of_finished hr hend
  obtain ⟨n, stop, m', ha, rfl⟩ := hf.reports_iff.mp hr
  rw [Machine.stop_of_finished hend] at ha hip ⊢
  obtain ⟨k, -, hc, hstop, rfl⟩ := Machine.exists_continues_of_advance ha
  have hp := hc.phase_eq rfl
  have hplain := Machine.isPlain_after (m := .new f.started (.ofText input))
    (Device.isPlain_plain input []) k
  have hlast := Machine.step_of_false (Machine.answer_of_ended hstop) hp
  rw [Machine.close_ip, Machine.after_succ, hlast] at hip
  refine ⟨k, hc, hp, hip, hplain, ?_⟩
  rw [Machine.after_succ, hlast]
  simp only [Machine.close, Machine.flush, hplain.flush]

/-- Programs are linked by putting one behind the other, if neither uses a label that the other
marks and the first has no exit of its own. Once the first has ended by itself and outside of every
call, the two together run as the second does on what the first has left. -/
theorem linked_programs {ps qs : List Instr} (hmarks : (Flow.marks (ps ++ qs)).Nodup)
    (hps : ∀ l ∈ Flow.targets ps, l ∉ Flow.marks qs)
    (hqs : ∀ l ∈ Flow.targets qs, l ∉ Flow.marks ps) (hexit : .exit ∉ ps) :
    ∃ f g h, Flow.empty.addAll ps = .ok f ∧ Flow.empty.addAll qs = .ok g ∧
      Flow.empty.addAll (ps ++ qs) = .ok h ∧
      ∀ input r, f.finish.Reports (.ofText input) r → r.ending = .finished →
        r.machine.flow.calls = [] →
        let o := r.machine.data.device.output.text
        let rest := r.machine.data.device.input.text
        let m : Machine := ⟨g.finish.started, { r.machine.data with device := .ofText rest }⟩
        (∀ r', m.Reports r' →
          ∃ r'', h.finish.Reports (.ofText input) r'' ∧ r'.Follows ps.length o r'') ∧
        ∀ r'', h.finish.Reports (.ofText input) r'' →
          ∃ r', m.Reports r' ∧ r'.Follows ps.length o r'' := by
  have hsplit := hmarks
  rw [Flow.marks_append] at hsplit
  have hf := Flow.addAll_eq_ok_iff.mpr ⟨hsplit.of_append_left, rfl⟩
  have hg := Flow.addAll_eq_ok_iff.mpr ⟨hsplit.of_append_right, rfl⟩
  have hh := Flow.addAll_eq_ok_iff.mpr ⟨hmarks, rfl⟩
  refine ⟨_, _, _, hf, hg, hh, ?_⟩
  intro input r hr hend hcalls o rest m
  obtain ⟨k, hc, hphase, hip, hplain, hmachine⟩ :=
    (Flow.Loaded.instrs hf).exists_continues_of_finished hr hend
  have h₀ := Machine.relocated_new (Flow.relocation_front hmarks hps hexit) rfl (.ofText input)
  have hat : ∀ p q, p = q → p < (Flow.ofInstrs ps).finish.program.size → p = q ∧ p < ps.length := by
    intro p q heq hlt
    rw [Flow.size_ofInstrs] at hlt
    exact ⟨heq, hlt⟩
  obtain ⟨hc', hfront⟩ := h₀.continues hat hc
  have hreached := Machine.reached_after (Flow.reached_started _)
    (Flow.Loaded.instrs hh).labelsMatch (m := .new _ (.ofText input)) k
  have hback := Flow.relocation_back hmarks hqs
  rw [hmachine] at hcalls
  rw [Flow.size_ofInstrs] at hip
  have hfollows := Machine.follows_of_end hfront hback hreached hphase hip hcalls hplain
  obtain ⟨forth, back⟩ := hfollows.reports
  have hreports (r'' : Report) :=
    ((Flow.Loaded.instrs hh).reports_iff (r := r'')).trans hc'.reports_iff
  simp only [hreports, m, o, rest, hmachine]
  exact ⟨forth, back⟩

/-- The first program ends by the return of a subroutine called at its very end, the second with a
return that fails. -/
theorem linked_programs_of_last_call :
    let ps : List Instr :=
      [.jump [], .mark [true], .push 65, .printChar, .ret, .mark [], .call [true]]
    let qs : List Instr := [.push 66, .printChar, .ret]
    (Flow.marks (ps ++ qs)).Nodup ∧ (∀ l ∈ Flow.targets ps, l ∉ Flow.marks qs) ∧
      (∀ l ∈ Flow.targets qs, l ∉ Flow.marks ps) ∧ .exit ∉ ps ∧
      ∃ h r, Flow.empty.addAll (ps ++ qs) = .ok h ∧ h.finish.Reports (.ofText []) r ∧
        r.ending = .fault 9 .returnOutside ∧
        r.machine.data.device.output.text = Text.ofString "AB" := by
  intro ps qs
  have hmarks : (Flow.marks (ps ++ qs)).Nodup := by decide
  have hps : ∀ l ∈ Flow.targets ps, l ∉ Flow.marks qs := by decide
  have hqs : ∀ l ∈ Flow.targets qs, l ∉ Flow.marks ps := by decide
  have hexit : .exit ∉ ps := by decide
  obtain ⟨f, g, h, hf, hg, hh, hruns⟩ := linked_programs hmarks hps hqs hexit
  cases hf
  cases hg
  obtain ⟨forth, -⟩ := hruns [] _ ⟨9, rfl⟩ rfl rfl
  obtain ⟨r, hr, hfollows⟩ := forth _ ⟨3, _, _, rfl, rfl⟩
  refine ⟨hmarks, hps, hqs, hexit, h, r, hh, hr, ?_, ?_⟩
  · rw [hfollows.ending_eq]
    rfl
  · rw [hfollows.output_eq]
    rfl

end WhitespaceLang
