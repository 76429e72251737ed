import WhitespaceLang.Proofs.Machine.DigitLimit
import WhitespaceLang.Proofs.Machine.Interpretation
import WhitespaceLang.Proofs.Source.Spelled

/-!
Runs that account for how they ended. A run that stops is halted, and it ended in the normal way or
names its fault and where that happened, unless it broke off because a number was too long to be
converted. Such a run leaves the machine running and gives no text.
-/

namespace WhitespaceLang

namespace Machine

variable {m : Machine} {e : Decimal.TooLong}

/-- The first instruction that the machine does not get past is one that meets the limit. -/
def BreaksOff (m : Machine) (e : Decimal.TooLong) : Prop :=
  ∃ k i, m.Continues k ∧ (m.after k).flow.program[(m.after k).flow.ip]? = some i ∧
    (m.after k).data.MeetsLimit i e

theorem step_eq_tooLong_iff (hp : m.flow.phase = .running) :
    m.step.1 = .error (.tooLong e) ↔
      ∃ i, m.flow.program[m.flow.ip]? = some i ∧ m.data.MeetsLimit i e := by
  constructor
  · intro h
    have hs := m.stepping
    generalize m.step = r at h hs
    cases hs with
    | idle | ended | refused | moved => cases h
    | failed _ hi he =>
        cases h
        exact ⟨_, hi, Data.execute_eq_tooLong_iff.mp (congrArg Prod.fst he)⟩
  · intro h
    obtain ⟨i, hi, hlimit⟩ := h
    rw [step_failed hp hi (Prod.ext (Data.execute_eq_tooLong_iff.mpr hlimit) rfl)]

theorem breaksOff_iff (hp : m.flow.phase = .running) :
    m.BreaksOff e ↔ ∃ k, m.StopsAfter k (.failed (.tooLong e)) := by
  refine exists_congr fun k => ?_
  constructor
  · intro h
    obtain ⟨i, hc, hi, hlimit⟩ := h
    have hstep := (step_eq_tooLong_iff (hc.phase_eq hp)).mpr ⟨i, hi, hlimit⟩
    exact ⟨hc, by rw [hstep]; rfl⟩
  · intro h
    obtain ⟨hc, hs⟩ := h
    obtain ⟨i, hi, hlimit⟩ := (step_eq_tooLong_iff (hc.phase_eq hp)).mp (answer_of_failed hs)
    exact ⟨i, hc, hi, hlimit⟩

end Machine

namespace Flow

variable {f : Flow} {device : Device} {r : Report}

/-- The first instruction that a run from the start does not get past is one that meets the
limit. -/
def BreaksOff (f : Flow) (device : Device) : Prop :=
  ∃ e, (Machine.new f.started device).BreaksOff e

/-- Where a run from the start fails, and with what: at an instruction, or at the end of the program
because the output cannot be flushed. -/
inductive FailsAt (f : Flow) (device : Device) : Nat → Fault → Prop
  | instr {k : Nat} {e : Fault} (hc : (Machine.new f.started device).Continues k)
      (he : ((Machine.new f.started device).after k).step.1 = .error (.fault e))
      (hlt : ((Machine.new f.started device).after k).flow.ip < f.program.size) :
      FailsAt f device ((Machine.new f.started device).after k).flow.ip e
  | flush {k : Nat} {e : Fault} (hc : (Machine.new f.started device).Continues k)
      (hend : ((Machine.new f.started device).after k).step.1 = .ok false)
      (he : ((Machine.new f.started device).after (k + 1)).data.device.flush.1 = .error e) :
      FailsAt f device f.program.size e

/-- The run is halted, and unless it ended in the normal way it names the fault and where it
happened. -/
structure Accounts (f : Flow) (device : Device) (r : Report) : Prop where
  phase_eq : r.machine.flow.phase = .halted
  ending : r.ending = .finished ∨ ∃ ip e, r.ending = .fault ip e ∧ f.FailsAt device ip e

section Runs

variable {k n : Nat} {stop : Stop}

theorem breaksOff_iff : f.BreaksOff device ↔
    ∃ e k, (Machine.new f.started device).StopsAfter k (.failed (.tooLong e)) :=
  exists_congr fun _ => Machine.breaksOff_iff rfl

theorem accounts_of_fault {e : Fault}
    (h : (Machine.new f.started device).StopsAfter k (.failed (.fault e))) :
    f.Accounts device (((Machine.new f.started device).after (k + 1)).fail e) := by
  have he := Machine.answer_of_failed h.stops
  obtain ⟨hflow, hlt⟩ := Machine.step_flow_of_error he
  rw [Machine.program_eq_after] at hlt
  refine ⟨rfl, .inr ⟨_, e, ?_, .instr h.continues he hlt⟩⟩
  rw [Machine.fail_ending, Machine.after_succ, hflow]
  rfl

theorem Loaded.accounts_of_ended (hf : f.Loaded)
    (h : (Machine.new f.started device).StopsAfter k .ended) :
    f.Accounts device (((Machine.new f.started device).after (k + 1)).close .ended) := by
  have hend := Machine.answer_of_ended h.stops
  have hhalted := Machine.step_of_false hend (h.continues.phase_eq rfl)
  have hphase : ((Machine.new f.started device).after (k + 1)).flow.phase = .halted := by
    rw [Machine.after_succ, hhalted]
  refine ⟨?_, ?_⟩
  · rw [(Machine.close_ended hphase).1, hphase]
  · cases he : ((Machine.new f.started device).after (k + 1)).data.device.flush.1 with
    | ok _ => exact .inl (Machine.close_ended_of_ok he).2
    | error e =>
        have hadvance := h.continues.advance_of_stops h.stops (k + 1)
        rw [if_neg (Nat.not_succ_le_self k)] at hadvance
        have hsize := Machine.ip_of_ended f.reached_started hf.labelsMatch rfl hadvance
        refine .inr ⟨_, e, ?_, .flush h.continues hend he⟩
        rw [(Machine.close_ended_of_error he).2, hsize]

/-- A run that stops accounts for how it ended unless it ended with a number that was too long. -/
theorem Loaded.accounts_iff (hf : f.Loaded) (hr : f.run n device = .ok (some r)) :
    f.Accounts device r ↔ ¬ ∃ e, r.ending = .tooLong e := by
  obtain ⟨k, -, stop, h, rfl⟩ := hf.run_eq_some_iff.mp hr
  constructor
  · intro ha hlong
    obtain ⟨e, he⟩ := hlong
    obtain hend | ⟨ip, f, hend, -⟩ := ha.ending
    · cases hend.symm.trans he
    · cases hend.symm.trans he
  · intro hlong
    cases stop with
    | ended => exact hf.accounts_of_ended h
    | failed e =>
        cases e with
        | fault e => exact accounts_of_fault h
        | tooLong e => exact absurd ⟨e, rfl⟩ hlong

theorem Loaded.stopsAfter_of_tooLong (hf : f.Loaded) (hr : f.run n device = .ok (some r))
    {e : Decimal.TooLong} (he : r.ending = .tooLong e) :
    ∃ k, (Machine.new f.started device).StopsAfter k (.failed (.tooLong e)) ∧
      r.machine = (Machine.new f.started device).after (k + 1) := by
  obtain ⟨k, -, stop, h, rfl⟩ := hf.run_eq_some_iff.mp hr
  cases stop with
  | ended =>
      obtain hend | ⟨ip, f, hend, -⟩ := (hf.accounts_of_ended h).ending
      · cases hend.symm.trans he
      · cases hend.symm.trans he
  | failed e' =>
      cases e' with
      | fault f => cases he
      | tooLong e' =>
          cases he
          exact ⟨k, h, rfl⟩

theorem Loaded.tooLong_iff (hf : f.Loaded) (hr : f.run n device = .ok (some r)) :
    (∃ e, r.ending = .tooLong e) ↔ f.BreaksOff device := by
  rw [breaksOff_iff]
  constructor
  · intro hlong
    obtain ⟨e, he⟩ := hlong
    obtain ⟨k, h, -⟩ := hf.stopsAfter_of_tooLong hr he
    exact ⟨e, k, h⟩
  · intro hbreaks
    obtain ⟨e, j, hj⟩ := hbreaks
    obtain ⟨k, -, stop, h, rfl⟩ := hf.run_eq_some_iff.mp hr
    obtain ⟨-, rfl⟩ := h.unique hj
    exact ⟨e, rfl⟩

/-- A run that breaks off leaves the machine as it stands at the instruction. -/
theorem Loaded.phase_of_tooLong (hf : f.Loaded) (hr : f.run n device = .ok (some r))
    {e : Decimal.TooLong} (he : r.ending = .tooLong e) : r.machine.flow.phase = .running := by
  obtain ⟨k, h, hmachine⟩ := hf.stopsAfter_of_tooLong hr he
  have hflow := (Machine.step_flow_of_error (Machine.answer_of_failed h.stops)).1
  rw [hmachine, Machine.after_succ, hflow]
  exact h.continues.phase_eq rfl

end Runs
end Flow

theorem Report.exists_result_iff {r : Report} :
    (∃ out, r.result = .ok out) ↔ ¬ ∃ e, r.ending = .tooLong e := by
  cases h : r.ending <;> simp [result, h]

/-- A run of a loaded program that stops accounts for how it ended, and a text that is interpreted
gives a text, exactly if the run does not break off at a number that is too long. -/
theorem failures_accounted {f : Flow} (hf : f.Loaded) :
    (∀ device n r, f.run n device = .ok (some r) →
      (f.Accounts device r ↔ ¬ f.BreaksOff device)) ∧
    ∀ source stdin n result, interpret n source stdin = some result →
      ((∃ out, result = .ok out) ↔
        ∀ g, Flow.load source = .ok g → ¬ g.BreaksOff (.ofText stdin)) := by
  refine ⟨?_, ?_⟩
  · intro device n r hr
    rw [hf.accounts_iff hr, hf.tooLong_iff hr]
  · intro source stdin n result hresult
    cases hload : Flow.load source with
    | error e =>
        rw [interpret_of_refused hload] at hresult
        cases hresult
        simp
    | ok g =>
        obtain ⟨r, hr, rfl⟩ := (interpret_eq_some_iff hload).mp hresult
        rw [Report.exists_result_iff, (Flow.Loaded.text hload).tooLong_iff hr]
        simp

/-- A division that fails on a device whose output cannot be flushed. -/
theorem failures_accounted_of_division :
    let f : Flow := ⟨#[.push 1, .push 0, .arith .div], [], .ready, 0, [], false⟩
    let device : Device := ⟨.ofText [], { Output.plain with flushes := ⟨[], some []⟩ }⟩
    f.Loaded ∧ ∃ r, f.run 3 device = .ok (some r) ∧ r.ending = .fault 2 (.divisionByZero .div) ∧
      f.Accounts device r := by
  intro f device
  have hadd : Flow.empty.addAll [.push 1, .push 0, .arith .div] =
      .ok { f with phase := .loading } := rfl
  have hf : f.Loaded := .instrs hadd
  obtain ⟨hruns, -⟩ := failures_accounted hf
  have hr : f.run 3 device = .ok (some _) := rfl
  refine ⟨hf, _, hr, rfl, (hruns device 3 _ hr).mpr ?_⟩
  rw [← hf.tooLong_iff hr]
  nofun

/-- The number of a character that is too long to be named breaks the run off, with the machine
still running, and interpreting the program gives no text. -/
theorem unaccounted_of_long_character :
    let n : Int := Nat.pow 10 Decimal.maxDigits
    let f : Flow := (Flow.ofInstrs [.push n, .printChar]).finish
    f.Loaded ∧
      (∃ r, f.run 2 (.ofText []) = .ok (some r) ∧ ¬ f.Accounts (.ofText []) r ∧
        r.machine.flow.phase = .running) ∧
      interpret 2 (sourceOf [.push n, .printChar]) [] = some (.error .writing) := by
  intro n f
  have hload : Flow.load (sourceOf [.push n, .printChar]) = .ok f :=
    Flow.load_of_spelled (spelled_sourceOf _) List.nodup_nil
  have hf : f.Loaded := .text hload
  have hn : ¬ Decimal.Fits n := by
    have habs : n.natAbs = Nat.pow 10 Decimal.maxDigits := Int.natAbs_natCast _
    simp only [Decimal.Fits, habs, Nat.lt_irrefl, not_false_eq_true]
  have hc : (Machine.new f.started (.ofText [])).Continues 1 := by
    intro j hj
    match j with
    | 0 => rfl
  have hstep : ((Machine.new f.started (.ofText [])).after 1).step.1 = .error (.tooLong .writing) :=
    (Machine.step_eq_tooLong_iff rfl).mpr ⟨.printChar, rfl, .printChar rfl hn⟩
  have hstops : (Machine.new f.started (.ofText [])).StopsAfter 1 (.failed (.tooLong .writing)) :=
    ⟨hc, by rw [hstep]; rfl⟩
  have hr := hf.run_eq_some_iff.mpr ⟨1, Nat.lt_succ_self 1, _, hstops, rfl⟩
  refine ⟨hf, ⟨_, hr, ?_, ?_⟩, ?_⟩
  · rw [hf.accounts_iff hr]
    exact not_not_intro ⟨.writing, rfl⟩
  · exact hf.phase_of_tooLong hr rfl
  · exact (interpret_eq_some_iff hload).mpr ⟨_, hr, rfl⟩

end WhitespaceLang
