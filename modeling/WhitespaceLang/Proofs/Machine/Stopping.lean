import WhitespaceLang.Proofs.Machine.Outcome

/-!
Runs against single steps. A run goes on over every step that answers that there is more and stops
at the first that does not. What it leaves is what stepping leaves, with the output flushed, and a
fault of an instruction is reported whether or not that flush fails as well.
-/

namespace WhitespaceLang

/-- The second data are the first with the output flushed, which only later flushes can tell. -/
structure Data.Flushed (d d' : Data) : Prop where
  stack_eq : d'.stack = d.stack
  heap_eq : d'.heap = d.heap
  input_eq : d'.device.input = d.device.input
  output_eq : d'.device.output = { d.device.output with flushes := d'.device.output.flushes }

theorem Data.Flushed.trans {d d' d'' : Data} (h : d.Flushed d') (h' : d'.Flushed d'') :
    d.Flushed d'' := by
  refine ⟨h'.stack_eq.trans h.stack_eq, h'.heap_eq.trans h.heap_eq,
    h'.input_eq.trans h.input_eq, ?_⟩
  rw [h'.output_eq, h.output_eq]

theorem Device.flush_snd (d : Device) :
    d.flush.2 = { d with output := { d.output with flushes := d.output.flushes.next.2 } } := by
  simp only [flush, Output.flush]
  cases d.output.flushes.next with
  | mk fate flushes => cases fate <;> rfl

theorem Device.kind_of_flush {d : Device} {f : Fault} (h : d.flush.1 = .error f) :
    f.kind = .device := by
  simp only [flush] at h
  split at h
  · cases h
  · cases h
    rfl

namespace Machine

section Steps

variable {m m' : Machine} {stop : Stop} {k n : Nat}

/-- The first `k` steps all answer that there is more. -/
def Continues (m : Machine) (k : Nat) : Prop := ∀ j < k, (m.after j).step.1 = .ok true

theorem continues_succ_iff : m.Continues (k + 1) ↔ m.Continues k ∧ (m.after k).step.1 = .ok true :=
  Nat.forall_lt_succ_right

theorem Continues.advance (h : m.Continues k) (n : Nat) :
    m.advance (k + n) = (m.after k).advance n := by
  induction k generalizing n with
  | zero => rw [Nat.zero_add, after_zero]
  | succ k ih =>
      obtain ⟨hk, hlast⟩ := continues_succ_iff.mp h
      have hgoes : Stop.ofAnswer (m.after k).step.1 = none := by rw [hlast]; rfl
      rw [Nat.add_right_comm, Nat.add_assoc, ih hk, advance_of_continues hgoes, after_succ]

theorem Continues.advance_of_le (h : m.Continues k) (hn : n ≤ k) :
    m.advance n = (none, m.after n) := by
  have hfirst : m.Continues n := fun j hj => h j (Nat.lt_of_lt_of_le hj hn)
  exact hfirst.advance 0

/-- A run stops right after the first step that does not go on, however many more it may make. -/
theorem Continues.advance_of_stops (h : m.Continues k)
    (hs : Stop.ofAnswer (m.after k).step.1 = some stop) (n : Nat) :
    m.advance n = if n ≤ k then (none, m.after n) else (some stop, m.after (k + 1)) := by
  by_cases hn : n ≤ k
  · rw [if_pos hn, h.advance_of_le hn]
  · obtain ⟨d, rfl⟩ := Nat.exists_eq_add_of_lt (Nat.lt_of_not_le hn)
    rw [if_neg hn, Nat.add_assoc, h.advance, Machine.advance_of_stops hs, after_succ]

theorem Continues.phase_eq (h : m.Continues k) (hp : m.flow.phase = .running) :
    (m.after k).flow.phase = .running := by
  cases k with
  | zero => exact hp
  | succ k =>
      have hgoes : Stop.ofAnswer (m.after k).step.1 = none := by
        rw [h k (Nat.lt_succ_self k)]
        rfl
      rw [after_succ]
      exact (phase_of_continues hgoes).2

theorem step_flow_of_error {e : Failure} (h : m.step.1 = .error e) :
    m.step.2.flow = m.flow.unmoved ∧ m.flow.ip < m.flow.program.size := by
  have hs := m.stepping
  generalize m.step = r at h hs
  cases hs with
  | idle | ended | moved => cases h
  | failed _ hi | refused _ hi => exact ⟨rfl, (Array.getElem?_eq_some_iff.mp hi).1⟩

theorem step_of_false (h : m.step.1 = .ok false) (hp : m.flow.phase = .running) :
    m.step.2 = { m with flow := { m.flow with phase := .halted } } := by
  have hs := m.stepping
  generalize m.step = r at h hs
  cases hs with
  | idle hidle => exact absurd hp hidle
  | ended => rfl
  | failed | refused | moved => cases h

theorem ip_lt_of_true (h : m.step.1 = .ok true) : m.flow.ip < m.flow.program.size := by
  have hs := m.stepping
  generalize m.step = r at h hs
  cases hs with
  | idle | ended | failed | refused => cases h
  | moved _ hi => exact (Array.getElem?_eq_some_iff.mp hi).1

theorem exists_continues_of_advance (ha : m.advance n = (some stop, m')) :
    ∃ k < n, m.Continues k ∧ Stop.ofAnswer (m.after k).step.1 = some stop ∧
      m' = m.after (k + 1) := by
  induction n generalizing m with
  | zero => cases ha
  | succ n ih =>
      rw [advance_succ] at ha
      cases ho : Stop.ofAnswer m.step.1 with
      | some stop' =>
          rw [ho] at ha
          cases ha
          exact ⟨0, Nat.succ_pos n, nofun, ho, rfl⟩
      | none =>
          rw [ho] at ha
          obtain ⟨k, hk, hc, hstop, rfl⟩ := ih ha
          refine ⟨k + 1, Nat.succ_lt_succ hk, ?_, ?_, ?_⟩
          · intro j hj
            cases j with
            | zero => exact answer_of_continues ho
            | succ j =>
                rw [after_succ']
                exact hc j (Nat.lt_of_succ_lt_succ hj)
          · rw [after_succ']
            exact hstop
          · rw [after_succ' m (k + 1)]

/-- The machine stops after some number of steps, and its run has this report. -/
def Reports (m : Machine) (r : Report) : Prop :=
  ∃ n stop m', m.advance n = (some stop, m') ∧ r = m'.close stop

/-- Steps that go on do not change how the run will end. -/
theorem Continues.reports_iff (h : m.Continues k) {r : Report} :
    m.Reports r ↔ (m.after k).Reports r := by
  constructor
  · intro hr
    obtain ⟨n, stop, m', ha, rfl⟩ := hr
    -- The run has not stopped before the steps that go on are over.
    have hn : ¬ n ≤ k := by
      intro hle
      rw [h.advance_of_le hle] at ha
      cases ha
    obtain ⟨d, rfl⟩ := Nat.exists_eq_add_of_le (Nat.le_of_not_le hn)
    rw [h.advance] at ha
    exact ⟨d, stop, m', ha, rfl⟩
  · intro hr
    obtain ⟨n, stop, m', ha, rfl⟩ := hr
    exact ⟨k + n, stop, m', (h.advance n).trans ha, rfl⟩

end Steps

theorem flushed_flush (m : Machine) : m.data.Flushed m.flush.2.data := by
  have hdata : m.flush.2.data = { m.data with device := m.data.device.flush.2 } := rfl
  rw [hdata, Device.flush_snd]
  exact ⟨rfl, rfl, rfl, rfl⟩

section Ending

variable {m : Machine} {f : Fault}

theorem fail_flow (m : Machine) (f : Fault) :
    (m.fail f).machine.flow = { m.flow with phase := .halted } := rfl

theorem fail_ending (m : Machine) (f : Fault) : (m.fail f).ending = .fault m.flow.ip f := rfl

theorem flushed_fail (m : Machine) (f : Fault) : m.data.Flushed (m.fail f).machine.data :=
  flushed_flush { m with flow := { m.flow with phase := .halted } }

theorem close_ended_of_ok (h : m.data.device.flush.1 = .ok ()) :
    (m.close .ended).machine = m.flush.2 ∧ (m.close .ended).ending = .finished := by
  cases hd : m.data.device.flush with
  | mk r device =>
      rw [hd] at h
      cases h
      simp only [close, flush, hd, and_self]

/-- A flush that fails at the end of a run is the fault of the run, and is tried once more. -/
theorem close_ended_of_error (h : m.data.device.flush.1 = .error f) :
    (m.close .ended).machine = (m.flush.2.fail f).machine ∧
      (m.close .ended).ending = .fault m.flow.ip f := by
  cases hd : m.data.device.flush with
  | mk r device =>
      rw [hd] at h
      cases h
      constructor
      · simp only [close, flush, hd]
      · simp only [close, flush, hd, fail_ending]

/-- A run that comes to its end is halted there, whether or not the output can be flushed. -/
theorem close_ended (h : m.flow.phase = .halted) :
    (m.close .ended).machine.flow = m.flow ∧ m.data.Flushed (m.close .ended).machine.data := by
  cases hf : m.data.device.flush.1 with
  | ok _ =>
      rw [(close_ended_of_ok hf).1]
      exact ⟨rfl, flushed_flush m⟩
  | error f =>
      rw [(close_ended_of_error hf).1]
      refine ⟨?_, (flushed_flush m).trans (flushed_fail _ f)⟩
      rw [fail_flow, ← h]
      rfl

end Ending
end Machine

/-- What a run makes of the stepwise execution from the same start. If a step fails after `k` that
did not, the run reports that fault at its instruction; if a step finds the end, the run ends there,
and then only a flush that fails is a fault. -/
theorem run_of_steps {f : Flow} (hf : f.Loaded) (device : Device) :
    ∃ m₀, f.launch device = .ok m₀ ∧ ∀ k, (∀ j < k, (m₀.after j).step.1 = .ok true) →
      let m := m₀.after k
      let m' := m₀.after (k + 1)
      (∀ e, m.step.1 = .error (.fault e) →
        m.flow.ip < f.program.size ∧
        ∃ r, (∀ n, f.run n device = .ok (if n ≤ k then none else some r)) ∧
          r.ending = .fault m.flow.ip e ∧
          r.machine.flow = { m.flow.unmoved with phase := .halted } ∧
          m'.data.Flushed r.machine.data) ∧
      (m.step.1 = .ok false →
        m.flow.ip = f.program.size ∧
        ∃ r, (∀ n, f.run n device = .ok (if n ≤ k then none else some r)) ∧
          r.machine.flow = { m.flow with phase := .halted } ∧ m'.data.Flushed r.machine.data ∧
          (m'.data.device.flush.1 = .ok () → r.ending = .finished) ∧
          ∀ e, m'.data.device.flush.1 = .error e →
            e.kind = .device ∧ r.ending = .fault f.program.size e) := by
  refine ⟨_, hf.launch_eq device, ?_⟩
  intro k hk m m'
  have hc : (Machine.new f.started device).Continues k := hk
  have reached : f.Reached m.flow := Machine.reached_after f.reached_started hf.labelsMatch k
  have hnext : m' = m.step.2 := Machine.after_succ _ k
  have hrun {stop : Stop} (hs : Stop.ofAnswer m.step.1 = some stop) (n : Nat) :
      f.run n device = .ok (if n ≤ k then none else some (m'.close stop)) := by
    rw [hf.run_eq, hc.advance_of_stops hs]
    split <;> rfl
  constructor
  · intro e he
    obtain ⟨hflow, hlt⟩ := Machine.step_flow_of_error he
    rw [reached.program_eq] at hlt
    have hs : Stop.ofAnswer m.step.1 = some (.failed (.fault e)) := by rw [he]; rfl
    rw [← hnext] at hflow
    refine ⟨hlt, _, hrun hs, ?_, ?_, Machine.flushed_fail m' e⟩
    · exact congrArg (fun g => Ending.fault g.ip e) hflow
    · exact congrArg (fun g : Flow => { g with phase := .halted }) hflow
  · intro hend
    have hp : m.flow.phase = .running := hc.phase_eq rfl
    have hsize : m.flow.ip = f.program.size := by
      have hor := (Machine.step_eq_false_iff reached).mp hend
      rw [hp, reached.program_eq] at hor
      simpa only [reduceCtorEq, or_false] using hor
    have hs : Stop.ofAnswer m.step.1 = some .ended := by rw [hend]; rfl
    have hm' : m'.flow = { m.flow with phase := .halted } := by
      rw [hnext, Machine.step_of_false hend hp]
    obtain ⟨hflow, hdata⟩ := Machine.close_ended (congrArg Flow.phase hm')
    refine ⟨hsize, _, hrun hs, hflow.trans hm', hdata, ?_, ?_⟩
    · intro hflush
      exact (Machine.close_ended_of_ok hflush).2
    · intro e hflush
      refine ⟨Device.kind_of_flush hflush, ?_⟩
      rw [(Machine.close_ended_of_error hflush).2, hm', hsize]

/-- A division that fails on a device whose output cannot be flushed, and a program that ends on
such a device. -/
theorem run_of_steps_with_failing_flush :
    let f : Flow := ⟨#[.push 1, .push 0, .arith .div], [], .ready, 0, [], false⟩
    let g : Flow := ⟨#[.push 1], [], .ready, 0, [], false⟩
    let device : Device := ⟨.ofText [], { Output.plain with flushes := ⟨[], some []⟩ }⟩
    f.Loaded ∧ g.Loaded ∧
      (∃ r, f.run 3 device = .ok (some r) ∧ r.ending = .fault 2 (.divisionByZero .div) ∧
        r.machine.data.stack = []) ∧
      ∃ r, g.run 2 device = .ok (some r) ∧ r.ending = .fault 1 (.flushFailed []) ∧
        r.machine.data.stack = [1] := by
  intro f g device
  have hadd : Flow.empty.addAll [.push 1, .push 0, .arith .div] =
      .ok { f with phase := .loading } := rfl
  have hadd' : Flow.empty.addAll [.push 1] = .ok { g with phase := .loading } := rfl
  have hf : f.Loaded := .instrs hadd
  have hg : g.Loaded := .instrs hadd'
  obtain ⟨m₀, hm₀, hsteps⟩ := run_of_steps hf device
  obtain ⟨n₀, hn₀, hends⟩ := run_of_steps hg device
  cases (hf.launch_eq device).symm.trans hm₀
  cases (hg.launch_eq device).symm.trans hn₀
  refine ⟨hf, hg, ?_, ?_⟩
  · obtain ⟨hfault, -⟩ := hsteps 2 fun j hj => by
      match j with
      | 0 | 1 => rfl
    obtain ⟨-, r, hr, hending, -, hdata⟩ := hfault _ rfl
    exact ⟨r, hr 3, hending, hdata.stack_eq⟩
  · obtain ⟨-, hend⟩ := hends 1 fun j hj => by
      match j with
      | 0 => rfl
    obtain ⟨-, r, hr, -, hdata, -, hflush⟩ := hend rfl
    exact ⟨r, hr 2, (hflush _ rfl).2, hdata.stack_eq⟩

end WhitespaceLang
