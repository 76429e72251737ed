import WhitespaceLang.Proofs.Machine.Relocation

/-!
How runs end. A run is its steps up to the first that does not go on, and its report depends on no
more than the data and the pointer where it stopped. So a program and its relocation report the
same, with positions translated, also when marks stand in between that have to be passed over.
-/

namespace WhitespaceLang

/-- What the answer to a step means for the run: going on, or a reason to stop. -/
def Stop.ofAnswer : Except Failure Bool → Option Stop
  | .ok true => none
  | .ok false => some .ended
  | .error e => some (.failed e)

/-- The ending with the position of the fault translated. -/
def Ending.relocate (π : Nat → Nat) : Ending → Ending
  | .finished => .finished
  | .fault ip f => .fault (π ip) f
  | .tooLong e => .tooLong e

/-- The second report is that of the same run at translated positions. -/
structure Report.Relocates (π : Nat → Nat) (r r' : Report) : Prop where
  data_eq : r'.machine.data = r.machine.data
  phase_eq : r'.machine.flow.phase = r.machine.flow.phase
  ip_eq : r'.machine.flow.ip = π r.machine.flow.ip
  ending_eq : r'.ending = r.ending.relocate π

namespace Machine

section Advance

variable {m m' : Machine} {stop : Stop} {n : Nat}

theorem advance_succ (m : Machine) (n : Nat) :
    m.advance (n + 1) =
      match Stop.ofAnswer m.step.1 with
      | none => m.step.2.advance n
      | some stop => (some stop, m.step.2) := by
  rw [advance]
  generalize m.step = r
  match r with
  | (.ok true, _) | (.ok false, _) | (.error _, _) => rfl

theorem advance_of_continues (h : Stop.ofAnswer m.step.1 = none) (n : Nat) :
    m.advance (n + 1) = m.step.2.advance n := by
  rw [advance_succ, h]

theorem advance_of_stops (h : Stop.ofAnswer m.step.1 = some stop) (n : Nat) :
    m.advance (n + 1) = (some stop, m.step.2) := by
  rw [advance_succ, h]

theorem answer_of_ended {r : Except Failure Bool} (h : Stop.ofAnswer r = some .ended) :
    r = .ok false := by
  match r with
  | .ok false => rfl

theorem answer_of_failed {r : Except Failure Bool} {e : Failure}
    (h : Stop.ofAnswer r = some (.failed e)) : r = .error e := by
  match r with
  | .error _ =>
      cases h
      rfl

theorem answer_of_continues {r : Except Failure Bool} (h : Stop.ofAnswer r = none) :
    r = .ok true := by
  match r with
  | .ok true => rfl

/-- A step that stops the run leaves the pointer where it was. -/
theorem ip_of_stops (h : Stop.ofAnswer m.step.1 = some stop) : m.step.2.flow.ip = m.flow.ip := by
  have hs := m.stepping
  generalize m.step = r at h hs
  cases hs with
  | idle | ended | failed | refused => rfl
  | moved => cases h

/-- A step after which the run goes on leaves the machine running. -/
theorem phase_of_continues (h : Stop.ofAnswer m.step.1 = none) :
    m.flow.phase = .running ∧ m.step.2.flow.phase = .running := by
  have hs := m.stepping
  generalize m.step = r at h hs
  cases hs with
  | idle | ended | failed | refused => cases h
  | moved hp _ _ hc => exact ⟨hp, hc.phase_eq.trans hp⟩

end Advance

section Ended

variable {f : Flow} {m m₁ : Machine} {n : Nat}

/-- A run of a loaded program that ends has come to the end of the program. -/
theorem ip_of_ended (h : f.Reached m.flow) (hl : f.LabelsMatch) (hp : m.flow.phase = .running)
    (ha : m.advance n = (some .ended, m₁)) : m₁.flow.ip = f.program.size := by
  induction n generalizing m with
  | zero => cases ha
  | succ n ih =>
      rw [advance_succ] at ha
      cases ho : Stop.ofAnswer m.step.1 with
      | none =>
          rw [ho] at ha
          exact ih (reached_step h hl) (phase_of_continues ho).2 ha
      | some stop =>
          rw [ho] at ha
          cases ha
          have hend := step_eq_false_iff h
          rw [answer_of_ended ho, hp, h.program_eq] at hend
          rw [ip_of_stops ho]
          simpa using hend

/-- Ending a run changes nothing of the flow but its phase. -/
theorem close_flow (m : Machine) (stop : Stop) :
    (m.close stop).machine.flow =
      { m.flow with phase := (m.close stop).machine.flow.phase } := by
  cases stop with
  | ended =>
      simp only [close, flush]
      cases m.data.device.flush with
      | mk r device => cases r <;> rfl
  | failed e => cases e <;> rfl

theorem close_phase (m : Machine) (stop : Stop) :
    (m.close stop).machine.flow.phase = m.flow.phase ∨
      (m.close stop).machine.flow.phase = .halted := by
  cases stop with
  | ended =>
      simp only [close, flush]
      cases m.data.device.flush with
      | mk r device =>
          cases r with
          | ok _ => exact .inl rfl
          | error f => exact .inr rfl
  | failed e =>
      cases e with
      | fault f => exact .inr rfl
      | tooLong e => exact .inl rfl

theorem close_ip (m : Machine) (stop : Stop) :
    (m.close stop).machine.flow.ip = m.flow.ip := by
  rw [close_flow]

theorem close_calls (m : Machine) (stop : Stop) :
    (m.close stop).machine.flow.calls = m.flow.calls := by
  rw [close_flow]

theorem stop_of_finished {m : Machine} {stop : Stop} (h : (m.close stop).ending = .finished) :
    stop = .ended := by
  cases stop with
  | ended => rfl
  | failed e => cases e <;> cases h

end Ended

section Reports

variable {π : Nat → Nat} {m m' : Machine}

theorem fail_relocates (hdata : m'.data = m.data) (hip : m'.flow.ip = π m.flow.ip) (f : Fault) :
    (m.fail f).Relocates π (m'.fail f) := by
  refine ⟨?_, rfl, hip, ?_⟩
  · simp only [fail, flush, hdata]
  · simp only [fail, flush, hip, Ending.relocate]

theorem close_relocates (hdata : m'.data = m.data) (hphase : m'.flow.phase = m.flow.phase)
    (hip : m'.flow.ip = π m.flow.ip) (stop : Stop) :
    (m.close stop).Relocates π (m'.close stop) := by
  cases stop with
  | ended =>
      have hfail (device : Device) (f : Fault) :
          (fail f ⟨m.flow, { m.data with device }⟩).Relocates π
            (fail f ⟨m'.flow, { m.data with device }⟩) := by
        apply fail_relocates
        · rfl
        · exact hip
      simp only [close, flush, hdata]
      cases m.data.device.flush with
      | mk r device =>
          cases r with
          | ok _ => exact ⟨rfl, hphase, hip, rfl⟩
          | error f =>
              obtain ⟨hdata, hphase, hip, hending⟩ := hfail device f
              exact ⟨hdata, hphase, hip, hending⟩
  | failed e =>
      cases e with
      | fault f => exact fail_relocates hdata hip f
      | tooLong e => exact ⟨hdata, hphase, hip, rfl⟩

end Reports

section Lockstep

variable {At Near : Nat → Nat → Prop} {m m' : Machine}

/-- Where the counterpart of each instruction is reached at once, runs stop after as many steps and
for the same reason. -/
theorem Relocated.advance (h : Relocated id At Near m m') (hnear : ∀ p q, Near p q → At p q)
    (n : Nat) :
    (m'.advance n).1 = (m.advance n).1 ∧
      Relocated id At Near (m.advance n).2 (m'.advance n).2 := by
  induction n generalizing m m' with
  | zero => exact ⟨rfl, h⟩
  | succ n ih =>
      have hat := hnear _ _ h.aligned.ip
      obtain ⟨-, hnext⟩ := h.step hat
      rw [advance_succ, advance_succ, h.step_eq hat]
      cases Stop.ofAnswer m.step.1 with
      | none => exact ih hnext
      | some stop => exact ⟨rfl, hnext⟩

end Lockstep
end Machine

namespace Flow

variable {f : Flow} {device : Device} {r : Report}

theorem run_of_launch {m : Machine} (h : f.launch device = .ok m) (n : Nat) :
    f.run n device = .ok ((m.advance n).1.map (m.advance n).2.close) := by
  simp only [run, h, bind, Except.bind]
  cases m.advance n with
  | mk stop m => cases stop <;> rfl

theorem Loaded.run_eq (hf : f.Loaded) (n : Nat) (device : Device) :
    f.run n device =
      .ok (((Machine.new f.started device).advance n).1.map
        ((Machine.new f.started device).advance n).2.close) :=
  run_of_launch (hf.launch_eq device) n

/-- The run stops after some number of steps, with this report. -/
def Reports (f : Flow) (device : Device) (r : Report) : Prop :=
  ∃ n, f.run n device = .ok (some r)

theorem Loaded.reports_iff (hf : f.Loaded) :
    f.Reports device r ↔
      ∃ n stop m, (Machine.new f.started device).advance n = (some stop, m) ∧
        r = m.close stop := by
  refine exists_congr fun n => ?_
  rw [hf.run_eq]
  cases (Machine.new f.started device).advance n with
  | mk stop m =>
      cases stop with
      | some stop => simp [eq_comm]
      | none => simp

theorem Loaded.ip_of_finished (hf : f.Loaded) (hr : f.Reports device r)
    (hend : r.ending = .finished) : r.machine.flow.ip = f.program.size := by
  obtain ⟨n, stop, m, ha, rfl⟩ := hf.reports_iff.mp hr
  rw [Machine.stop_of_finished hend] at ha
  rw [Machine.close_ip]
  exact Machine.ip_of_ended f.reached_started hf.labelsMatch rfl ha

end Flow

/-- A position near another is at it, or there is a mark in between. -/
structure Settles (At Near : Nat → Nat → Prop) (program : Array Instr) : Prop where
  near {p q : Nat} (h : At p q) : Near p q
  settle {p q : Nat} (h : Near p q) :
    At p q ∨ (∃ l, program[q]? = some (.mark l)) ∧ At p (q + 1)

namespace Machine

section Settling

variable {At Near : Nat → Nat → Prop} {m m' m'' m₁ m₁' : Machine} {n n' : Nat} {stop : Stop}

/-- The machine `m''` is `m'` with a mark passed over, if there was one to pass over. -/
def SettlesTo (m' m'' : Machine) : Prop := m' = m'' ∨ m'.step = (.ok true, m'')

theorem SettlesTo.program_eq (h : m'.SettlesTo m'') : m''.flow.program = m'.flow.program := by
  obtain rfl | hmark := h
  · rfl
  · have hkept := step_program_eq m'
    rw [hmark] at hkept
    exact hkept

theorem SettlesTo.advance (h : m'.SettlesTo m'') (ha : m''.advance n = (some stop, m₁)) :
    ∃ n', m'.advance n' = (some stop, m₁) := by
  obtain rfl | hmark := h
  · exact ⟨n, ha⟩
  · refine ⟨n + 1, ?_⟩
    rw [advance_succ, hmark]
    exact ha

/-- The relocated machine comes to the counterpart of an instruction at once or over a mark. -/
theorem Relocated.settle {ρ : Label → Label} (h : Relocated ρ At Near m m')
    (hs : Settles At Near m'.flow.program) (hp : m.flow.phase = .running) :
    ∃ m'', m'.SettlesTo m'' ∧ Relocated ρ At Near m m'' ∧ At m.flow.ip m''.flow.ip := by
  obtain hat | ⟨⟨l, hl⟩, hat⟩ := hs.settle h.aligned.ip
  · exact ⟨m', .inl rfl, h, hat⟩
  · have hstep := step_moved (h.aligned.phase_eq.trans hp) hl rfl .next
    have hal := h.aligned
    refine ⟨_, .inr hstep, ⟨h.relocation.congr rfl rfl rfl rfl, ?_, h.data_eq⟩, hat⟩
    exact ⟨hal.phase_eq, hs.near hat, hal.calls⟩

/-- If the machine stops at an instruction, so does the relocated one at its counterpart. -/
theorem Relocated.stops (h : Relocated id At Near m m') (hat : At m.flow.ip m'.flow.ip)
    (ho : Stop.ofAnswer m.step.1 = some stop) :
    Relocated id At Near m.step.2 m'.step.2 ∧ At m.step.2.flow.ip m'.step.2.flow.ip := by
  refine ⟨(h.step hat).2, ?_⟩
  rw [ip_of_stops ho, ip_of_stops (h.step_eq hat ▸ ho)]
  exact hat

/-- A run that stops, stops for the same reason when marks are put in between. -/
theorem Relocated.advance_forth (h : Relocated id At Near m m')
    (hs : Settles At Near m'.flow.program) (hp : m.flow.phase = .running)
    (ha : m.advance n = (some stop, m₁)) :
    ∃ n' m₁', m'.advance n' = (some stop, m₁') ∧ Relocated id At Near m₁ m₁' ∧
      At m₁.flow.ip m₁'.flow.ip := by
  induction n generalizing m m' with
  | zero => cases ha
  | succ n ih =>
      obtain ⟨m'', hsettles, h'', hat⟩ := h.settle hs hp
      have hans := h''.step_eq hat
      rw [advance_succ] at ha
      cases ho : Stop.ofAnswer m.step.1 with
      | none =>
          rw [ho] at ha
          have hs'' : Settles At Near m''.step.2.flow.program := by
            rw [step_program_eq, hsettles.program_eq]
            exact hs
          obtain ⟨n', m₁', ha', hstop⟩ :=
            ih (h''.step hat).2 hs'' (phase_of_continues ho).2 ha
          rw [← advance_of_continues (hans ▸ ho)] at ha'
          obtain ⟨k, hk⟩ := hsettles.advance ha'
          exact ⟨k, m₁', hk, hstop⟩
      | some stop' =>
          rw [ho] at ha
          cases ha
          obtain ⟨k, hk⟩ := hsettles.advance (advance_of_stops (hans ▸ ho) 0)
          exact ⟨k, _, hk, h''.stops hat ho⟩

/-- A run with marks in between that stops, stops for the same reason without them. -/
theorem Relocated.advance_back (h : Relocated id At Near m m')
    (hs : Settles At Near m'.flow.program) (hp : m.flow.phase = .running)
    (ha : m'.advance n' = (some stop, m₁')) :
    ∃ n m₁, m.advance n = (some stop, m₁) ∧ Relocated id At Near m₁ m₁' ∧
      At m₁.flow.ip m₁'.flow.ip := by
  induction n' generalizing m m' with
  | zero => cases ha
  | succ n' ih =>
      obtain ⟨m'', hsettles, h'', hat⟩ := h.settle hs hp
      rw [advance_succ] at ha
      obtain rfl | hmark := hsettles
      · have hans := h''.step_eq hat
        cases ho : Stop.ofAnswer m.step.1 with
        | none =>
            rw [hans, ho] at ha
            have hs' : Settles At Near m'.step.2.flow.program := by
              rw [step_program_eq]
              exact hs
            obtain ⟨n, m₁, ha₁, hstop⟩ := ih (h''.step hat).2 hs' (phase_of_continues ho).2 ha
            rw [← advance_of_continues ho] at ha₁
            exact ⟨n + 1, m₁, ha₁, hstop⟩
        | some stop' =>
            rw [hans, ho] at ha
            cases ha
            exact ⟨1, _, advance_of_stops ho 0, h''.stops hat ho⟩
      · -- The mark takes a step of its own, during which the machine without it stands still.
        have hs'' : Settles At Near m''.flow.program := by
          rw [SettlesTo.program_eq (.inr hmark)]
          exact hs
        rw [hmark] at ha
        exact ih h'' hs'' hp ha

end Settling
end Machine
end WhitespaceLang
