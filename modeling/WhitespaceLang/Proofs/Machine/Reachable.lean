import WhitespaceLang.Proofs.Machine.Loading
import WhitespaceLang.Proofs.Machine.Stepping
import Mathlib.Data.Nat.Count

/-!
The states that a loaded program reaches. Return addresses stand behind calls of the program, which
is what keeps the pointer inside it after a return, and there are as many of them as calls were made
and not yet returned from. Steps that fail are steps too.
-/

namespace WhitespaceLang

namespace InstrOf

variable {i : Instr} {s : Stack}

theorem eq_call_of_control {l : Label} (h : i.control s = .call l) : i = .call l := by
  cases i with
  | call l' => cases h; rfl
  | jumpZero l' | jumpNegative l' =>
      cases s with
      | nil => cases h
      | cons v s =>
          simp only [control] at h
          split at h <;> cases h
  | _ => cases h

theorem eq_ret_of_control (h : i.control s = .ret) : i = .ret := by
  cases i with
  | ret => rfl
  | jumpZero l' | jumpNegative l' =>
      cases s with
      | nil => cases h
      | cons v s =>
          simp only [control] at h
          split at h <;> cases h
  | _ => cases h

theorem opcode_call_iff : i.opcode = .call ↔ ∃ l, i.control s = .call l := by
  constructor
  · intro h
    cases i with
    | call l => exact ⟨l, rfl⟩
    | arith op => cases op <;> cases h
    | _ => cases h
  · intro h
    obtain ⟨l, h⟩ := h
    rw [eq_call_of_control h]
    rfl

theorem opcode_ret_iff : i.opcode = .ret ↔ i.control s = .ret := by
  constructor
  · intro h
    cases i with
    | ret => rfl
    | arith op => cases op <;> cases h
    | _ => cases h
  · intro h
    rw [eq_ret_of_control h]
    rfl

end InstrOf

namespace Flow

/-- The flow `g` is one that the loaded program `f` can be in after it was launched. -/
structure Reached (f g : Flow) : Prop where
  program_eq : g.program = f.program
  labels_eq : g.labels = f.labels
  phase : g.phase = .running ∨ g.phase = .halted
  ip_le : g.ip ≤ g.program.size
  calls_follow : ∀ r ∈ g.calls, 1 ≤ r ∧ ∃ l, g.program[r - 1]? = some (.call l)

theorem reached_started (f : Flow) : f.Reached f.started where
  program_eq := rfl
  labels_eq := rfl
  phase := .inl rfl
  ip_le := Nat.zero_le _
  calls_follow := nofun

section Reached

variable {f g g' : Flow}

theorem Reached.labelsMatch (h : f.Reached g) (hl : f.LabelsMatch) : g.LabelsMatch := by
  intro l p
  rw [h.labels_eq, h.program_eq]
  exact hl l p

theorem Reached.unmoved (h : f.Reached g) : f.Reached g.unmoved :=
  ⟨h.program_eq, h.labels_eq, h.phase, h.ip_le, h.calls_follow⟩

theorem Reached.return_le (h : f.Reached g) {r : Nat} (hr : r ∈ g.calls) :
    r ≤ g.program.size := by
  obtain ⟨hpos, l, hl⟩ := h.calls_follow r hr
  obtain ⟨hlt, -⟩ := Array.getElem?_eq_some_iff.mp hl
  omega

theorem LabelsMatch.lt_size (hl : g.LabelsMatch) {l : Label} {p : Nat}
    (h : g.labels.lookup l = some p) : p < g.program.size := by
  obtain ⟨hlt, -⟩ := Array.getElem?_eq_some_iff.mp ((hl l p).mp h)
  exact hlt

/-- Leaving an instruction in the way that it asks for keeps the flow within the program. -/
theorem Reached.moves (h : f.Reached g) (hl : g.LabelsMatch) {i : Instr} {s : Stack}
    (hi : g.program[g.ip]? = some i) (hm : g.Moves (i.control s) g') : f.Reached g' := by
  obtain ⟨hip, -⟩ := Array.getElem?_eq_some_iff.mp hi
  have kept : g'.program = g.program := hm.program_eq
  refine ⟨kept.trans h.program_eq, hm.labels_eq.trans h.labels_eq, ?_, ?_, ?_⟩
  · rw [hm.phase_eq]
    exact h.phase
  · generalize i.control s = c at hm
    cases hm with
    | next => exact hip
    | jump hp => exact Nat.le_of_lt (hl.lt_size hp)
    | call hp => exact Nat.le_of_lt (hl.lt_size hp)
    | ret hc => exact h.return_le (by rw [hc]; exact List.mem_cons_self)
    | exit => exact Nat.le_refl _
  · intro r hr
    rw [kept]
    generalize hcontrol : i.control s = c at hm
    cases hm with
    | next | jump | exit => exact h.calls_follow r hr
    | @call l p hp =>
        -- The new return address is behind the instruction at the pointer, which is a call.
        rw [InstrOf.eq_call_of_control hcontrol] at hi
        cases List.mem_cons.mp hr with
        | inl heq =>
            subst heq
            exact ⟨Nat.succ_pos _, l, hi⟩
        | inr hr => exact h.calls_follow r hr
    | ret hc =>
        apply h.calls_follow r
        rw [hc]
        exact List.mem_cons_of_mem _ hr

end Reached
end Flow

namespace Machine

variable {m : Machine} {f : Flow}

/-- Whether the next step runs an instruction with this opcode and succeeds. -/
def completes (op : Opcode) (m : Machine) : Bool :=
  match m.step.1, m.flow.program[m.flow.ip]? with
  | .ok true, some i => i.opcode == op
  | _, _ => false

theorem reached_step (h : f.Reached m.flow) (hl : f.LabelsMatch) :
    f.Reached m.step.2.flow := by
  have hs := m.stepping
  generalize m.step = r at hs
  cases hs with
  | idle => exact h
  | failed | refused => exact h.unmoved
  | ended => exact ⟨h.program_eq, h.labels_eq, .inr rfl, h.ip_le, h.calls_follow⟩
  | moved _ hi he hc =>
      rw [Data.execute_control he] at hc
      exact h.moves (h.labelsMatch hl) hi hc

theorem reached_after (h : f.Reached m.flow) (hl : f.LabelsMatch) (k : Nat) :
    f.Reached (m.after k).flow :=
  after_of_step (fun _ h => reached_step h hl) (P := (f.Reached ·.flow)) h k

/-- A call that succeeds adds one return address, a return that succeeds takes one away, and nothing
else changes their number. -/
theorem step_calls_length (m : Machine) :
    m.step.2.flow.calls.length + (m.completes .ret).toNat =
      m.flow.calls.length + (m.completes .call).toNat := by
  have hs := m.stepping
  simp only [completes]
  generalize m.step = r at hs
  cases hs with
  | idle | ended | failed | refused => rfl
  | @moved i c data flow h hi he hc =>
      have hcontrol := Data.execute_control he
      have hret : (i.opcode == .ret) = true ↔ c = .ret := by
        rw [beq_iff_eq, InstrOf.opcode_ret_iff, hcontrol]
      have hcall : (i.opcode == .call) = true ↔ ∃ l, c = .call l := by
        rw [beq_iff_eq, InstrOf.opcode_call_iff, hcontrol]
      simp only [hi]
      cases hc with
      | next | jump | exit =>
          have noRet : (i.opcode == .ret) = false := by simpa using hret
          have noCall : (i.opcode == .call) = false := by simpa using hcall
          rw [noRet, noCall]
      | call =>
          have noRet : (i.opcode == .ret) = false := by simpa using hret
          rw [noRet, hcall.mpr ⟨_, rfl⟩]
          rfl
      | ret hc =>
          have noCall : (i.opcode == .call) = false := by simpa using hcall
          rw [noCall, hret.mpr rfl, hc]
          rfl

theorem after_calls_length (m : Machine) (k : Nat) :
    (m.after k).flow.calls.length + Nat.count (fun j => (m.after j).completes .ret) k =
      m.flow.calls.length + Nat.count (fun j => (m.after j).completes .call) k := by
  induction k with
  | zero => rfl
  | succ k ih =>
      have hstep := step_calls_length (m.after k)
      have toNat (b : Bool) : (if b = true then 1 else 0) = b.toNat := by cases b <;> rfl
      rw [Nat.count_succ, Nat.count_succ, toNat, toNat, after_succ]
      omega

/-- Control goes to the mark of the label that a jump or a call names. -/
theorem step_reaches_mark (hl : m.flow.LabelsMatch) {i : Instr} {l : Label}
    (hs : m.step.1 = .ok true) (hi : m.flow.program[m.flow.ip]? = some i)
    (hc : i.control m.data.stack = .call l ∨ i.control m.data.stack = .jump l) :
    m.step.2.flow.program[m.step.2.flow.ip]? = some (.mark l) := by
  have hstep := m.stepping
  generalize m.step = r at hs hstep
  cases hstep with
  | idle | ended | failed | refused => cases hs
  | moved _ hi' he hm =>
      cases hi.symm.trans hi'
      have hcontrol := Data.execute_control he
      rw [hm.program_eq]
      cases hm with
      | next | ret | exit => rw [← hcontrol] at hc; simp at hc
      | jump hp =>
          rw [← hcontrol] at hc
          simp only [reduceCtorEq, Control.jump.injEq, false_or] at hc
          subst hc
          exact (hl _ _).mp hp
      | call hp =>
          rw [← hcontrol] at hc
          simp only [reduceCtorEq, Control.call.injEq, or_false] at hc
          subst hc
          exact (hl _ _).mp hp

theorem step_eq_false_iff (h : f.Reached m.flow) :
    m.step.1 = .ok false ↔ m.flow.ip = m.flow.program.size ∨ m.flow.phase = .halted := by
  have hip := h.ip_le
  have hs := m.stepping
  generalize m.step = r at hs
  cases hs with
  | idle hp =>
      have hh := h.phase.resolve_left hp
      simp [hh]
  | ended hp hi =>
      have hge := Array.getElem?_eq_none_iff.mp hi
      simp [Nat.le_antisymm hip hge]
  | failed hp hi | refused hp hi | moved hp hi =>
      obtain ⟨hlt, -⟩ := Array.getElem?_eq_some_iff.mp hi
      simp [hp, Nat.ne_of_lt hlt]

/-- A machine that says there is nothing left says so ever after and stays as it is. -/
theorem step_after_false (h : m.step.1 = .ok false) (j : Nat) :
    (m.step.2.after j).step = (.ok false, m.step.2) := by
  have hidle : m.step.2.step = (.ok false, m.step.2) := by
    have hs := m.stepping
    generalize m.step = r at h hs
    cases hs with
    | idle hp => exact step_idle hp
    | ended => exact step_idle (by simp)
    | failed | refused | moved => cases h
  induction j with
  | zero => exact hidle
  | succ j ih => rw [after_succ, ih, hidle]

end Machine

/-- What holds of a loaded program after it was launched and any number of steps were made. -/
theorem reachable_flow {f : Flow} (hf : f.Loaded) (device : Device) :
    ∃ m₀, f.launch device = .ok m₀ ∧ ∀ k,
      let m := m₀.after k
      (m.flow.program = f.program ∧ m.flow.labels = f.labels) ∧
      (∀ l i, m.flow.labels.lookup l = some i ↔ m.flow.program[i]? = some (.mark l)) ∧
      m.flow.ip ≤ m.flow.program.size ∧
      (∀ r ∈ m.flow.calls, 1 ≤ r ∧ r ≤ m.flow.program.size ∧
        ∃ l, m.flow.program[r - 1]? = some (.call l)) ∧
      m.flow.calls.length + Nat.count (fun j => (m₀.after j).completes .ret) k =
        Nat.count (fun j => (m₀.after j).completes .call) k ∧
      (∀ i l, m.step.1 = .ok true → m.flow.program[m.flow.ip]? = some i →
        i.control m.data.stack = .call l ∨ i.control m.data.stack = .jump l →
        m.step.2.flow.program[m.step.2.flow.ip]? = some (.mark l)) ∧
      (m.step.1 = .ok false ↔ m.flow.ip = m.flow.program.size ∨ m.flow.phase = .halted) ∧
      (m.step.1 = .ok false →
        ∀ j, k < j → (m₀.after j).step = (.ok false, m₀.after (k + 1))) := by
  refine ⟨_, hf.launch_eq device, ?_⟩
  intro k m
  have hl := hf.labelsMatch
  have reached : f.Reached m.flow := Machine.reached_after f.reached_started hl k
  have marks : m.flow.LabelsMatch := reached.labelsMatch hl
  refine ⟨⟨reached.program_eq, reached.labels_eq⟩, marks, reached.ip_le, ?_, ?_, ?_,
    Machine.step_eq_false_iff reached, ?_⟩
  · intro r hr
    obtain ⟨hpos, hcall⟩ := reached.calls_follow r hr
    exact ⟨hpos, reached.return_le hr, hcall⟩
  · have hcount := Machine.after_calls_length (.new f.started device) k
    rw [show (Machine.new f.started device).flow.calls.length = 0 from rfl, Nat.zero_add] at hcount
    exact hcount
  · intro i l hs hi hc
    exact Machine.step_reaches_mark marks hs hi hc
  · intro hs j hj
    obtain ⟨d, rfl⟩ := Nat.exists_eq_add_of_lt hj
    have hstop := Machine.step_after_false hs d
    rw [Nat.add_right_comm, Machine.after_add, Machine.after_succ]
    exact hstop

/-- A call that goes out and comes back keeps no return address but the one behind it. -/
theorem reachable_flow_of_one_call :
    let f : Flow :=
      ⟨#[.call [true], .exit, .mark [true], .ret], [([true], 2)], .ready, 0, [], false⟩
    f.Loaded ∧ ∃ m₀, f.launch (.ofText []) = .ok m₀ ∧
      ∀ k, ∀ r ∈ (m₀.after k).flow.calls, r = 1 := by
  intro f
  have hadd : Flow.empty.addAll [.call [true], .exit, .mark [true], .ret] =
      .ok { f with phase := .loading } := rfl
  have hf : f.Loaded := .instrs hadd
  obtain ⟨m₀, hlaunch, hall⟩ := reachable_flow hf (.ofText [])
  refine ⟨hf, m₀, hlaunch, ?_⟩
  intro k r hr
  obtain ⟨⟨hprogram, -⟩, -, -, hcalls, -⟩ := hall k
  obtain ⟨hpos, hle, l, hl⟩ := hcalls r hr
  rw [hprogram] at hle hl
  have hle : r ≤ 4 := hle
  match r with
  | 1 => rfl
  | 2 | 3 | 4 => cases hl

end WhitespaceLang
