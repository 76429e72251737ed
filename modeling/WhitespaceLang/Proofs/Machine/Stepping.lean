import WhitespaceLang.Machine.Run
import WhitespaceLang.Proofs.Machine.Operands
import Mathlib.Logic.Function.Iterate

/-!
What one step of the machine can do. The flow moves in one of five ways, which way is decided by
the instruction and the operand stack before it runs, and whatever goes wrong leaves the flow alone.
-/

namespace WhitespaceLang
namespace Flow

/-- The ways to leave an instruction, with the flow behind it. -/
inductive Moves (f : Flow) : Control → Flow → Prop
  | next : Moves f .next { f with ip := f.ip + 1, moved := false }
  | jump {l : Label} {p : Nat} (h : f.labels.lookup l = some p) :
      Moves f (.jump l) { f with ip := p, moved := true }
  | call {l : Label} {p : Nat} (h : f.labels.lookup l = some p) :
      Moves f (.call l) { f with ip := p, calls := (f.ip + 1) :: f.calls, moved := true }
  | ret {p : Nat} {rest : List Nat} (h : f.calls = p :: rest) :
      Moves f .ret { f with ip := p, calls := rest, moved := true }
  | exit : Moves f .exit { f with ip := f.program.size, moved := true }

/-- The ways in which an instruction cannot be left, with the fault. -/
inductive Refuses (f : Flow) : Control → Fault → Prop
  | jump {l : Label} (h : f.labels.lookup l = none) : Refuses f (.jump l) (.undefinedLabel l)
  | call {l : Label} (h : f.labels.lookup l = none) : Refuses f (.call l) (.undefinedLabel l)
  | ret (h : f.calls = []) : Refuses f .ret .returnOutside

section Transfer

variable {c : Control} {f f' : Flow} {e : Fault}

theorem moves_or_refuses (f : Flow) (c : Control) :
    (∃ f', f.Moves c f') ∨ ∃ e, f.Refuses c e := by
  cases c with
  | next => exact .inl ⟨_, .next⟩
  | exit => exact .inl ⟨_, .exit⟩
  | jump l =>
      cases h : f.labels.lookup l with
      | some p => exact .inl ⟨_, .jump h⟩
      | none => exact .inr ⟨_, .jump h⟩
  | call l =>
      cases h : f.labels.lookup l with
      | some p => exact .inl ⟨_, .call h⟩
      | none => exact .inr ⟨_, .call h⟩
  | ret =>
      cases h : f.calls with
      | cons p rest => exact .inl ⟨_, .ret h⟩
      | nil => exact .inr ⟨_, .ret h⟩

theorem outcome_target_of_lookup {l : Label} {p : Nat} (h : f.labels.lookup l = some p) :
    (FlowControl.target l).outcome f = (.ok p, f) := by
  simp only [FlowControl.target, Attempt.outcome_bind, Attempt.outcome_get, h, Attempt.outcome_pure]

theorem outcome_target_of_none {l : Label} (h : f.labels.lookup l = none) :
    (FlowControl.target l).outcome f = (.error (.undefinedLabel l), f) := by
  simp only [FlowControl.target, Attempt.outcome_bind, Attempt.outcome_get, h,
    Attempt.outcome_throw]

/-- A transfer leaves a mark behind, so the step in which it is made does not pass on. -/
theorem Moves.outcome_transfer (h : f.Moves c f') (hc : c ≠ .next) :
    (FlowControl.transfer c).outcome f = (.ok (), f') ∧ f'.moved = true := by
  cases h with
  | next => exact absurd rfl hc
  | jump h =>
      refine ⟨?_, rfl⟩
      simp only [FlowControl.transfer, FlowControl.jump, Attempt.outcome_bind,
        outcome_target_of_lookup h, Attempt.outcome_modify]
  | call h =>
      refine ⟨?_, rfl⟩
      simp only [FlowControl.transfer, FlowControl.call, Attempt.outcome_bind,
        outcome_target_of_lookup h, Attempt.outcome_modify]
  | ret h =>
      refine ⟨?_, rfl⟩
      simp only [FlowControl.transfer, FlowControl.ret, Attempt.outcome_bind, Attempt.outcome_get,
        h, Attempt.outcome_modify]
  | exit => exact ⟨rfl, rfl⟩

theorem Refuses.outcome_transfer (h : f.Refuses c e) :
    (FlowControl.transfer c).outcome f = (.error e, f) := by
  cases h with
  | jump h =>
      simp only [FlowControl.transfer, FlowControl.jump, Attempt.outcome_bind,
        outcome_target_of_none h]
  | call h =>
      simp only [FlowControl.transfer, FlowControl.call, Attempt.outcome_bind,
        outcome_target_of_none h]
  | ret h =>
      simp only [FlowControl.transfer, FlowControl.ret, Attempt.outcome_bind, Attempt.outcome_get,
        h, Attempt.outcome_throw]

theorem outcome_transfer_eq_error_iff :
    (FlowControl.transfer c).outcome f = (.error e, f') ↔ f.Refuses c e ∧ f' = f := by
  constructor
  · intro h
    have hf' : f' = f := FlowControl.atomic_transfer c _ _ _ h
    refine ⟨?_, hf'⟩
    obtain ⟨g, hg⟩ | ⟨e', he'⟩ := f.moves_or_refuses c
    · by_cases hc : c = .next
      · subst hc
        cases h
      · cases (hg.outcome_transfer hc).1.symm.trans h
    · cases he'.outcome_transfer.symm.trans h
      exact he'
  · rintro ⟨h, rfl⟩
    exact h.outcome_transfer

/-- What an instruction answers in a step, and the pass behind it, make up a move. -/
theorem Moves.outcome_unmoved (h : f.Moves c f') :
    ∃ g, (FlowControl.transfer c).outcome f.unmoved = (.ok (), g) ∧ g.pass = f' := by
  by_cases hc : c = .next
  · subst hc
    cases h
    exact ⟨_, rfl, rfl⟩
  · have hunmoved : f.unmoved.Moves c f' := by
      cases h with
      | next => exact absurd rfl hc
      | jump h => exact .jump h
      | call h => exact .call h
      | ret h => exact .ret h
      | exit => exact .exit
    obtain ⟨ht, hmoved⟩ := hunmoved.outcome_transfer hc
    exact ⟨f', ht, if_pos hmoved⟩

theorem Refuses.unmoved (h : f.Refuses c e) : f.unmoved.Refuses c e := by
  cases h with
  | jump h => exact .jump h
  | call h => exact .call h
  | ret h => exact .ret h

end Transfer

theorem poll_eq_some_iff {f : Flow} {i : Instr} :
    f.poll.1 = some i ↔ f.phase = .running ∧ f.program[f.ip]? = some i := by
  simp only [poll]
  split
  · next hp => cases hi : f.program[f.ip]? <;> simp [hp]
  · next hp => simp [hp]

section Next

variable {σ ε : Type} {flow : σ → Flow} {withFlow : Flow → σ → σ}
  {execute : Instr → σ → Except ε Unit × σ} {s t : σ} {i : Instr}

theorem next_idle (h : (flow s).phase ≠ .running) :
    next flow withFlow execute s = (.ok false, withFlow (flow s) s) := by
  simp only [next, poll, if_neg h]

theorem next_ended (h : (flow s).phase = .running)
    (hi : (flow s).program[(flow s).ip]? = none) :
    next flow withFlow execute s =
      (.ok false, withFlow { flow s with phase := .halted } s) := by
  simp only [next, poll, if_pos h, hi]

theorem next_error {e : ε} (h : (flow s).phase = .running)
    (hi : (flow s).program[(flow s).ip]? = some i)
    (he : execute i (withFlow (flow s).unmoved s) = (.error e, t)) :
    next flow withFlow execute s = (.error e, t) := by
  simp only [next, poll, if_pos h, hi, he]

theorem next_ok (h : (flow s).phase = .running) (hi : (flow s).program[(flow s).ip]? = some i)
    (he : execute i (withFlow (flow s).unmoved s) = (.ok (), t)) :
    next flow withFlow execute s = (.ok true, withFlow (flow t).pass t) := by
  simp only [next, poll, if_pos h, hi, he]

end Next

section Moves

variable {c : Control} {f f' : Flow}

theorem Moves.program_eq (h : f.Moves c f') : f'.program = f.program := by
  cases h <;> rfl

theorem Moves.labels_eq (h : f.Moves c f') : f'.labels = f.labels := by
  cases h <;> rfl

theorem Moves.phase_eq (h : f.Moves c f') : f'.phase = f.phase := by
  cases h <;> rfl

end Moves
end Flow

/-- Where an instruction sends control when it succeeds on this stack. -/
def InstrOf.control (i : Instr) (s : Stack) : Control :=
  match i, s with
  | .call l, _ => .call l
  | .jump l, _ => .jump l
  | .jumpZero l, v :: _ => if v = 0 then .jump l else .next
  | .jumpNegative l, v :: _ => if v < 0 then .jump l else .next
  | .ret, _ => .ret
  | .exit, _ => .exit
  | _, _ => .next

/-- The label that an instruction may send control to. -/
def InstrOf.target? : Instr → Option Label
  | .call l | .jump l | .jumpZero l | .jumpNegative l => some l
  | _ => none

theorem InstrOf.target?_of_control {i : Instr} {s : Stack} {l : Label}
    (h : i.control s = .jump l ∨ i.control s = .call l) : i.target? = some l := by
  cases i with
  | call l' | jump l' =>
      simp only [control, reduceCtorEq, Control.jump.injEq, Control.call.injEq, false_or,
        or_false] at h
      rw [target?, h]
  | jumpZero l' | jumpNegative l' =>
      cases s with
      | nil => simp [control] at h
      | cons v s =>
          simp only [control] at h
          split at h
          · simp only [reduceCtorEq, Control.jump.injEq, or_false] at h
            rw [target?, h]
          · simp at h
  | _ => simp [control] at h

namespace Data

variable {d d' : Data} {c : Control}

theorem execute_control {i : Instr} (h : d.execute i = (.ok c, d')) : c = i.control d.stack := by
  cases i with
  | push n | dup | copy n | swap | slide n =>
      simp only [execute] at h
      exact (updateStack_eq_ok_iff.mp h).1
  | printChar | printNumber =>
      simp only [execute] at h
      exact (printTop_eq_ok_iff.mp h).1
  | readChar | readNumber =>
      simp only [execute] at h
      exact (storeRead_eq_ok_iff.mp h).1
  | arith op => exact (execute_arith_eq_ok_iff.mp h).1
  | mark l | call l | jump l | ret | exit =>
      cases h
      rfl
  | discard | store | retrieve =>
      simp only [execute] at h
      split at h
      · cases h
        rfl
      · cases h
  | jumpZero l =>
      obtain ⟨v, rest, hs, hc, -⟩ := execute_jumpZero_eq_ok_iff.mp h
      rw [hc, hs]
      rfl
  | jumpNegative l =>
      obtain ⟨v, rest, hs, hc, -⟩ := execute_jumpNegative_eq_ok_iff.mp h
      rw [hc, hs]
      rfl

end Data

namespace Machine

theorem execute_data (m : Machine) (i : Instr) :
    (m.execute i).2.data = (m.data.execute i).2 := by
  simp only [execute]
  split
  · next he => rw [he]
  · next he =>
      split <;> rw [he]

/-- The ways a step can go, with its answer and the machine behind it. -/
inductive Stepping (m : Machine) : Except Failure Bool × Machine → Prop
  | idle (h : m.flow.phase ≠ .running) : Stepping m (.ok false, m)
  | ended (h : m.flow.phase = .running) (hi : m.flow.program[m.flow.ip]? = none) :
      Stepping m (.ok false, { m with flow := { m.flow with phase := .halted } })
  | failed {i : Instr} {e : Failure} {data : Data} (h : m.flow.phase = .running)
      (hi : m.flow.program[m.flow.ip]? = some i) (he : m.data.execute i = (.error e, data)) :
      Stepping m (.error e, ⟨m.flow.unmoved, data⟩)
  | refused {i : Instr} {c : Control} {f : Fault} {data : Data} (h : m.flow.phase = .running)
      (hi : m.flow.program[m.flow.ip]? = some i) (he : m.data.execute i = (.ok c, data))
      (hc : m.flow.Refuses c f) : Stepping m (.error (.fault f), ⟨m.flow.unmoved, data⟩)
  | moved {i : Instr} {c : Control} {data : Data} {flow : Flow} (h : m.flow.phase = .running)
      (hi : m.flow.program[m.flow.ip]? = some i) (he : m.data.execute i = (.ok c, data))
      (hc : m.flow.Moves c flow) : Stepping m (.ok true, ⟨flow, data⟩)

section Step

variable {m : Machine} {i : Instr}

theorem execute_error {e : Failure} {data : Data} (he : m.data.execute i = (.error e, data)) :
    m.execute i = (.error e, ⟨m.flow, data⟩) := by
  simp only [execute, he]

theorem execute_ok {c : Control} {data : Data} {flow : Flow}
    (he : m.data.execute i = (.ok c, data))
    (ht : (FlowControl.transfer c).outcome m.flow = (.ok (), flow)) :
    m.execute i = (.ok (), ⟨flow, data⟩) := by
  simp only [execute, he, ht]

theorem execute_refused {c : Control} {f : Fault} {data : Data}
    (he : m.data.execute i = (.ok c, data)) (hc : m.flow.Refuses c f) :
    m.execute i = (.error (.fault f), ⟨m.flow, data⟩) := by
  simp only [execute, he, hc.outcome_transfer]

theorem step_idle (h : m.flow.phase ≠ .running) : m.step = (.ok false, m) :=
  Flow.next_idle h

theorem step_ended (h : m.flow.phase = .running) (hi : m.flow.program[m.flow.ip]? = none) :
    m.step = (.ok false, { m with flow := { m.flow with phase := .halted } }) :=
  Flow.next_ended h hi

theorem step_failed {e : Failure} {data : Data} (h : m.flow.phase = .running)
    (hi : m.flow.program[m.flow.ip]? = some i) (he : m.data.execute i = (.error e, data)) :
    m.step = (.error e, ⟨m.flow.unmoved, data⟩) := by
  apply Flow.next_error h hi
  exact execute_error he

theorem step_refused {c : Control} {f : Fault} {data : Data} (h : m.flow.phase = .running)
    (hi : m.flow.program[m.flow.ip]? = some i) (he : m.data.execute i = (.ok c, data))
    (hc : m.flow.Refuses c f) : m.step = (.error (.fault f), ⟨m.flow.unmoved, data⟩) := by
  apply Flow.next_error h hi
  exact execute_refused he hc.unmoved

theorem step_moved {c : Control} {data : Data} {flow : Flow} (h : m.flow.phase = .running)
    (hi : m.flow.program[m.flow.ip]? = some i) (he : m.data.execute i = (.ok c, data))
    (hc : m.flow.Moves c flow) : m.step = (.ok true, ⟨flow, data⟩) := by
  obtain ⟨g, ht, rfl⟩ := hc.outcome_unmoved
  apply Flow.next_ok (t := ⟨g, data⟩) h hi
  exact execute_ok he ht

end Step

theorem stepping (m : Machine) : m.Stepping m.step := by
  by_cases h : m.flow.phase = .running
  · cases hi : m.flow.program[m.flow.ip]? with
    | none =>
        rw [step_ended h hi]
        exact .ended h hi
    | some i =>
        cases he : m.data.execute i with
        | mk r data =>
            cases r with
            | error e =>
                rw [step_failed h hi he]
                exact .failed h hi he
            | ok c =>
                obtain ⟨flow, hc⟩ | ⟨f, hc⟩ := m.flow.moves_or_refuses c
                · rw [step_moved h hi he hc]
                  exact .moved h hi he hc
                · rw [step_refused h hi he hc]
                  exact .refused h hi he hc
  · rw [step_idle h]
    exact .idle h

/-- Whether control was transferred before a step is nothing to the instruction that it runs. -/
theorem step_forgets {m : Machine} {i : Instr} (h : m.flow.poll.1 = some i) (moved : Bool) :
    step ⟨{ m.flow with moved }, m.data⟩ = m.step := by
  obtain ⟨hp, hi⟩ := Flow.poll_eq_some_iff.mp h
  simp [step, Flow.next, Flow.poll, Flow.unmoved, hp, hi]

theorem step_program_eq (m : Machine) : m.step.2.flow.program = m.flow.program := by
  have hs := m.stepping
  generalize m.step = r at hs
  cases hs with
  | idle | ended | failed | refused => rfl
  | moved _ _ _ hc => exact hc.program_eq

theorem step_labels_eq (m : Machine) : m.step.2.flow.labels = m.flow.labels := by
  have hs := m.stepping
  generalize m.step = r at hs
  cases hs with
  | idle | ended | failed | refused => rfl
  | moved _ _ _ hc => exact hc.labels_eq

/-- The same point of the program over changed data. -/
def mapData (φ : Data → Data) (m : Machine) : Machine := { m with data := φ m.data }

/-- A change of the data that the instruction at the pointer does not notice goes through the step
unnoticed. -/
theorem step_mapData {m : Machine} {φ : Data → Data}
    (h : m.flow.phase = .running → ∀ i r d, m.flow.program[m.flow.ip]? = some i →
      m.data.execute i = (r, d) → (φ m.data).execute i = (r, φ d)) :
    (m.mapData φ).step = (m.step.1, m.step.2.mapData φ) := by
  have hs := m.stepping
  generalize m.step = r at hs
  cases hs with
  | idle hp => exact step_idle hp
  | ended hp hi => exact step_ended hp hi
  | failed hp hi he => exact step_failed hp hi (h hp _ _ _ hi he)
  | refused hp hi he hc => exact step_refused hp hi (h hp _ _ _ hi he) hc
  | moved hp hi he hc => exact step_moved hp hi (h hp _ _ _ hi he) hc

/-- The machine after `k` steps. A step that fails counts, and the next one tries again. -/
def after (m : Machine) (k : Nat) : Machine := (·.step.2)^[k] m

theorem after_zero (m : Machine) : m.after 0 = m := rfl

theorem after_succ (m : Machine) (k : Nat) : m.after (k + 1) = (m.after k).step.2 :=
  Function.iterate_succ_apply' _ k m

theorem after_succ' (m : Machine) (k : Nat) : m.after (k + 1) = m.step.2.after k := rfl

theorem after_add (m : Machine) (j k : Nat) : m.after (j + k) = (m.after j).after k := by
  rw [Nat.add_comm]
  exact Function.iterate_add_apply _ k j m

/-- What every step keeps up holds after all of them. -/
theorem after_of_step {P : Machine → Prop} (hstep : ∀ m, P m → P m.step.2) {m : Machine} (h : P m)
    (k : Nat) : P (m.after k) :=
  Function.Iterate.rec P h hstep k

theorem program_eq_after (m : Machine) (k : Nat) : (m.after k).flow.program = m.flow.program :=
  after_of_step (fun m' h => m'.step_program_eq.trans h) (P := (·.flow.program = _)) rfl k

theorem labels_eq_after (m : Machine) (k : Nat) : (m.after k).flow.labels = m.flow.labels :=
  after_of_step (fun m' h => m'.step_labels_eq.trans h) (P := (·.flow.labels = _)) rfl k

end Machine
end WhitespaceLang
