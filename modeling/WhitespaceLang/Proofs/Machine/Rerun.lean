import WhitespaceLang.Proofs.Machine.Stopping

/-!
Running a program again. A run may leave the pointer, the return addresses and the phase of the
program as it likes, but it cannot change the instructions and the labels, and the rest is set anew
at the start.
-/

namespace WhitespaceLang
namespace Flow

/-- What can have become of a program that was run, started and stepped any number of times. Each
time the machine may be a new one or one that was used before, over any device. -/
inductive Used (f : Flow) : Flow → Prop
  | fresh : Used f f
  | started {g g' : Flow} (h : Used f g) (hs : g.start = .ok g') : Used f g'
  | stepped {g : Flow} (h : Used f g) (data : Data) : Used f (Machine.step ⟨g, data⟩).2.flow
  | run {g g' : Flow} {r : Report} (h : Used f g) (hs : g.start = .ok g') (data : Data)
      (hr : Machine.Reports ⟨g', data⟩ r) : Used f r.machine.flow

/-- The flow `g` is at some point of the program `f`, from which it can be started again. -/
structure Restartable (f g : Flow) : Prop where
  program_eq : g.program = f.program
  labels_eq : g.labels = f.labels
  phase_ne : g.phase ≠ .loading

section Used

variable {f g g' : Flow} {m : Machine}

/-- What starting, stepping and halting keep up holds however a program was used. -/
theorem Used.keeps {P : Flow → Prop} (hfresh : P f)
    (hstart : ∀ g g', P g → g.start = .ok g' → P g')
    (hstep : ∀ m : Machine, P m.flow → P m.step.2.flow)
    (hhalt : ∀ g : Flow, P g → P { g with phase := .halted }) (h : f.Used g) : P g := by
  have hafter (m : Machine) (hm : P m.flow) (k : Nat) : P (m.after k).flow :=
    Machine.after_of_step hstep (P := (P ·.flow)) hm k
  induction h with
  | fresh => exact hfresh
  | started _ hs ih => exact hstart _ _ ih hs
  | stepped _ data ih => exact hstep ⟨_, data⟩ ih
  | run _ hs data hr ih =>
      obtain ⟨n, stop, m, ha, rfl⟩ := hr
      obtain ⟨k, -, -, -, rfl⟩ := Machine.exists_continues_of_advance ha
      have hlast := hafter ⟨_, data⟩ (hstart _ _ ih hs) (k + 1)
      rw [Machine.close_flow]
      obtain hphase | hphase := (Machine.after ⟨_, data⟩ (k + 1)).close_phase stop
      · rw [hphase]
        exact hlast
      · rw [hphase]
        exact hhalt _ hlast

theorem Restartable.start_eq (h : f.Restartable g) :
    g.start = .ok { f.started with moved := g.moved } := by
  rw [Flow.start_eq, if_neg h.phase_ne, started, h.program_eq, h.labels_eq]
  rfl

theorem Restartable.start (h : f.Restartable g) (hs : g.start = .ok g') : f.Restartable g' := by
  cases h.start_eq.symm.trans hs
  exact ⟨rfl, rfl, nofun⟩

theorem Restartable.step (h : f.Restartable m.flow) : f.Restartable m.step.2.flow := by
  refine ⟨m.step_program_eq.trans h.program_eq, m.step_labels_eq.trans h.labels_eq, ?_⟩
  have hs := m.stepping
  generalize m.step = r at hs
  cases hs with
  | idle | failed | refused => exact h.phase_ne
  | ended => nofun
  | moved _ _ _ hc =>
      rw [hc.phase_eq]
      exact h.phase_ne

theorem Used.restartable (hf : f.Loaded) (h : f.Used g) : f.Restartable g := by
  refine h.keeps ⟨rfl, rfl, by rw [hf.phase_eq]; nofun⟩ (fun _ _ => Restartable.start)
    (fun _ => Restartable.step) ?_
  intro g hg
  exact ⟨hg.program_eq, hg.labels_eq, nofun⟩

/-- Without an instruction to run, control is never transferred. -/
theorem Used.moved_eq (h : f.Used g) (hsize : f.program.size = 0) : g.moved = f.moved := by
  refine (h.keeps (P := fun g => g.program = f.program ∧ g.moved = f.moved) ⟨rfl, rfl⟩ ?_ ?_
    (fun _ hg => hg)).2
  · intro g g' hg hs
    rw [Flow.start_eq] at hs
    split at hs
    · cases hs
    · cases hs
      exact hg
  · intro m hm
    refine ⟨m.step_program_eq.trans hm.1, ?_⟩
    have hnone (i : Instr) : m.flow.program[m.flow.ip]? ≠ some i := by
      intro hi
      obtain ⟨hlt, -⟩ := Array.getElem?_eq_some_iff.mp hi
      rw [hm.1, hsize] at hlt
      exact Nat.not_lt_zero _ hlt
    have hs := m.stepping
    generalize m.step = r at hs
    cases hs with
    | idle | ended => exact hm.2
    | failed _ hi | refused _ hi | moved _ hi => exact absurd hi (hnone _)

end Used
end Flow

/-- A flag from before the start is forgotten before anything asks for it. -/
theorem Machine.advance_of_moved {f : Flow} {moved : Bool} (device : Device)
    (h : f.program.size = 0 → moved = f.moved) (n : Nat) :
    (advance n (.new { f.started with moved } device)).1.map
        (advance n (.new { f.started with moved } device)).2.close =
      (advance n (.new f.started device)).1.map (advance n (.new f.started device)).2.close := by
  by_cases hsize : f.program.size = 0
  · rw [h hsize]
    rfl
  · cases n with
    | zero => rfl
    | succ n =>
        have hpos : 0 < f.program.size := Nat.pos_of_ne_zero hsize
        have hpoll : (Machine.new f.started device).flow.poll.1 = some f.program[0] :=
          Flow.poll_eq_some_iff.mpr ⟨rfl, Array.getElem?_eq_getElem hpos⟩
        have hstep : (Machine.new { f.started with moved } device).step =
            (Machine.new f.started device).step := Machine.step_forgets hpoll moved
        rw [advance_succ, advance_succ, hstep]

/-- A program that was used in whatever way starts like one that was never run, but for what is
known of its last transfer, and its runs have the same reports over every device. -/
theorem rerun_of_used {f g : Flow} (hf : f.Loaded) (hg : f.Used g) (device : Device) :
    g.program = f.program ∧ g.labels = f.labels ∧
      (∃ m₀, f.launch device = .ok m₀ ∧
        g.launch device = .ok { m₀ with flow := { m₀.flow with moved := g.moved } }) ∧
      ∀ n, ∃ o, g.run n device = .ok o ∧ f.run n device = .ok o := by
  have h := hg.restartable hf
  have hlaunch : g.launch device = .ok (.new { f.started with moved := g.moved } device) := by
    rw [Flow.launch, h.start_eq]
    rfl
  refine ⟨h.program_eq, h.labels_eq, ⟨_, hf.launch_eq device, hlaunch⟩, ?_⟩
  intro n
  refine ⟨_, ?_, hf.run_eq n device⟩
  rw [Flow.run_of_launch hlaunch, Machine.advance_of_moved device hg.moved_eq]

/-- A run that fails inside a subroutine, then the call by another machine from the start. What is
left open, the transfer included, does not show in the next run. -/
theorem rerun_of_used_in_subroutine :
    let f : Flow := ⟨#[.call [true], .mark [true], .readChar], [([true], 1)], .ready, 0, [], false⟩
    let broken : Device := ⟨⟨[], ⟨[], some []⟩⟩, .plain⟩
    f.Loaded ∧ ∃ r g, f.Reports broken r ∧ r.ending = .fault 2 (.readFailed []) ∧ f.Used g ∧
      g.phase = .running ∧ g.ip = 1 ∧ g.calls = [1] ∧ g.moved = true ∧
      ∃ o, g.run 9 (.ofText []) = .ok o ∧ f.run 9 (.ofText []) = .ok o := by
  intro f broken
  have hadd : Flow.empty.addAll [.call [true], .mark [true], .readChar] =
      .ok { f with phase := .loading } := rfl
  have hf : f.Loaded := .instrs hadd
  have hrun : ∃ r, f.Reports broken r ∧ r.ending = .fault 2 (.readFailed []) := ⟨_, ⟨3, rfl⟩, rfl⟩
  obtain ⟨r, hr, hend⟩ := hrun
  have hused : f.Used r.machine.flow := .run .fresh rfl (.new broken) (hf.reports_iff.mp hr)
  have hstart := Flow.Used.started hused ((hused.restartable hf).start_eq)
  have hcall := hstart.stepped (.new broken)
  obtain ⟨-, -, -, hagain⟩ := rerun_of_used hf hcall (.ofText [])
  exact ⟨hf, r, _, hr, hend, hcall, rfl, rfl, rfl, rfl, hagain 9⟩

end WhitespaceLang
