import WhitespaceLang.Proofs.Machine.Agreement
import WhitespaceLang.Proofs.Machine.Reachable

/-!
The machine against the reference machine. Over streams that never fail each has a step exactly when
the other has, and the states behind the two steps show the same, so runs of any length agree.
-/

namespace WhitespaceLang
namespace Reference

/-- The two machines are seen to be in the same state. -/
structure Shows (m : Machine) (a : State) : Prop where
  ip_eq : m.flow.ip = a.ip
  calls_eq : m.flow.calls = a.calls
  agrees : Agrees m.data a.store

/-- The invariant of running the loaded program `f` on both machines. -/
structure Simulates (f : Flow) (m : Machine) (a : State) : Prop where
  reached : f.Reached m.flow
  phase_eq : m.flow.phase = .running
  shows : Shows m a

theorem simulates_initial (f : Flow) (input : Text) :
    Simulates f (.new f.started (.ofText input)) (.initial input) where
  reached := f.reached_started
  phase_eq := rfl
  shows := ⟨rfl, rfl, rfl, Heap.retrieve_empty, Device.ofText_eq_plain input⟩

section Simulates

variable {f : Flow} {m m' : Machine} {a a' : State} {i : Instr}

theorem Simulates.instr_iff (h : Simulates f m a) :
    m.flow.program[m.flow.ip]? = some i ↔ f.program[a.ip]? = some i := by
  rw [h.reached.program_eq, h.shows.ip_eq]

theorem Simulates.lookup_iff (h : Simulates f m a) (hl : f.LabelsMatch) {l : Label} {p : Nat} :
    m.flow.labels.lookup l = some p ↔ f.program[p]? = some (.mark l) := by
  rw [h.reached.labels_eq]
  exact hl l p

/-- A machine that carries out an instruction simulates what it then shows. -/
theorem Simulates.moved (h : Simulates f m a) (hl : f.LabelsMatch) {c : Control} {data : Data}
    {flow : Flow} (hi : f.program[a.ip]? = some i) (he : m.data.execute i = (.ok c, data))
    (hc : m.flow.Moves c flow) (hshows : Shows ⟨flow, data⟩ a') :
    m.step = (.ok true, ⟨flow, data⟩) ∧ Simulates f ⟨flow, data⟩ a' := by
  have hi' := h.instr_iff.mpr hi
  have hstep := Machine.step_moved h.phase_eq hi' he hc
  have hreached : f.Reached m.step.2.flow := Machine.reached_step h.reached hl
  rw [hstep] at hreached
  exact ⟨hstep, hreached, hc.phase_eq.trans h.phase_eq, hshows⟩

/-- The machine can follow each step of the reference machine. -/
theorem Simulates.step_of_reference (h : Simulates f m a) (hl : f.LabelsMatch)
    (hs : Step f.program a a') : ∃ m', m.step = (.ok true, m') ∧ Simulates f m' a' := by
  obtain ⟨hip, hcalls, hagrees⟩ := h.shows
  cases hs with
  | operate hi ho =>
      obtain ⟨data, he, hagrees'⟩ := ho.execute hagrees
      exact ⟨_, h.moved hl hi he .next ⟨congrArg (· + 1) hip, hcalls, hagrees'⟩⟩
  | call hi hp =>
      have hmove := Flow.Moves.call ((h.lookup_iff hl).mpr hp)
      have hcalls' := congrArg₂ List.cons (congrArg (· + 1) hip) hcalls
      exact ⟨_, h.moved hl hi rfl hmove ⟨rfl, hcalls', hagrees⟩⟩
  | jump hi hp =>
      have hmove := Flow.Moves.jump ((h.lookup_iff hl).mpr hp)
      exact ⟨_, h.moved hl hi rfl hmove ⟨rfl, hcalls, hagrees⟩⟩
  | ret hi => exact ⟨_, h.moved hl hi rfl (.ret hcalls) ⟨rfl, rfl, hagrees⟩⟩
  | exit hi =>
      have hsize := congrArg Array.size h.reached.program_eq
      exact ⟨_, h.moved hl hi rfl .exit ⟨hsize, hcalls, hagrees⟩⟩
  | @jumpZero l _ _ _ _ _ _ _ hi hp =>
      have hmove := Flow.Moves.jump ((h.lookup_iff hl).mpr hp)
      have he : m.data.execute (.jumpZero l) = _ := Data.execute_jumpZero_eq_ok_iff.mpr
        ⟨0, _, hagrees.stack_eq, (if_pos rfl).symm, rfl⟩
      exact ⟨_, h.moved hl hi he hmove ⟨rfl, hcalls, hagrees.pop⟩⟩
  | @passZero l _ _ _ _ _ _ _ hi hv =>
      have he : m.data.execute (.jumpZero l) = _ := Data.execute_jumpZero_eq_ok_iff.mpr
        ⟨_, _, hagrees.stack_eq, (if_neg hv).symm, rfl⟩
      exact ⟨_, h.moved hl hi he .next ⟨congrArg (· + 1) hip, hcalls, hagrees.pop⟩⟩
  | @jumpNegative l _ _ _ _ _ _ _ _ hi hp hv =>
      have hmove := Flow.Moves.jump ((h.lookup_iff hl).mpr hp)
      have he : m.data.execute (.jumpNegative l) = _ := Data.execute_jumpNegative_eq_ok_iff.mpr
        ⟨_, _, hagrees.stack_eq, (if_pos hv).symm, rfl⟩
      exact ⟨_, h.moved hl hi he hmove ⟨rfl, hcalls, hagrees.pop⟩⟩
  | @passNegative l _ _ _ _ _ _ _ hi hv =>
      have he : m.data.execute (.jumpNegative l) = _ := Data.execute_jumpNegative_eq_ok_iff.mpr
        ⟨_, _, hagrees.stack_eq, (if_neg (Int.not_lt.mpr hv)).symm, rfl⟩
      exact ⟨_, h.moved hl hi he .next ⟨congrArg (· + 1) hip, hcalls, hagrees.pop⟩⟩

/-- The reference machine has a step wherever the machine makes one. -/
theorem Simulates.exists_reference_step (h : Simulates f m a) (hl : f.LabelsMatch)
    (hs : m.step = (.ok true, m')) : ∃ a', Step f.program a a' := by
  have hstep := m.stepping
  rw [hs] at hstep
  cases hstep with
  | @moved i c data flow _ hi he hc =>
      obtain ⟨ip, calls, stack, heap, input, output⟩ := a
      have hcontrol := Data.execute_control he
      have hi := h.instr_iff.mp hi
      have hcalls := h.shows.calls_eq
      have hstack := h.shows.agrees.stack_eq
      cases i with
      | call l =>
          cases hcontrol
          cases hc with
          | call hp => exact ⟨_, .call hi ((h.lookup_iff hl).mp hp)⟩
      | jump l =>
          cases hcontrol
          cases hc with
          | jump hp => exact ⟨_, .jump hi ((h.lookup_iff hl).mp hp)⟩
      | ret =>
          cases hcontrol
          cases hc with
          | ret hr =>
              cases hcalls.symm.trans hr
              exact ⟨_, .ret hi⟩
      | exit => exact ⟨_, .exit hi⟩
      | jumpZero l =>
          obtain ⟨v, rest, hs, hv, -⟩ := Data.execute_jumpZero_eq_ok_iff.mp he
          cases hstack.symm.trans hs
          by_cases hzero : v = 0
          · rw [if_pos hzero] at hv
            subst hv hzero
            cases hc with
            | jump hp => exact ⟨_, .jumpZero hi ((h.lookup_iff hl).mp hp)⟩
          · exact ⟨_, .passZero hi hzero⟩
      | jumpNegative l =>
          obtain ⟨v, rest, hs, hv, -⟩ := Data.execute_jumpNegative_eq_ok_iff.mp he
          cases hstack.symm.trans hs
          by_cases hneg : v < 0
          · rw [if_pos hneg] at hv
            subst hv
            cases hc with
            | jump hp => exact ⟨_, .jumpNegative hi ((h.lookup_iff hl).mp hp) hneg⟩
          · exact ⟨_, .passNegative hi (Int.not_lt.mp hneg)⟩
      | _ =>
          obtain ⟨st, ho⟩ := exists_operates h.shows.agrees he (fun _ => rfl)
          exact ⟨_, .operate hi ho⟩

theorem Simulates.step_of_machine (h : Simulates f m a) (hl : f.LabelsMatch)
    (hs : m.step = (.ok true, m')) : ∃ a', Step f.program a a' ∧ Simulates f m' a' := by
  obtain ⟨a', ha⟩ := h.exists_reference_step hl hs
  obtain ⟨m'', hs', h'⟩ := h.step_of_reference hl ha
  cases hs.symm.trans hs'
  exact ⟨a', ha, h'⟩

theorem Simulates.step_false_iff (h : Simulates f m a) :
    m.step.1 = .ok false ↔ a.ip = f.program.size := by
  have hend := Machine.step_eq_false_iff h.reached
  rw [h.shows.ip_eq, h.reached.program_eq, h.phase_eq] at hend
  simpa only [reduceCtorEq, or_false] using hend

/-- The machine comes to its end where the reference machine has left the program. -/
theorem Simulates.ends_iff (h : Simulates f m a) :
    (∃ m', m.step = (.ok false, m') ∧ Shows m' a) ↔ a.ip = f.program.size := by
  constructor
  · intro hend
    obtain ⟨m', hs, -⟩ := hend
    exact h.step_false_iff.mp (congrArg Prod.fst hs)
  · intro hsize
    have hnone : m.flow.program[m.flow.ip]? = none := by
      rw [h.reached.program_eq, h.shows.ip_eq, hsize]
      exact Array.getElem?_size
    have hshows := h.shows
    exact ⟨_, Machine.step_ended h.phase_eq hnone, hshows.ip_eq, hshows.calls_eq, hshows.agrees⟩

/-- The machine fails where the reference machine is stuck inside the program. -/
theorem Simulates.fails_iff (h : Simulates f m a) (hl : f.LabelsMatch) :
    (∃ e, m.step.1 = .error e) ↔ a.ip < f.program.size ∧ ∀ a', ¬ Step f.program a a' := by
  constructor
  · intro hfail
    obtain ⟨e, he⟩ := hfail
    have hle := h.reached.ip_le
    rw [h.shows.ip_eq, h.reached.program_eq] at hle
    refine ⟨Nat.lt_of_le_of_ne hle ?_, ?_⟩
    · intro hsize
      rw [h.step_false_iff.mpr hsize] at he
      cases he
    · intro a' ha
      obtain ⟨m', hs, -⟩ := h.step_of_reference hl ha
      rw [hs] at he
      cases he
  · intro hstuck
    match hs : m.step with
    | (.error e, m') => exact ⟨e, rfl⟩
    | (.ok true, m') =>
        obtain ⟨a', ha⟩ := h.exists_reference_step hl hs
        exact absurd ha (hstuck.2 a')
    | (.ok false, m') =>
        have hsize := h.step_false_iff.mp (congrArg Prod.fst hs)
        exact absurd hsize (Nat.ne_of_lt hstuck.1)

/-- Each run of the reference machine is a run of the machine that is as long. -/
theorem Simulates.advance_of_steps (h : Simulates f m a) (hl : f.LabelsMatch) {k : Nat}
    (hs : Steps f.program k a a') : ∃ m', m.advance k = (none, m') ∧ Simulates f m' a' := by
  induction hs generalizing m with
  | zero => exact ⟨m, rfl, h⟩
  | succ hstep _ ih =>
      obtain ⟨m₁, hm₁, h₁⟩ := h.step_of_reference hl hstep
      obtain ⟨m', hm', h'⟩ := ih h₁
      refine ⟨m', ?_, h'⟩
      simp only [Machine.advance, hm₁, hm']

/-- Each run of the machine is a run of the reference machine that is as long. -/
theorem Simulates.steps_of_advance (h : Simulates f m a) (hl : f.LabelsMatch) {k : Nat}
    (hm : m.advance k = (none, m')) : ∃ a', Steps f.program k a a' ∧ Simulates f m' a' := by
  induction k generalizing m a with
  | zero =>
      cases hm
      exact ⟨a, .zero, h⟩
  | succ k ih =>
      simp only [Machine.advance] at hm
      split at hm
      · next m₁ hm₁ =>
          obtain ⟨a₁, ha₁, h₁⟩ := h.step_of_machine hl hm₁
          obtain ⟨a', ha', h'⟩ := ih h₁ hm
          exact ⟨a', .succ ha₁ ha', h'⟩
      · cases hm
      · cases hm

end Simulates
end Reference

/-- A loaded program runs on the machine as it does on the reference machine. -/
theorem simulates_reference {f : Flow} (hf : f.Loaded) (input : Text) :
    ∃ m₀, f.launch (.ofText input) = .ok m₀ ∧ ∀ k,
      (∀ m, m₀.advance k = (none, m) →
        ∃ a, Reference.Steps f.program k (.initial input) a ∧ Reference.Shows m a) ∧
      ∀ a, Reference.Steps f.program k (.initial input) a →
        ∃ m, m₀.advance k = (none, m) ∧ Reference.Shows m a ∧
          ((∃ m', m.step = (.ok false, m') ∧ Reference.Shows m' a) ↔ a.ip = f.program.size) ∧
          ((∃ e, m.step.1 = .error e) ↔
            a.ip < f.program.size ∧ ∀ a', ¬ Reference.Step f.program a a') := by
  have h₀ := Reference.simulates_initial f input
  have hl := hf.labelsMatch
  refine ⟨_, hf.launch_eq (.ofText input), fun k => ⟨?_, ?_⟩⟩
  · intro m hm
    obtain ⟨a, ha, h⟩ := h₀.steps_of_advance hl hm
    exact ⟨a, ha, h.shows⟩
  · intro a ha
    obtain ⟨m, hm, h⟩ := h₀.advance_of_steps hl ha
    exact ⟨m, hm, h.shows, h.ends_iff, h.fails_iff hl⟩

/-- A character that is read, kept on the heap and printed. -/
theorem simulates_reference_of_echo :
    let f : Flow :=
      ⟨#[.push 3, .readChar, .push 3, .retrieve, .printChar], [], .ready, 0, [], false⟩
    let c : CodePoint := .ofChar 'A'
    f.Loaded ∧ ∃ m₀ m, f.launch (.ofText [c]) = .ok m₀ ∧ m₀.advance 5 = (none, m) ∧
      m.data.device.output.text = [c] ∧ m.step.1 = .ok false := by
  intro f c
  have hadd : Flow.empty.addAll [.push 3, .readChar, .push 3, .retrieve, .printChar] =
      .ok { f with phase := .loading } := rfl
  have hf : f.Loaded := .instrs hadd
  obtain ⟨m₀, hlaunch, hall⟩ := simulates_reference hf [c]
  obtain ⟨-, hfollows⟩ := hall 5
  have hsteps : Reference.Steps f.program 5 (.initial [c])
      ⟨5, [], ⟨[], Function.update (fun _ => 0) 3 c.val, [], [c]⟩⟩ :=
    .succ (.operate rfl .push) <| .succ (.operate rfl (.readChar c)) <|
    .succ (.operate rfl .push) <| .succ (.operate rfl .retrieve) <|
    .succ (.operate rfl (.printChar c)) .zero
  obtain ⟨m, hm, hshows, hends, -⟩ := hfollows _ hsteps
  obtain ⟨m', hs, -⟩ := hends.mpr rfl
  refine ⟨hf, m₀, m, hlaunch, hm, ?_, congrArg Prod.fst hs⟩
  rw [hshows.agrees.device_eq]
  rfl

end WhitespaceLang
