import WhitespaceLang.Proofs.Machine.Marks
import WhitespaceLang.Proofs.Machine.Rerun

/-!
Operations on a flow in any order, also out of the phase they are meant for, where the ones that are
refused are passed over. What is refused changes nothing, and what is not keeps the label table true
to the program and the return addresses behind some instruction. From the end of loading on, the
program and its labels stay as they are.
-/

namespace WhitespaceLang
namespace Flow

/-- What can be asked of a flow. A step comes with the way that the instruction at the pointer is
answered, which may be a transfer of control. -/
inductive Operation where
  | add (i : Instr)
  | finish
  | start
  | transfer (c : Control)
  | step (react : Instr → Control)

inductive Refusal where
  | program (e : ProgramError)
  | fault (e : Fault)

/-- What an operation on the flow answers, as an operation among others. -/
def answer {ε α : Type} (refusal : ε → Refusal) (say : α → Option Bool) (r : Except ε α × Flow) :
    Except Refusal (Option Bool) × Flow :=
  ((r.1.mapError refusal).map say, r.2)

/-- The answer to an operation and the flow behind it. A step answers whether there was an
instruction left, the other operations have nothing to say. -/
def operate (f : Flow) : Operation → Except Refusal (Option Bool) × Flow
  | .add i => answer .program (fun _ => none) ((FlowControl.add i).outcome f)
  | .finish => (.ok none, f.finish)
  | .start => answer .program (fun _ => none) (FlowControl.start.outcome f)
  | .transfer c => answer .fault (fun _ => none) ((FlowControl.transfer c).outcome f)
  | .step react => answer .fault some (f.step react)

/-- Carries out operations one after another, whether or not some of them are refused. -/
def operateAll (f : Flow) (ops : List Operation) : Flow :=
  ops.foldl (fun f op => (f.operate op).2) f

/-- The operations that are refused, with the reason. -/
inductive Denies (f : Flow) : Operation → Refusal → Prop
  | loaded {i : Instr} (h : f.phase ≠ .loading) : Denies f (.add i) (.program .alreadyLoaded)
  | duplicate {l : Label} (h : f.phase = .loading) (hl : f.labels.lookup l ≠ none) :
      Denies f (.add (.mark l)) (.program (.duplicateLabel l))
  | unloaded (h : f.phase = .loading) : Denies f .start (.program .stillLoading)
  | transfer {c : Control} {e : Fault} (h : f.Refuses c e) : Denies f (.transfer c) (.fault e)
  | step {react : Instr → Control} {i : Instr} {e : Fault} (h : f.phase = .running)
      (hi : f.program[f.ip]? = some i) (he : f.Refuses (react i) e) :
      Denies f (.step react) (.fault e)

/-- The flow behind an operation that is refused. A step forgets an earlier transfer before the
instruction runs, and that is all that it changes. -/
def kept (f : Flow) : Operation → Flow
  | .step _ => f.unmoved
  | _ => f

/-- The ways an operation can go, with its answer and the flow behind it. -/
inductive Operating (f : Flow) : Operation → Except Refusal (Option Bool) × Flow → Prop
  | denied {op : Operation} {e : Refusal} (h : f.Denies op e) : Operating f op (.error e, f.kept op)
  | added {i : Instr} {g : Flow} (h : f.add i = .ok g) : Operating f (.add i) (.ok none, g)
  | finished : Operating f .finish (.ok none, f.finish)
  | started (h : f.phase ≠ .loading) : Operating f .start (.ok none, f.started)
  | stayed : Operating f (.transfer .next) (.ok none, f)
  | transferred {c : Control} {g : Flow} (hc : c ≠ .next) (h : f.Moves c g) :
      Operating f (.transfer c) (.ok none, g)
  | idle {react : Instr → Control} (h : f.phase ≠ .running) :
      Operating f (.step react) (.ok (some false), f)
  | ended {react : Instr → Control} (h : f.phase = .running) (hi : f.program[f.ip]? = none) :
      Operating f (.step react) (.ok (some false), { f with phase := .halted })
  | moved {react : Instr → Control} {i : Instr} {g : Flow} (h : f.phase = .running)
      (hi : f.program[f.ip]? = some i) (hm : f.Moves (react i) g) :
      Operating f (.step react) (.ok (some true), g)

section Operate

variable {f g : Flow} {op : Operation} {e : Refusal} {react : Instr → Control} {i : Instr}

theorem denies_of_add {e : ProgramError} (h : f.add i = .error e) :
    f.Denies (.add i) (.program e) := by
  by_cases hp : f.phase = .loading
  · cases e with
    | duplicateLabel l =>
        obtain ⟨rfl, hl⟩ := (add_eq_duplicate_iff hp).mp h
        exact .duplicate hp hl
    | alreadyLoaded | stillLoading =>
        simp only [add_eq, hp, ne_eq, not_true, ite_false] at h
        split at h
        · split at h <;> cases h
        · cases h
  · simp only [add_eq, ne_eq, hp, not_false_eq_true, ite_true] at h
    cases h
    exact .loaded hp

/-- What looks before it writes leaves the flow as it was when it is refused. -/
theorem answer_of_error {ε : Type} {refusal : ε → Refusal} {a : Attempt Flow ε Unit} {e : ε}
    (ha : a.Atomic) (h : a.made f = .error e) :
    answer refusal (fun _ => none) (a.outcome f) = (.error (refusal e), f) := by
  rw [ha.outcome_eq_error_iff.mpr ⟨h, rfl⟩]
  rfl

theorem answer_of_ok {ε : Type} {refusal : ε → Refusal} {a : Attempt Flow ε Unit}
    (h : a.made f = .ok g) : answer refusal (fun _ => none) (a.outcome f) = (.ok none, g) := by
  rw [Attempt.made_eq_ok_iff.mp h]
  rfl

theorem operate_step_idle (h : f.phase ≠ .running) :
    f.operate (.step react) = (.ok (some false), f) :=
  congrArg (answer .fault some) (next_idle h)

theorem operate_step_ended (h : f.phase = .running) (hi : f.program[f.ip]? = none) :
    f.operate (.step react) = (.ok (some false), { f with phase := .halted }) :=
  congrArg (answer .fault some) (next_ended h hi)

theorem operate_step_denied {e : Fault} (h : f.phase = .running) (hi : f.program[f.ip]? = some i)
    (he : f.Refuses (react i) e) : f.operate (.step react) = (.error (.fault e), f.unmoved) :=
  congrArg (answer .fault some) (next_error h hi he.unmoved.outcome_transfer)

theorem operate_step_moved (h : f.phase = .running) (hi : f.program[f.ip]? = some i)
    (hm : f.Moves (react i) g) : f.operate (.step react) = (.ok (some true), g) := by
  obtain ⟨g, ht, rfl⟩ := hm.outcome_unmoved
  exact congrArg (answer .fault some) (next_ok h hi ht)

theorem operate_of_denies (h : f.Denies op e) : f.operate op = (.error e, f.kept op) := by
  cases h with
  | @loaded i h =>
      have hadd : f.add i = .error .alreadyLoaded := by rw [add_eq, if_pos h]
      exact answer_of_error (FlowControl.atomic_add i) hadd
  | duplicate h hl =>
      exact answer_of_error (FlowControl.atomic_add _) ((add_eq_duplicate_iff h).mpr ⟨rfl, hl⟩)
  | unloaded h =>
      have hstart : f.start = .error .stillLoading := by rw [start_eq, if_pos h]
      exact answer_of_error FlowControl.atomic_start hstart
  | transfer h =>
      rw [operate, h.outcome_transfer]
      rfl
  | step h hi he => exact operate_step_denied h hi he

theorem operating_step (f : Flow) (react : Instr → Control) :
    f.Operating (.step react) (f.operate (.step react)) := by
  by_cases h : f.phase = .running
  · cases hi : f.program[f.ip]? with
    | none =>
        rw [operate_step_ended h hi]
        exact .ended h hi
    | some i =>
        obtain ⟨g, hm⟩ | ⟨e, he⟩ := f.moves_or_refuses (react i)
        · rw [operate_step_moved h hi hm]
          exact .moved h hi hm
        · rw [operate_step_denied h hi he]
          exact .denied (.step h hi he)
  · rw [operate_step_idle h]
    exact .idle h

theorem operating_transfer (f : Flow) (c : Control) :
    f.Operating (.transfer c) (f.operate (.transfer c)) := by
  by_cases hc : c = .next
  · subst hc
    exact .stayed
  · obtain ⟨g, hm⟩ | ⟨e, he⟩ := f.moves_or_refuses c
    · have ht : f.operate (.transfer c) = (.ok none, g) := by
        rw [operate, (hm.outcome_transfer hc).1]
        rfl
      rw [ht]
      exact .transferred hc hm
    · rw [operate_of_denies (.transfer he)]
      exact .denied (.transfer he)

theorem operating (f : Flow) (op : Operation) : f.Operating op (f.operate op) := by
  cases op with
  | add i =>
      cases h : f.add i with
      | ok g =>
          rw [operate, answer_of_ok h]
          exact .added h
      | error e =>
          rw [operate_of_denies (denies_of_add h)]
          exact .denied (denies_of_add h)
  | finish => exact .finished
  | start =>
      by_cases h : f.phase = .loading
      · rw [operate_of_denies (.unloaded h)]
        exact .denied (.unloaded h)
      · have hstart : f.start = .ok f.started := by rw [start_eq, if_neg h]
        rw [operate, answer_of_ok hstart]
        exact .started h
  | transfer c => exact f.operating_transfer c
  | step react => exact f.operating_step react

theorem operate_eq_error_iff : f.operate op = (.error e, g) ↔ f.Denies op e ∧ g = f.kept op := by
  constructor
  · intro h
    have ho := f.operating op
    rw [h] at ho
    cases ho with
    | denied hd => exact ⟨hd, rfl⟩
  · rintro ⟨hd, rfl⟩
    exact operate_of_denies hd

theorem kept_eq (f : Flow) (op : Operation) :
    f.kept op = { f with moved := (f.kept op).moved } := by
  cases op <;> rfl

theorem kept_phase (f : Flow) (op : Operation) : (f.kept op).phase = f.phase := by
  rw [kept_eq]

theorem kept_of_ne_step (h : ∀ react, op ≠ .step react) : f.kept op = f := by
  cases op with
  | step react => exact absurd rfl (h react)
  | _ => rfl

/-- A transfer that is made is known to have been made. -/
theorem moved_of_transfer {c : Control} {r : Option Bool} (hc : c ≠ .next)
    (h : f.operate (.transfer c) = (.ok r, g)) : g.moved = true := by
  have ho := f.operating (.transfer c)
  rw [h] at ho
  cases ho with
  | stayed => exact absurd rfl hc
  | transferred _ hm => exact (hm.outcome_transfer hc).2

/-- Only a start sets a flow running. -/
theorem eq_start_of_running (h : f.phase ≠ .running) (h' : (f.operate op).2.phase = .running) :
    op = .start := by
  have ho := f.operating op
  generalize f.operate op = r at h' ho
  cases ho with
  | started => rfl
  | denied => exact absurd (kept_phase f op ▸ h') h
  | stayed | idle => exact absurd h' h
  | added ha =>
      obtain ⟨-, -, rfl⟩ := add_eq_ok_iff.mp ha
      exact absurd h' h
  | transferred _ hm => exact absurd (hm.phase_eq.symm.trans h') h
  | moved hp => exact absurd hp h
  | finished | ended => cases h'

/-- Only a step halts a flow. -/
theorem exists_eq_step_of_halted (h : f.phase ≠ .halted)
    (h' : (f.operate op).2.phase = .halted) : ∃ react, op = .step react := by
  have ho := f.operating op
  generalize f.operate op = r at h' ho
  cases ho with
  | idle | ended | moved => exact ⟨_, rfl⟩
  | denied => exact absurd (kept_phase f op ▸ h') h
  | stayed => exact absurd h' h
  | added ha =>
      obtain ⟨-, -, rfl⟩ := add_eq_ok_iff.mp ha
      exact absurd h' h
  | transferred _ hm => exact absurd (hm.phase_eq.symm.trans h') h
  | finished | started => cases h'

end Operate

section Invariants

variable {f g : Flow}

/-- The labels are those of the program, and every return address is behind some position. -/
structure Coherent (f : Flow) : Prop where
  labelsMatch : f.LabelsMatch
  calls_pos : ∀ r ∈ f.calls, 1 ≤ r

theorem coherent_empty : empty.Coherent := ⟨labelsMatch_empty, nofun⟩

theorem Coherent.moves {c : Control} (h : f.Coherent) (hm : f.Moves c g) : g.Coherent := by
  refine ⟨?_, ?_⟩
  · intro l p
    rw [hm.labels_eq, hm.program_eq]
    exact h.labelsMatch l p
  · intro r hr
    cases hm with
    | next | jump | exit => exact h.calls_pos r hr
    | call =>
        cases List.mem_cons.mp hr with
        | inl heq => exact heq ▸ Nat.succ_pos f.ip
        | inr hr => exact h.calls_pos r hr
    | ret hc => exact h.calls_pos r (hc ▸ List.mem_cons_of_mem _ hr)

theorem Coherent.operate (h : f.Coherent) (op : Operation) : (f.operate op).2.Coherent := by
  have ho := f.operating op
  generalize f.operate op = r at ho
  cases ho with
  | denied =>
      rw [kept_eq]
      exact ⟨h.labelsMatch, h.calls_pos⟩
  | stayed | idle => exact h
  | added ha =>
      refine ⟨h.labelsMatch.add ha, ?_⟩
      obtain ⟨-, -, rfl⟩ := add_eq_ok_iff.mp ha
      exact h.calls_pos
  | finished | ended => exact ⟨h.labelsMatch, h.calls_pos⟩
  | started => exact ⟨h.labelsMatch, nofun⟩
  | transferred _ hm | moved _ _ hm => exact h.moves hm

theorem Coherent.operateAll (h : f.Coherent) (ops : List Operation) :
    (f.operateAll ops).Coherent := by
  induction ops generalizing f with
  | nil => exact h
  | cons op ops ih => exact ih (h.operate op)

theorem Restartable.operate (h : f.Restartable g) (op : Operation) :
    f.Restartable (g.operate op).2 := by
  have ho := g.operating op
  generalize g.operate op = r at ho
  have hmoves {c : Control} {g' : Flow} (hm : g.Moves c g') : f.Restartable g' :=
    ⟨hm.program_eq.trans h.program_eq, hm.labels_eq.trans h.labels_eq,
      fun hp => h.phase_ne (hm.phase_eq.symm.trans hp)⟩
  cases ho with
  | denied =>
      rw [kept_eq]
      exact ⟨h.program_eq, h.labels_eq, h.phase_ne⟩
  | stayed | idle => exact h
  | added ha =>
      obtain ⟨hp, -⟩ := add_eq_ok_iff.mp ha
      exact absurd hp h.phase_ne
  | finished | started | ended => exact ⟨h.program_eq, h.labels_eq, nofun⟩
  | transferred _ hm | moved _ _ hm => exact hmoves hm

theorem Restartable.operateAll (h : f.Restartable g) (ops : List Operation) :
    f.Restartable (g.operateAll ops) := by
  induction ops generalizing g with
  | nil => exact h
  | cons op ops ih => exact ih (h.operate op)

theorem phase_ne_of_finish_mem {ops : List Operation} (h : .finish ∈ ops) :
    (f.operateAll ops).phase ≠ .loading := by
  induction ops generalizing f with
  | nil => cases h
  | cons op ops ih =>
      cases List.mem_cons.mp h with
      | inl heq =>
          subst heq
          have hself : f.finish.Restartable f.finish := ⟨rfl, rfl, nofun⟩
          exact (hself.operateAll ops).phase_ne
      | inr hmem => exact ih hmem

end Invariants

end Flow

/-- What holds of a flow after any operations in any order. What is refused is refused for a reason
that the flow shows, and changes nothing but that a step forgets an earlier transfer. For the same
reason a transfer that was made outside a step does not keep a later step from going on to the next
instruction; only the transfer that the step itself is asked for does. -/
theorem operated_flow (ops : List Flow.Operation) :
    let f := Flow.empty.operateAll ops
    (∀ l i, f.labels.lookup l = some i ↔ f.program[i]? = some (.mark l)) ∧
    (.finish ∈ ops → ∀ later, let g := f.operateAll later
      g.phase ≠ .loading ∧ g.program = f.program ∧ g.labels = f.labels) ∧
    (∀ op, f.phase ≠ .running → (f.operate op).2.phase = .running → op = .start) ∧
    (∀ op, f.phase ≠ .halted → (f.operate op).2.phase = .halted → ∃ react, op = .step react) ∧
    (0 ≤ f.ip ∧ (∀ r ∈ f.calls, 1 ≤ r) ∧
      (∀ i, f.poll.1 = some i ↔
        f.phase = .running ∧ ∃ h : f.ip < f.program.size, f.program[f.ip] = i) ∧
      (f.phase = .running → f.program.size ≤ f.ip → ∀ react,
        f.operate (.step react) = (.ok (some false), { f with phase := .halted }))) ∧
    (∀ op e, ((f.operate op).1 = .error e ↔ f.Denies op e) ∧
      ∀ g, f.operate op = (.error e, g) →
        g = { f with moved := g.moved } ∧ ((∀ react, op ≠ .step react) → g = f)) ∧
    (∀ c r g, f.operate (.transfer c) = (.ok r, g) →
      (c ≠ .next → g.moved = true) ∧ ∀ between, let h := g.operateAll between
        ∀ react i, h.phase = .running → h.program[h.ip]? = some i →
          (react i = .next →
            h.operate (.step react) =
              (.ok (some true), { h with ip := h.ip + 1, moved := false })) ∧
          ∀ k, h.Moves (react i) k → h.operate (.step react) = (.ok (some true), k)) := by
  intro f
  have hf : f.Coherent := Flow.coherent_empty.operateAll ops
  refine ⟨hf.labelsMatch, ?_, fun op => Flow.eq_start_of_running,
    fun op => Flow.exists_eq_step_of_halted,
    ⟨Nat.zero_le _, hf.calls_pos, ?_, ?_⟩, ?_, ?_⟩
  · intro hfinish later g
    have hself : f.Restartable f := ⟨rfl, rfl, Flow.phase_ne_of_finish_mem hfinish⟩
    obtain ⟨hprogram, hlabels, hphase⟩ := hself.operateAll later
    exact ⟨hphase, hprogram, hlabels⟩
  · intro i
    rw [Flow.poll_eq_some_iff, Array.getElem?_eq_some_iff]
  · intro hp hsize react
    exact Flow.operate_step_ended hp (Array.getElem?_eq_none hsize)
  · intro op e
    constructor
    · constructor
      · intro he
        exact (Flow.operate_eq_error_iff.mp (Prod.ext he rfl)).1
      · intro hd
        rw [Flow.operate_of_denies hd]
    · intro g hg
      obtain ⟨-, rfl⟩ := Flow.operate_eq_error_iff.mp hg
      exact ⟨f.kept_eq op, Flow.kept_of_ne_step⟩
  · intro c r g hg
    refine ⟨fun hc => Flow.moved_of_transfer hc hg, ?_⟩
    intro between h react i hp hi
    constructor
    · intro hnext
      refine Flow.operate_step_moved hp hi ?_
      rw [hnext]
      exact .next
    · intro k hm
      exact Flow.operate_step_moved hp hi hm

/-- A jump outside a step goes where it says, and the step behind it still goes on. -/
example :
    let f := Flow.empty.operateAll
      [.add (.mark []), .add .dup, .finish, .start, .transfer .exit, .transfer (.jump [])]
    f.ip = 0 ∧ f.moved = true ∧ (f.operateAll [.step fun _ => .next]).ip = 1 ∧
      (f.operateAll [.step fun _ => .jump []]).ip = 0 := by
  decide

/-- A return address may lie beyond the program, and then so may the pointer. -/
example :
    let f := Flow.empty.operateAll
      [.add (.mark []), .transfer .exit, .transfer (.call []), .transfer .ret, .finish, .start,
        .transfer .exit, .transfer (.call []), .transfer .ret]
    f.program.size = 1 ∧ f.ip = 2 ∧ (f.operateAll [.step fun _ => .ret]).phase = .halted := by
  decide

end WhitespaceLang
