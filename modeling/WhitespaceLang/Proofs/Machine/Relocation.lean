import WhitespaceLang.Proofs.Machine.Marks
import WhitespaceLang.Proofs.Machine.Reachable
import WhitespaceLang.Proofs.Machine.Relabelling
import Mathlib.Data.List.Forall2

/-!
A program whose instructions stand at other positions, under other labels, in another program. As
long as instructions that go on to the one behind them still have it behind them, and labels name
corresponding positions, one step of the two does the same to the data and keeps the pointers and
the return addresses in correspondence.
-/

namespace WhitespaceLang

/-- Whether control never goes on behind the instruction, neither at once nor by a return. -/
def InstrOf.leaves : Instr → Bool
  | .jump _ | .ret | .exit => true
  | _ => false

theorem InstrOf.leaves_of_control {i : Instr} {s : Stack}
    (h : i.control s = .next ∨ ∃ l, i.control s = .call l) : i.leaves = false := by
  cases i with
  | jump l | ret | exit => simp [control] at h
  | _ => rfl

theorem InstrOf.eq_exit_of_control {i : Instr} {s : Stack} (h : i.control s = .exit) :
    i = .exit := by
  cases i with
  | exit => rfl
  | jumpZero l' | jumpNegative l' =>
      cases s with
      | nil => cases h
      | cons v s =>
          simp only [control] at h
          split at h <;> cases h
  | _ => cases h

namespace Flow

/-- What the program of `f` has at a position, the program of `g` has at each position `At` it, with
labels renamed by `ρ`. Positions that control may come to next are `Near` each other. -/
structure Relocation (ρ : Label → Label) (At Near : Nat → Nat → Prop) (f g : Flow) : Prop where
  instr {p q : Nat} (h : At p q) : g.program[q]? = f.program[p]?.map (InstrOf.relabel ρ)
  behind {p q : Nat} {i : Instr} (h : At p q) (hi : f.program[p]? = some i)
    (hl : i.leaves = false) : Near (p + 1) (q + 1)
  target {p : Nat} {i : Instr} {l : Label} (hi : f.program[p]? = some i) (hl : i.label? = some l) :
    Option.Rel Near (f.labels.lookup l) (g.labels.lookup (ρ l))
  finish {p : Nat} (hi : f.program[p]? = some .exit) : Near f.program.size g.program.size

/-- The two flows are in the middle of corresponding runs. -/
structure Aligned (Near : Nat → Nat → Prop) (f g : Flow) : Prop where
  phase_eq : g.phase = f.phase
  ip : Near f.ip g.ip
  calls : List.Forall₂ Near f.calls g.calls

theorem Aligned.unmoved {Near : Nat → Nat → Prop} {f g : Flow} (h : Aligned Near f g) :
    Aligned Near f.unmoved g.unmoved :=
  ⟨h.phase_eq, h.ip, h.calls⟩

/-- Positions that correspond by a map correspond one by one. -/
theorem forall₂_map_iff {π : Nat → Nat} {calls calls' : List Nat} :
    List.Forall₂ (fun p q => π p = q) calls calls' ↔ calls' = calls.map π := by
  rw [← List.forall₂_map_left_iff, List.forall₂_eq_eq_eq, eq_comm]

section Relocation

variable {ρ : Label → Label} {At Near : Nat → Nat → Prop} {f g f' g' : Flow} {i : Instr} {s : Stack}

theorem Relocation.congr (h : Relocation ρ At Near f g) (hf : f'.program = f.program)
    (hfl : f'.labels = f.labels) (hg : g'.program = g.program) (hgl : g'.labels = g.labels) :
    Relocation ρ At Near f' g' := by
  refine ⟨?_, ?_, ?_, ?_⟩
  · rw [hf, hg]
    exact h.instr
  · rw [hf]
    exact h.behind
  · rw [hf, hfl, hgl]
    exact h.target
  · rw [hf, hg]
    exact h.finish

/-- A label that `f` knows is known to `g` under its new name, at a corresponding position. -/
theorem Relocation.lookup_eq_some (h : Relocation ρ At Near f g) {p : Nat} {l : Label}
    (hi : f.program[f.ip]? = some i) (hl : i.label? = some l)
    (hp : f.labels.lookup l = some p) : ∃ q, g.labels.lookup (ρ l) = some q ∧ Near p q := by
  have hrel := h.target hi hl
  rw [hp] at hrel
  generalize g.labels.lookup (ρ l) = o at hrel
  cases hrel with
  | some hnear => exact ⟨_, rfl, hnear⟩

theorem Relocation.lookup_eq_none (h : Relocation ρ At Near f g) {l : Label}
    (hi : f.program[f.ip]? = some i) (hl : i.label? = some l)
    (hp : f.labels.lookup l = none) : g.labels.lookup (ρ l) = none := by
  have hrel := h.target hi hl
  rw [hp] at hrel
  generalize g.labels.lookup (ρ l) = o at hrel
  cases hrel with
  | none => rfl

/-- Where `f` leaves an instruction, `g` leaves its counterpart in the same way. -/
theorem Relocation.moves (h : Relocation ρ At Near f g) (ha : Aligned Near f g)
    (hat : At f.ip g.ip) (hi : f.program[f.ip]? = some i) (hm : f.Moves (i.control s) f') :
    ∃ g', g.Moves ((i.control s).relabel ρ) g' ∧ Aligned Near f' g' := by
  have hphase := ha.phase_eq
  have hcalls := ha.calls
  generalize hc : i.control s = c at hm
  cases hm with
  | next =>
      have hl := InstrOf.leaves_of_control (.inl hc)
      exact ⟨_, .next, hphase, h.behind hat hi hl, hcalls⟩
  | jump hp =>
      obtain ⟨q, hq, hnear⟩ := h.lookup_eq_some hi (InstrOf.label?_of_control (.inl hc)) hp
      exact ⟨_, .jump hq, hphase, hnear, hcalls⟩
  | call hp =>
      obtain ⟨q, hq, hnear⟩ := h.lookup_eq_some hi (InstrOf.label?_of_control (.inr hc)) hp
      have hl := InstrOf.leaves_of_control (.inr ⟨_, hc⟩)
      exact ⟨_, .call hq, hphase, hnear, .cons (h.behind hat hi hl) hcalls⟩
  | ret hr =>
      rw [hr] at hcalls
      generalize hgr : g.calls = calls at hcalls
      cases hcalls with
      | cons hnear hrest => exact ⟨_, .ret hgr, hphase, hnear, hrest⟩
  | exit =>
      rw [InstrOf.eq_exit_of_control hc] at hi
      exact ⟨_, .exit, hphase, h.finish hi, hcalls⟩

/-- Where `f` cannot leave an instruction, `g` cannot leave its counterpart, for the same reason. -/
theorem Relocation.refuses (h : Relocation ρ At Near f g) (ha : Aligned Near f g)
    (hi : f.program[f.ip]? = some i) {e : Fault} (hr : f.Refuses (i.control s) e) :
    ∃ e', g.Refuses ((i.control s).relabel ρ) e' ∧ .fault e' = (Failure.fault e).relabel ρ := by
  have hcalls := ha.calls
  generalize hc : i.control s = c at hr
  cases hr with
  | jump hl =>
      exact ⟨_, .jump (h.lookup_eq_none hi (InstrOf.label?_of_control (.inl hc)) hl), rfl⟩
  | call hl =>
      exact ⟨_, .call (h.lookup_eq_none hi (InstrOf.label?_of_control (.inr hc)) hl), rfl⟩
  | ret hempty =>
      rw [hempty, List.forall₂_nil_left_iff] at hcalls
      exact ⟨_, .ret hcalls, rfl⟩

/-- Labels name corresponding positions if their marks correspond. -/
theorem lookup_rel_of_marks (hf : f.LabelsMatch) (hg : g.LabelsMatch) {l : Label}
    (forth : ∀ p : Nat, f.program[p]? = some (.mark l) →
      ∃ q, g.program[q]? = some (.mark (ρ l)) ∧ Near p q)
    (back : ∀ q : Nat, g.program[q]? = some (.mark (ρ l)) →
      ∃ p : Nat, f.program[p]? = some (.mark l)) :
    Option.Rel Near (f.labels.lookup l) (g.labels.lookup (ρ l)) := by
  cases hl : f.labels.lookup l with
  | some p =>
      obtain ⟨q, hq, hnear⟩ := forth p ((hf l p).mp hl)
      rw [(hg (ρ l) q).mpr hq]
      exact .some hnear
  | none =>
      cases hl' : g.labels.lookup (ρ l) with
      | none => exact .none
      | some q =>
          obtain ⟨p, hp⟩ := back q ((hg (ρ l) q).mp hl')
          rw [(hf l p).mpr hp] at hl
          cases hl

/-- A program is relocated in another if each instruction has its counterpart there, and labels that
it uses are marked there only if they are marked in it. -/
theorem relocation_ofInstrs {is js : List Instr} (his : (marks is).Nodup) (hjs : (marks js).Nodup)
    (instr : ∀ p q, At p q → js[q]? = is[p]?.map (InstrOf.relabel ρ))
    (behind : ∀ p q i, At p q → is[p]? = some i → i.leaves = false → Near (p + 1) (q + 1))
    (place : ∀ p i, is[p]? = some i → ∃ q, At p q ∧ Near p q)
    (back : ∀ l, l ∈ occurring is → ρ l ∈ marks js → l ∈ marks is)
    (finish : .exit ∈ is → Near is.length js.length) :
    Relocation ρ At Near (ofInstrs is).finish (ofInstrs js).finish := by
  have hf := (Loaded.instrs (addAll_eq_ok_iff.mpr ⟨his, rfl⟩)).labelsMatch
  have hg := (Loaded.instrs (addAll_eq_ok_iff.mpr ⟨hjs, rfl⟩)).labelsMatch
  refine ⟨?_, ?_, ?_, ?_⟩
  · intro p q h
    rw [getElem?_ofInstrs, getElem?_ofInstrs]
    exact instr p q h
  · intro p q i h hi hl
    rw [getElem?_ofInstrs] at hi
    exact behind p q i h hi hl
  · intro p i l hi hl
    rw [getElem?_ofInstrs] at hi
    apply lookup_rel_of_marks hf hg
    · intro p hp
      rw [getElem?_ofInstrs] at hp
      obtain ⟨q, hat, hnear⟩ := place p _ hp
      refine ⟨q, ?_, hnear⟩
      rw [getElem?_ofInstrs, instr p q hat, hp]
      rfl
    · intro q hq
      rw [getElem?_ofInstrs] at hq
      have hmark := mem_marks.mpr (List.mem_of_getElem? hq)
      have hmark := mem_marks.mp (back l (mem_occurring_of_getElem? hi hl) hmark)
      obtain ⟨p, hp⟩ := List.getElem?_of_mem hmark
      exact ⟨p, (getElem?_ofInstrs is p).trans hp⟩
  · intro p hexit
    rw [getElem?_ofInstrs] at hexit
    rw [size_ofInstrs, size_ofInstrs]
    exact finish (List.mem_of_getElem? hexit)

end Relocation
end Flow

namespace Machine

/-- The invariant of running a program and its relocation side by side. -/
structure Relocated (ρ : Label → Label) (At Near : Nat → Nat → Prop) (m m' : Machine) : Prop where
  relocation : Flow.Relocation ρ At Near m.flow m'.flow
  aligned : Flow.Aligned Near m.flow m'.flow
  data_eq : m'.data = m.data

variable {ρ : Label → Label} {At Near : Nat → Nat → Prop} {m m' : Machine}

theorem relocated_new {f g : Flow} (h : Flow.Relocation ρ At Near f g) (hstart : Near 0 0)
    (device : Device) : Relocated ρ At Near (.new f.started device) (.new g.started device) :=
  ⟨h.congr rfl rfl rfl rfl, ⟨rfl, hstart, .nil⟩, rfl⟩

/-- Machines at corresponding instructions answer the same to a step, up to the names of labels,
and stay in correspondence. -/
theorem Relocated.step (h : Relocated ρ At Near m m') (hat : At m.flow.ip m'.flow.ip) :
    m'.step.1 = m.step.1.mapError (Failure.relabel ρ) ∧ Relocated ρ At Near m.step.2 m'.step.2 := by
  obtain ⟨hrel, hal, hdata⟩ := h
  have hphase := hal.phase_eq
  have hinstr := hrel.instr hat
  have hs := m.stepping
  generalize m.step = r at hs ⊢
  cases hs with
  | idle hp =>
      rw [step_idle (hphase ▸ hp)]
      exact ⟨rfl, hrel, hal, hdata⟩
  | ended hp hi =>
      rw [hi] at hinstr
      rw [step_ended (hphase.trans hp) hinstr]
      exact ⟨rfl, hrel.congr rfl rfl rfl rfl, ⟨rfl, hal.ip, hal.calls⟩, hdata⟩
  | @failed i e data hp hi he =>
      rw [hi] at hinstr
      have he' : m'.data.execute (i.relabel ρ) = (.error e, data) := by
        rw [hdata, Data.execute_relabel, he]
        rfl
      -- What goes wrong with the data names no label, so it is the same in both.
      have hname : e.relabel ρ = e :=
        Failure.relabel_of_kind (Data.kind_of_execute (congrArg Prod.fst he))
      rw [step_failed (hphase.trans hp) hinstr he']
      exact ⟨congrArg Except.error hname.symm, hrel.congr rfl rfl rfl rfl, hal.unmoved, rfl⟩
  | @refused i c f data hp hi he hc =>
      rw [hi] at hinstr
      have he' : m'.data.execute (i.relabel ρ) = (.ok (c.relabel ρ), data) := by
        rw [hdata, Data.execute_relabel, he]
        rfl
      rw [Data.execute_control he] at hc he'
      obtain ⟨e', hc', he''⟩ := hrel.refuses hal hi hc
      rw [step_refused (hphase.trans hp) hinstr he' hc']
      exact ⟨congrArg Except.error he'', hrel.congr rfl rfl rfl rfl, hal.unmoved, rfl⟩
  | @moved i c data flow hp hi he hc =>
      rw [hi] at hinstr
      have he' : m'.data.execute (i.relabel ρ) = (.ok (c.relabel ρ), data) := by
        rw [hdata, Data.execute_relabel, he]
        rfl
      rw [Data.execute_control he] at hc he'
      obtain ⟨flow', hc', hal'⟩ := hrel.moves hal hat hi hc
      rw [step_moved (hphase.trans hp) hinstr he' hc']
      exact ⟨rfl, hrel.congr hc.program_eq hc.labels_eq hc'.program_eq hc'.labels_eq, hal', rfl⟩

/-- With labels left as they are, the answers are the same. -/
theorem Relocated.step_eq (h : Relocated id At Near m m') (hat : At m.flow.ip m'.flow.ip) :
    m'.step.1 = m.step.1 := by
  rw [(h.step hat).1]
  cases m.step.1 with
  | ok b => rfl
  | error e => exact congrArg Except.error e.relabel_id

/-- Where the counterpart of each instruction is reached at once, machines stay in correspondence
step by step. -/
theorem Relocated.after (h : Relocated ρ At Near m m') (hnear : ∀ p q, Near p q → At p q)
    (k : Nat) : Relocated ρ At Near (m.after k) (m'.after k) := by
  induction k with
  | zero => exact h
  | succ k ih =>
      rw [after_succ, after_succ]
      exact (ih.step (hnear _ _ ih.aligned.ip)).2

end Machine
end WhitespaceLang
