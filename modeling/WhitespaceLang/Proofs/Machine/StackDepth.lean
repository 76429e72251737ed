import WhitespaceLang.Proofs.Machine.Interpretation
import WhitespaceLang.Proofs.Machine.StackEffect
import Mathlib.Algebra.Ring.Int.Defs

/-!
How deep the stack is in code that goes straight on. The depth before each instruction is known
without running the code, and so is the first instruction that will find too few items.
-/

namespace WhitespaceLang
namespace InstrOf

/-- The instruction goes on to the next one whatever is on the stack. -/
def Straight : Instr → Prop
  | .call _ | .jump _ | .jumpZero _ | .jumpNegative _ | .ret | .exit => False
  | _ => True

theorem Straight.control_eq {i : Instr} (h : i.Straight) (s : Stack) : i.control s = .next := by
  cases i with
  | call _ | jump _ | jumpZero _ | jumpNegative _ | ret | exit => cases h
  | _ => rfl

end InstrOf

/-- The depth before the instruction at `n`, if all the instructions before it succeed. -/
def depthAt (is : List Instr) (n : Nat) : Int := ((is.take n).map InstrOf.effect).sum

/-- The instruction at `n` will not have its operands. -/
def ShortAt (is : List Instr) (n : Nat) : Prop := ∃ i, is[n]? = some i ∧ i.Lacks (depthAt is n)

instance (is : List Instr) (n : Nat) : Decidable (ShortAt is n) :=
  match h : is[n]? with
  | some i => decidable_of_iff (i.Lacks (depthAt is n)) (by simp [ShortAt, h])
  | none => isFalse (by simp [ShortAt, h])

/-- The instruction at `n` is the first that will not have its operands. -/
structure FirstShort (is : List Instr) (n : Nat) : Prop where
  short : ShortAt is n
  least : ∀ j < n, ¬ ShortAt is j

instance (is : List Instr) (n : Nat) : Decidable (FirstShort is n) :=
  decidable_of_iff (ShortAt is n ∧ ∀ j < n, ¬ ShortAt is j)
    ⟨fun h => ⟨h.1, h.2⟩, fun h => ⟨h.short, h.least⟩⟩

theorem FirstShort.unique {is : List Instr} {j k : Nat} (hj : FirstShort is j)
    (hk : FirstShort is k) : j = k := by
  refine Nat.le_antisymm (Nat.le_of_not_lt ?_) (Nat.le_of_not_lt ?_)
  · intro hlt
    exact hj.least k hlt hk.short
  · intro hlt
    exact hk.least j hlt hj.short

theorem depthAt_succ {is : List Instr} {n : Nat} {i : Instr} (hi : is[n]? = some i) :
    depthAt is (n + 1) = depthAt is n + i.effect := by
  rw [depthAt, List.take_add_one, hi, List.map_append, List.sum_append]
  simp [depthAt]

/-- The error that a run raises, with the instruction where it does. -/
def Report.error? (r : Report) : Option (Nat × Failure) :=
  match r.ending with
  | .finished => none
  | .fault ip f => some (ip, .fault f)
  | .tooLong e => some (r.machine.flow.ip, .tooLong e)

namespace Machine

/-- The machine runs straight code and is before the instruction at `n`, at the depth that is known
beforehand. No instruction up to there was short of operands. -/
structure Predicted (m : Machine) (n : Nat) : Prop where
  straight : ∀ i ∈ m.flow.program, i.Straight
  phase_eq : m.flow.phase = .running
  ip_eq : m.flow.ip = n
  depth_eq : (m.data.stack.length : Int) = depthAt m.flow.program.toList n
  not_short : ∀ j < n, ¬ ShortAt m.flow.program.toList j

section Predicted

variable {m : Machine} {n : Nat}

theorem Predicted.getElem?_eq {i : Instr} (h : m.Predicted n)
    (hi : m.flow.program[m.flow.ip]? = some i) : m.flow.program.toList[n]? = some i := by
  rw [Array.getElem?_toList, ← h.ip_eq]
  exact hi

/-- Straight code is left for the next instruction. -/
theorem Predicted.control_eq {i : Instr} (h : m.Predicted n)
    (hi : m.flow.program[m.flow.ip]? = some i) (s : Stack) : i.control s = .next :=
  (h.straight i (Array.mem_of_getElem? hi)).control_eq s

theorem Predicted.step (h : m.Predicted n) (hok : m.step.1 = .ok true) :
    m.step.2.Predicted (n + 1) := by
  have hstep := m.stepping
  generalize m.step = r at hok hstep
  cases hstep with
  | idle | ended | failed | refused => cases hok
  | moved hp hi he hc =>
      have hfits := Data.fits_of_ok he
      rw [Data.execute_control he, h.control_eq hi] at hc
      have hn := h.getElem?_eq hi
      cases hc
      refine ⟨h.straight, hp, congrArg (· + 1) h.ip_eq, ?_, ?_⟩
      · rw [hfits.length_eq, h.depth_eq, depthAt_succ hn]
      · intro j hj hshort
        -- The instruction that has just succeeded was not short either.
        obtain hlt | rfl := Nat.lt_succ_iff_lt_or_eq.mp hj
        · exact h.not_short j hlt hshort
        · obtain ⟨i, hi, hlacks⟩ := hshort
          cases hn.symm.trans hi
          rw [← h.depth_eq] at hlacks
          exact hfits.not_lacks hlacks

/-- A step that finds too few items does so where that is known beforehand. -/
theorem Predicted.shortAt {e : Failure} (h : m.Predicted n) (herr : m.step.1 = .error e)
    (hk : e.kind = .underflow) : ShortAt m.flow.program.toList n := by
  have hstep := m.stepping
  generalize m.step = r at herr hstep
  cases hstep with
  | idle | ended | moved => cases herr
  | failed _ hi he =>
      cases herr
      have hlacks := Data.lacks_of_underflow he hk
      rw [h.depth_eq] at hlacks
      exact ⟨_, h.getElem?_eq hi, hlacks⟩
  | refused _ hi he hc =>
      rw [Data.execute_control he, h.control_eq hi] at hc
      cases hc

/-- Where a program comes to its end, no instruction is left that could be short. -/
theorem Predicted.not_shortAt (h : m.Predicted n) (hend : m.step.1 = .ok false) (k : Nat) :
    ¬ ShortAt m.flow.program.toList k := by
  have hstep := m.stepping
  generalize m.step = r at hend hstep
  cases hstep with
  | idle hidle => exact absurd h.phase_eq hidle
  | failed | refused | moved => cases hend
  | ended _ hi =>
      intro hshort
      obtain ⟨i, hk, -⟩ := id hshort
      obtain ⟨hlt, -⟩ := List.getElem?_eq_some_iff.mp hk
      rw [h.ip_eq, ← Array.getElem?_toList] at hi
      have hle := List.getElem?_eq_none_iff.mp hi
      exact h.not_short k (Nat.lt_of_lt_of_le hlt hle) hshort

theorem Predicted.after (h : m.Predicted 0) (hc : m.Continues n) : (m.after n).Predicted n := by
  induction n with
  | zero => exact h
  | succ n ih =>
      obtain ⟨hc, hlast⟩ := continues_succ_iff.mp hc
      rw [after_succ]
      exact (ih hc).step hlast

/-- Every step goes on to a later instruction. -/
theorem Predicted.le_size (h : m.Predicted 0) (hc : m.Continues n) :
    n ≤ m.flow.program.size := by
  cases n with
  | zero => exact Nat.zero_le _
  | succ n =>
      obtain ⟨hc, hlast⟩ := continues_succ_iff.mp hc
      have hlt := ip_lt_of_true hlast
      rw [(h.after hc).ip_eq, m.program_eq_after] at hlt
      exact hlt

theorem Predicted.exists_stopsAfter (h : m.Predicted 0) :
    ∃ k ≤ m.flow.program.size, ∃ stop, m.StopsAfter k stop := by
  have hends : ¬ m.Continues (m.flow.program.size + 1) := by
    intro hc
    exact Nat.not_succ_le_self _ (h.le_size hc)
  obtain ⟨k, hk, hstops⟩ := Machine.exists_stopsAfter hends
  exact ⟨k, Nat.le_of_lt_succ hk, hstops⟩

end Predicted

section Stops

variable {m : Machine} {n p j : Nat} {e : Failure} {stop : Stop}

theorem error?_of_failed (m : Machine) (e : Failure) :
    (m.close (.failed e)).error? = some (m.flow.ip, e) := by
  cases e <;> rfl

/-- At the end of a program only the output can fail, when it is flushed. -/
theorem kind_of_ended (h : (m.close .ended).error? = some (p, e)) : e.kind = .device := by
  cases hflush : m.data.device.flush.1 with
  | ok _ =>
      rw [Report.error?, (close_ended_of_ok hflush).2] at h
      cases h
  | error f =>
      rw [Report.error?, (close_ended_of_error hflush).2] at h
      cases h
      exact Device.kind_of_flush hflush

/-- Code with an instruction that is short does not come to its end. -/
theorem Predicted.exists_failed (h : m.Predicted n) (hs : Stop.ofAnswer m.step.1 = some stop)
    (hj : ShortAt m.flow.program.toList j) : ∃ e, stop = .failed e := by
  cases stop with
  | failed e => exact ⟨e, rfl⟩
  | ended => exact absurd hj (h.not_shortAt (answer_of_ended hs) j)

/-- An error of whatever kind does not come behind the first instruction that is short. -/
theorem Predicted.le_of_firstShort (h : m.Predicted n)
    (hs : Stop.ofAnswer m.step.1 = some stop)
    (he : (m.step.2.close stop).error? = some (p, e))
    (hj : FirstShort m.flow.program.toList j) : p ≤ j := by
  obtain ⟨e', rfl⟩ := h.exists_failed hs hj.short
  rw [error?_of_failed, ip_of_stops hs, h.ip_eq] at he
  cases he
  by_contra hlt
  exact h.not_short j (Nat.lt_of_not_le hlt) hj.short

theorem Predicted.firstShort_of_underflow (h : m.Predicted n)
    (hs : Stop.ofAnswer m.step.1 = some stop)
    (he : (m.step.2.close stop).error? = some (p, e)) (hk : e.kind = .underflow) :
    FirstShort m.flow.program.toList p := by
  cases stop with
  | ended =>
      rw [kind_of_ended he] at hk
      cases hk
  | failed e' =>
      rw [error?_of_failed, ip_of_stops hs, h.ip_eq] at he
      cases he
      exact ⟨h.shortAt (answer_of_failed hs) hk, h.not_short⟩

end Stops
end Machine

/-- Straight code is run through to its end or to the first error, and the depth before every
instruction that is come to is the one known beforehand. Unless there is an error of another kind,
the stack has too few items exactly at the first instruction that was known to be short of them, and
an error of another kind never comes behind that instruction. -/
theorem predicted_underflow {f : Flow} (hf : f.Loaded) (hs : ∀ i ∈ f.program, i.Straight)
    (device : Device) :
    ∃ m r, f.launch device = .ok m ∧ (∀ n, f.program.size < n → f.run n device = .ok (some r)) ∧
      (∀ n ≤ r.machine.flow.ip,
        (m.after n).flow.ip = n ∧
          ((m.after n).data.stack.length : Int) = depthAt f.program.toList n) ∧
      ((∀ p e, r.error? = some (p, e) → e.kind = .underflow) →
        ∀ k, FirstShort f.program.toList k ↔ ∃ e, r.error? = some (k, e) ∧ e.kind = .underflow) ∧
      ∀ p e, r.error? = some (p, e) → e.kind ≠ .underflow →
        ∀ k, FirstShort f.program.toList k → p ≤ k := by
  have hstart : (Machine.new f.started device).Predicted 0 := ⟨hs, rfl, rfl, rfl, nofun⟩
  obtain ⟨k, hk, stop, hstops⟩ := hstart.exists_stopsAfter
  have hat := hstart.after hstops.continues
  have hprogram (n : Nat) : ((Machine.new f.started device).after n).flow.program = f.program :=
    Machine.program_eq_after _ n
  refine ⟨_, ((Machine.new f.started device).after k).step.2.close stop, hf.launch_eq device,
    ?_, ?_, ?_, ?_⟩
  · intro n hn
    refine hf.run_eq_some_iff.mpr ⟨k, Nat.lt_of_le_of_lt hk hn, stop, hstops, ?_⟩
    rw [Machine.after_succ]
  · intro n hn
    rw [Machine.close_ip, Machine.ip_of_stops hstops.stops, hat.ip_eq] at hn
    have hn := hstart.after fun j hj => hstops.continues j (Nat.lt_of_lt_of_le hj hn)
    rw [← hprogram n]
    exact ⟨hn.ip_eq, hn.depth_eq⟩
  · intro hkinds j
    rw [← hprogram k]
    constructor
    · intro hj
      obtain ⟨e, rfl⟩ := hat.exists_failed hstops.stops hj.short
      have he := Machine.error?_of_failed ((Machine.new f.started device).after k).step.2 e
      have hkind : e.kind = .underflow := hkinds _ e he
      have hk := hat.firstShort_of_underflow hstops.stops he hkind
      rw [hk.unique hj] at he
      exact ⟨e, he, hkind⟩
    · intro hj
      obtain ⟨e, he, hkind⟩ := hj
      exact hat.firstShort_of_underflow hstops.stops he hkind
  · intro p e he _ j hj
    rw [← hprogram k] at hj
    exact hat.le_of_firstShort hstops.stops he hj

/-- A slide that is short of one item, and a division by zero before a discard that would be. -/
theorem predicted_underflow_of_slide_and_division :
    let f : Flow := ⟨#[.push 1, .dup, .slide 2, .discard], [], .ready, 0, [], false⟩
    let g : Flow := ⟨#[.push 1, .push 0, .arith .div, .discard, .discard], [], .ready, 0, [], false⟩
    f.Loaded ∧ (∀ i ∈ f.program, i.Straight) ∧ g.Loaded ∧ (∀ i ∈ g.program, i.Straight) ∧
      (∃ r e, f.run 5 (.ofText []) = .ok (some r) ∧ r.error? = some (2, e) ∧
        e.kind = .underflow) ∧
      ∃ r, g.run 6 (.ofText []) = .ok (some r) ∧
        r.error? = some (2, .fault (.divisionByZero .div)) ∧ FirstShort g.program.toList 4 ∧
        ∃ m, g.launch (.ofText []) = .ok m ∧ (m.after 2).data.stack.length = 2 := by
  intro f g
  have hadd : Flow.empty.addAll [.push 1, .dup, .slide 2, .discard] =
      .ok { f with phase := .loading } := rfl
  have hadd' : Flow.empty.addAll [.push 1, .push 0, .arith .div, .discard, .discard] =
      .ok { g with phase := .loading } := rfl
  have hf : f.Loaded := .instrs hadd
  have hg : g.Loaded := .instrs hadd'
  have hs : ∀ i ∈ f.program, i.Straight := by simp [f, InstrOf.Straight]
  have hs' : ∀ i ∈ g.program, i.Straight := by simp [g, InstrOf.Straight]
  obtain ⟨-, r, -, hrun, -, hiff, -⟩ := predicted_underflow hf hs (.ofText [])
  obtain ⟨m, r', hm, hrun', hdepth, -⟩ := predicted_underflow hg hs' (.ofText [])
  have hr : f.run 5 (.ofText []) = .ok (some r) := hrun 5 (by decide)
  have hr' : g.run 6 (.ofText []) = .ok (some r') := hrun' 6 (by decide)
  have hkinds : ∀ p e, r.error? = some (p, e) → e.kind = .underflow := by
    intro p e he
    cases hr
    cases he
    rfl
  refine ⟨hf, hs, hg, hs', ?_, r', hr', ?_, by decide, m, hm, ?_⟩
  · obtain ⟨e, he, hkind⟩ := (hiff hkinds 2).mp (by decide)
    exact ⟨r, e, hr, he, hkind⟩
  · cases hr'
    rfl
  · have hle : 2 ≤ r'.machine.flow.ip := by
      cases hr'
      exact Nat.le_refl 2
    exact Int.ofNat_inj.mp (hdepth 2 hle).2

end WhitespaceLang
