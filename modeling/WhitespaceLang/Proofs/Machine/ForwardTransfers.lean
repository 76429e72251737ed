import WhitespaceLang.Proofs.Machine.Interpretation
import Mathlib.Algebra.Ring.Nat

/-!
Programs in which every call and every jump goes to a later instruction. They stop, although a
return goes back and a subroutine may be entered again from each of its calls. What gets smaller
with every step is how much may still be run from the pointer and behind all return addresses.
-/

namespace WhitespaceLang
namespace Flow

/-- Calls and jumps to labels that are defined go to later instructions. -/
def Forward (f : Flow) : Prop :=
  ∀ p i l q, f.program[p]? = some i → i.target? = some l → f.labels.lookup l = some q → p < q

/-- The most steps there can be from a position of a program of this size to its end, or to the
return from the subroutine that the position is in. Behind a call there are a subroutine and then
the rest to be run, and neither begins before the next instruction. -/
def weight (size p : Nat) : Nat := 2 ^ (size + 1 - p) - 1

/-- The weight of all that may still be run. -/
def potential (f : Flow) : Nat :=
  weight f.program.size f.ip + (f.calls.map (weight f.program.size)).sum

section Weight

variable {size p q : Nat}

theorem weight_pos (h : p ≤ size) : 0 < weight size p := by
  have hexponent : size + 1 - p ≠ 0 := by omega
  exact Nat.sub_pos_of_lt (Nat.one_lt_two_pow hexponent)

theorem weight_anti (h : p ≤ q) : weight size q ≤ weight size p := by
  have hexponent : size + 1 - q ≤ size + 1 - p := Nat.sub_le_sub_left h _
  exact Nat.sub_le_sub_right (Nat.pow_le_pow_right Nat.two_pos hexponent) 1

/-- An instruction weighs twice what begins behind it, and its own step. -/
theorem weight_eq (h : p < size) : weight size p = 2 * weight size (p + 1) + 1 := by
  have hexponent : size + 1 - p = size + 1 - (p + 1) + 1 := by omega
  have hpos : 0 < 2 ^ (size + 1 - (p + 1)) := Nat.two_pow_pos _
  rw [weight, weight, hexponent, Nat.pow_succ]
  omega

end Weight

section Forward

variable {f g : Flow}

theorem Forward.congr (h : f.Forward) (hp : g.program = f.program) (hl : g.labels = f.labels) :
    g.Forward := by
  intro p i l q hi
  rw [hp] at hi
  rw [hl]
  exact h p i l q hi

/-- Leaving an instruction makes the potential smaller. A call adds what is behind it to what is
still to be run, and goes on to something that weighs no more than that. -/
theorem Moves.potential_lt {i : Instr} {s : Stack} (hf : f.Forward)
    (hi : f.program[f.ip]? = some i) (h : f.Moves (i.control s) g) : g.potential < f.potential := by
  obtain ⟨hip, -⟩ := Array.getElem?_eq_some_iff.mp hi
  have hhere := weight_eq hip
  have target {l : Label} {p : Nat} (hc : i.control s = .jump l ∨ i.control s = .call l)
      (hp : f.labels.lookup l = some p) :
      weight f.program.size p ≤ weight f.program.size (f.ip + 1) :=
    weight_anti (hf _ _ _ _ hi (InstrOf.target?_of_control hc) hp)
  generalize i.control s = c at h target
  cases h with
  | next =>
      simp only [potential]
      omega
  | jump hp =>
      have hle := target (.inl rfl) hp
      simp only [potential]
      omega
  | call hp =>
      have hle := target (.inr rfl) hp
      simp only [potential, List.map_cons, List.sum_cons]
      omega
  | ret hc =>
      simp only [potential, hc, List.map_cons, List.sum_cons]
      omega
  | exit =>
      have hle : weight f.program.size f.program.size ≤ weight f.program.size (f.ip + 1) :=
        weight_anti hip
      simp only [potential]
      omega

end Forward
end Flow

namespace Machine

variable {m : Machine} {k : Nat}

theorem potential_step_lt (hf : m.flow.Forward) (h : m.step.1 = .ok true) :
    m.step.2.flow.potential < m.flow.potential := by
  have hs := m.stepping
  generalize m.step = r at h hs
  cases hs with
  | idle | ended | failed | refused => cases h
  | moved _ hi he hc =>
      rw [Data.execute_control he] at hc
      exact hc.potential_lt hf hi

theorem Continues.potential_after (h : m.Continues k) (hf : m.flow.Forward) :
    (m.after k).flow.potential + k ≤ m.flow.potential := by
  induction k with
  | zero => exact Nat.le_refl _
  | succ k ih =>
      obtain ⟨hfirst, hlast⟩ := continues_succ_iff.mp h
      have hle := ih hfirst
      have hlt := potential_step_lt
        (hf.congr (m.program_eq_after k) (m.labels_eq_after k)) hlast
      rw [after_succ]
      omega

/-- As long as the pointer is within the program or at its end, something is left to be run. -/
theorem Continues.lt_potential (h : m.Continues k) (hf : m.flow.Forward)
    (hip : (m.after k).flow.ip ≤ (m.after k).flow.program.size) : k < m.flow.potential := by
  have hle := h.potential_after hf
  have hpos := Flow.weight_pos hip
  rw [Flow.potential] at hle
  omega

end Machine

/-- A loaded program of `N` instructions whose transfers all go forward stops after at most
`2 ^ (N + 1) - 1` steps, counting the one that fails or finds the end. -/
theorem forward_transfers {f : Flow} (hf : f.Loaded) (h : f.Forward) (device : Device) :
    ∃ k r, k ≤ 2 ^ (f.program.size + 1) - 1 ∧
      ∀ n, f.run n device = .ok (if n < k then none else some r) := by
  have hends : ¬ (Machine.new f.started device).Continues (2 ^ (f.program.size + 1) - 1) := by
    intro hc
    have reached := Machine.reached_after (m := .new f.started device) f.reached_started
      hf.labelsMatch (2 ^ (f.program.size + 1) - 1)
    exact Nat.lt_irrefl _ (hc.lt_potential h reached.ip_le)
  obtain ⟨k, hk, stop, hstops⟩ := Machine.exists_stopsAfter hends
  refine ⟨k + 1, ((Machine.new f.started device).after (k + 1)).close stop, hk, ?_⟩
  intro n
  rw [hf.run_of_stopsAfter hstops]
  simp only [Nat.lt_succ_iff]

/-- A subroutine within a subroutine, both entered once more by falling into them. The returns go
back, and the last one finds no address. -/
theorem forward_transfers_of_nested_calls :
    let f : Flow := ⟨#[.call [false], .mark [false], .call [true], .mark [true], .ret],
      [([false], 1), ([true], 3)], .ready, 0, [], false⟩
    f.Loaded ∧ f.Forward ∧
      ∃ k r, k ≤ 63 ∧ (∀ n, f.run n (.ofText []) = .ok (if n < k then none else some r)) ∧
        r.ending = .fault 4 .returnOutside := by
  intro f
  have hadd : Flow.empty.addAll [.call [false], .mark [false], .call [true], .mark [true], .ret] =
      .ok { f with phase := .loading } := rfl
  have hf : f.Loaded := .instrs hadd
  have h : f.Forward := by
    intro p i l q hi hl hq
    match p with
    | 0 | 2 =>
        cases hi
        cases hl
        cases hq
        decide
    | 1 | 3 | 4 =>
        cases hi
        cases hl
    | p + 5 => cases hi
  obtain ⟨k, r, hk, hrun⟩ := forward_transfers hf h (.ofText [])
  have hk : k ≤ 63 := hk
  have hr : f.run 63 (.ofText []) = .ok (some r) := by rw [hrun, if_neg (Nat.not_lt.mpr hk)]
  refine ⟨hf, h, k, r, hk, hrun, ?_⟩
  cases hr
  rfl

end WhitespaceLang
