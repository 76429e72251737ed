import WhitespaceLang.Proofs.Machine.Reachable

/-!
Calls and returns bracket. The return addresses that were there before a call stay untouched below
its own until the return that takes its own away, however deep the calls in between are nested.
-/

namespace WhitespaceLang
namespace Machine

variable {m : Machine}

/-- A call that succeeds puts the address behind it on top of the return addresses. -/
theorem step_calls_of_call (h : m.completes .call = true) :
    m.step.2.flow.calls = (m.flow.ip + 1) :: m.flow.calls := by
  have hs := m.stepping
  simp only [completes] at h
  generalize m.step = r at h hs
  cases hs with
  | idle | ended | failed | refused => cases h
  | @moved i c data flow _ hi he hc =>
      simp only [hi, beq_iff_eq] at h
      obtain ⟨l, hl⟩ := InstrOf.opcode_call_iff.mp h
      rw [Data.execute_control he, hl] at hc
      cases hc with
      | call => rfl

/-- A step leaves the addresses from `r` downwards alone, unless it is the return to `r`. -/
theorem step_calls_below {inner calls : List Nat} {r : Nat}
    (h : m.flow.calls = inner ++ r :: calls) :
    r :: calls <:+ m.step.2.flow.calls ∨
      m.completes .ret = true ∧ m.step.2.flow.ip = r ∧ m.step.2.flow.calls = calls := by
  have kept : r :: calls <:+ m.flow.calls := by
    rw [h]
    exact List.suffix_append inner _
  have hs := m.stepping
  simp only [completes]
  generalize m.step = s at hs
  cases hs with
  | idle | ended | failed | refused => exact .inl kept
  | @moved i c data flow _ hi he hc =>
      have hcontrol := Data.execute_control he
      cases hc with
      | next | jump | exit => exact .inl kept
      | call => exact .inl (kept.trans (List.suffix_cons _ _))
      | @ret p rest hret =>
          rw [hret] at h
          cases inner with
          | nil =>
              cases h
              have hop : i.opcode = .ret := InstrOf.opcode_ret_iff.mpr hcontrol.symm
              exact .inr ⟨by simp only [hi, hop, beq_self_eq_true], rfl, rfl⟩
          | cons q inner =>
              cases h
              exact .inl (List.suffix_append inner _)

/-- As long as their number is not that of the addresses below `r`, the addresses from `r`
downwards stay. -/
theorem after_calls_below {calls : List Nat} {r : Nat} (h : r :: calls <:+ m.flow.calls) (k : Nat)
    (hk : ∀ n ≤ k, (m.after n).flow.calls.length ≠ calls.length) :
    r :: calls <:+ (m.after k).flow.calls := by
  induction k with
  | zero => exact h
  | succ k ih =>
      obtain ⟨inner, hinner⟩ := ih fun n hn => hk n (Nat.le_succ_of_le hn)
      have hlast := hk (k + 1) (Nat.le_refl _)
      rw [after_succ] at hlast ⊢
      obtain hkept | ⟨-, -, hcalls⟩ := step_calls_below hinner.symm
      · exact hkept
      · exact absurd (congrArg List.length hcalls) hlast

end Machine

/-- Until the return addresses are again as many as they were before a call, they are those and on
top of them the one behind the call. The step that makes them as many again is a return, it goes
behind the call, and it leaves them as they were. -/
theorem call_bracketed {f : Flow} (hf : f.Loaded) (device : Device) :
    ∃ m₀, f.launch device = .ok m₀ ∧ ∀ k, (m₀.after k).completes .call = true →
      let i := (m₀.after k).flow.ip
      let calls := (m₀.after k).flow.calls
      ∀ j, k < j → (∀ n, k < n → n ≤ j → (m₀.after n).flow.calls.length ≠ calls.length) →
        (i + 1) :: calls <:+ (m₀.after j).flow.calls ∧
        ((m₀.after (j + 1)).flow.calls.length = calls.length →
          (m₀.after j).completes .ret = true ∧ (m₀.after (j + 1)).flow.ip = i + 1 ∧
            (m₀.after (j + 1)).flow.calls = calls) := by
  refine ⟨_, hf.launch_eq device, ?_⟩
  generalize Machine.new f.started device = m₀
  intro k hcall i calls j hj hlonger
  obtain ⟨d, rfl⟩ := Nat.exists_eq_add_of_lt hj
  have hstart : (i + 1) :: calls <:+ (m₀.after (k + 1)).flow.calls := by
    rw [Machine.after_succ, Machine.step_calls_of_call hcall]
  have hkept : (i + 1) :: calls <:+ (m₀.after (k + d + 1)).flow.calls := by
    rw [Nat.add_right_comm, Machine.after_add]
    apply Machine.after_calls_below hstart
    intro n hn
    rw [← Machine.after_add]
    exact hlonger _ (by omega) (by omega)
  refine ⟨hkept, ?_⟩
  rw [Machine.after_succ]
  intro hlength
  obtain ⟨inner, hinner⟩ := hkept
  obtain hmore | hreturn := Machine.step_calls_below hinner.symm
  · have hle := hmore.length_le
    rw [hlength] at hle
    exact absurd hle (Nat.not_succ_le_self _)
  · exact hreturn

/-- A call out of a call: the outer one comes back behind itself with no address left over. -/
theorem call_bracketed_of_nested_calls :
    let f : Flow := ⟨#[.call [true], .exit, .mark [true], .call [], .ret, .mark [], .ret],
      [([true], 2), ([], 5)], .ready, 0, [], false⟩
    f.Loaded ∧ ∃ m₀, f.launch (.ofText []) = .ok m₀ ∧ (m₀.after 0).completes .call = true ∧
      (∀ n ≤ 5, 0 < n → (m₀.after n).flow.calls.length ≠ (m₀.after 0).flow.calls.length) ∧
      (m₀.after 3).flow.calls = [4, 1] ∧ (m₀.after 5).completes .ret = true ∧
      (m₀.after (5 + 1)).flow.ip = (m₀.after 0).flow.ip + 1 ∧
      (m₀.after (5 + 1)).flow.calls = (m₀.after 0).flow.calls := by
  intro f
  have hadd : Flow.empty.addAll
      [.call [true], .exit, .mark [true], .call [], .ret, .mark [], .ret] =
      .ok { f with phase := .loading } := rfl
  have hf : f.Loaded := .instrs hadd
  obtain ⟨m₀, hlaunch, hall⟩ := call_bracketed hf (.ofText [])
  cases (hf.launch_eq (.ofText [])).symm.trans hlaunch
  have hcall : ((Machine.new f.started (.ofText [])).after 0).completes .call = true := by
    decide +kernel
  have hlonger : ∀ n ≤ 5, 0 < n →
      ((Machine.new f.started (.ofText [])).after n).flow.calls.length ≠
        ((Machine.new f.started (.ofText [])).after 0).flow.calls.length := by decide +kernel
  obtain ⟨-, hreturn⟩ := hall 0 hcall 5 (by decide) fun n hpos hle => hlonger n hle hpos
  exact ⟨hf, _, hlaunch, hcall, hlonger, by decide +kernel, hreturn (by decide +kernel)⟩

end WhitespaceLang
