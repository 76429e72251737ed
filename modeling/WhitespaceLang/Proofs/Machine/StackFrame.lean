import WhitespaceLang.ErrorKind
import WhitespaceLang.Proofs.Machine.Stepping

/-!
More items under the operand stack. No instruction sees what lies below the items that it takes,
copies or passes over, nor how deep the stack is, unless it finds too few items. So a machine goes
through the same steps with any items put underneath, and they are still there afterwards.
-/

namespace WhitespaceLang

/-- The answer is not that the stack has too few items. -/
def NoUnderflow {α : Type} (r : Except Failure α) : Prop :=
  ∀ e, r = .error e → e.kind ≠ .underflow

theorem noUnderflow_ok {α : Type} (a : α) : NoUnderflow (.ok a : Except Failure α) := nofun

theorem noUnderflow_error {α : Type} {e : Failure} (h : e.kind ≠ .underflow) :
    NoUnderflow (.error e : Except Failure α) := by
  intro e' he'
  cases he'
  exact h

namespace Stack

variable {n : Int} {s : Stack}

theorem copy_append (base : Stack) (h : NoUnderflow (copy n s)) :
    copy n (s ++ base) = (copy n s).map (· ++ base) := by
  rw [copy_eq] at h
  rw [copy_eq, copy_eq]
  by_cases hn : n < 0
  · rw [if_pos hn, if_pos hn]
    rfl
  · rw [if_neg hn] at h
    rw [if_neg hn, if_neg hn]
    cases hv : s[n.toNat]? with
    | none =>
        rw [hv] at h
        exact absurd rfl (h _ rfl)
    | some v =>
        have hlt := (List.getElem?_eq_some_iff.mp hv).1
        rw [List.getElem?_append_left hlt, hv]
        rfl

theorem slide_append (base : Stack) (h : NoUnderflow (slide n s)) :
    slide n (s ++ base) = (slide n s).map (· ++ base) := by
  rw [slide_eq] at h
  rw [slide_eq, slide_eq]
  by_cases hn : n < 0
  · rw [if_pos hn, if_pos hn]
    rfl
  · rw [if_neg hn] at h
    rw [if_neg hn, if_neg hn]
    cases s with
    | nil => exact absurd rfl (h _ rfl)
    | cons top rest =>
        by_cases hle : n.toNat ≤ List.length rest
        · have hle' : n.toNat ≤ (rest ++ base).length := by
            rw [List.length_append]
            exact Nat.le_add_right_of_le hle
          simp only [List.cons_append, if_pos hle, if_pos hle', List.drop_append_of_le_length hle]
          rfl
        · simp only [if_neg hle] at h
          exact absurd rfl (h _ rfl)

theorem swap_append (base : Stack) (h : NoUnderflow (swap s)) :
    swap (s ++ base) = (swap s).map (· ++ base) := by
  match s with
  | _ :: _ :: _ => rfl
  | [_] | [] => exact absurd rfl (h _ rfl)

end Stack

namespace Data

/-- The data with more items at the bottom of the stack. -/
def onto (base : Stack) (d : Data) : Data := { d with stack := d.stack ++ base }

variable {d : Data} (base : Stack)

theorem updateStack_onto {a : Attempt Stack Failure Unit} (ha : a.Atomic)
    (h : a.made (d.stack ++ base) = (a.made d.stack).map (· ++ base)) :
    (d.onto base).updateStack a = ((d.updateStack a).1, (d.updateStack a).2.onto base) := by
  rw [updateStack_of_atomic ha, updateStack_of_atomic ha]
  simp only [onto, h]
  cases a.made d.stack <;> rfl

theorem storeRead_onto {r : Except Failure Int × Device}
    (h : NoUnderflow (d.storeRead r).1) :
    (d.onto base).storeRead r = ((d.storeRead r).1, (d.storeRead r).2.onto base) := by
  obtain ⟨stack, heap, device⟩ := d
  match r with
  | (.error e, device) => rfl
  | (.ok v, device) =>
      cases stack with
      | nil => exact absurd rfl (h _ rfl)
      | cons address rest => rfl

theorem printTop_onto {print : Int → Device → Except Failure Unit × Device}
    (h : NoUnderflow (d.printTop print).1) :
    (d.onto base).printTop print = ((d.printTop print).1, (d.printTop print).2.onto base) := by
  obtain ⟨stack, heap, device⟩ := d
  cases stack with
  | nil => exact absurd rfl (h _ rfl)
  | cons v rest =>
      simp only [printTop, onto, List.cons_append]
      cases print v device with
      | mk r device' => cases r <;> rfl

theorem jumpIf_onto {test : Int → Bool} {l : Label}
    (h : NoUnderflow (d.jumpIf test l).1) :
    (d.onto base).jumpIf test l = ((d.jumpIf test l).1, (d.jumpIf test l).2.onto base) := by
  obtain ⟨stack, heap, device⟩ := d
  cases stack with
  | nil => exact absurd rfl (h _ rfl)
  | cons v rest => rfl

theorem noUnderflow_of_updateStack {a : Attempt Stack Failure Unit}
    (h : NoUnderflow (d.updateStack a).1) : NoUnderflow (a.made d.stack) :=
  fun e he => h e (updateStack_eq_error_iff.mpr he)

/-- An instruction that finds enough items does the same with more of them underneath. -/
theorem execute_onto {i : Instr} (h : NoUnderflow (d.execute i).1) :
    (d.onto base).execute i = ((d.execute i).1, (d.execute i).2.onto base) := by
  cases i with
  | dup =>
      exact updateStack_onto base OperandStack.atomic_dup
        (Stack.copy_append base (noUnderflow_of_updateStack h))
  | copy n =>
      exact updateStack_onto base (OperandStack.atomic_copy n)
        (Stack.copy_append base (noUnderflow_of_updateStack h))
  | slide n =>
      exact updateStack_onto base (OperandStack.atomic_slide n)
        (Stack.slide_append base (noUnderflow_of_updateStack h))
  | swap =>
      exact updateStack_onto base OperandStack.atomic_swap
        (Stack.swap_append base (noUnderflow_of_updateStack h))
  | jumpZero l => exact jumpIf_onto base h
  | jumpNegative l => exact jumpIf_onto base h
  | printChar => exact printTop_onto base h
  | printNumber => exact printTop_onto base h
  | readChar => exact storeRead_onto base h
  | readNumber => exact storeRead_onto base h
  | arith op =>
      obtain ⟨stack, heap, device⟩ := d
      cases stack with
      | nil => exact absurd rfl (h _ rfl)
      | cons right rest =>
          cases rest with
          | nil => exact absurd rfl (h _ rfl)
          | cons left rest =>
              simp only [execute, onto, List.cons_append]
              cases op.apply left right <;> rfl
  | store =>
      obtain ⟨stack, heap, device⟩ := d
      cases stack with
      | nil => exact absurd rfl (h _ rfl)
      | cons value rest =>
          cases rest with
          | nil => exact absurd rfl (h _ rfl)
          | cons address rest => rfl
  | discard | retrieve =>
      obtain ⟨stack, heap, device⟩ := d
      cases stack with
      | nil => exact absurd rfl (h _ rfl)
      | cons v rest => rfl
  | push n | mark l | call l | jump l | ret | exit => rfl

end Data

namespace Machine

/-- The machine with more items at the bottom of its stack. -/
def onto (base : Stack) (m : Machine) : Machine := m.mapData (Data.onto base)

variable {m : Machine} (base : Stack)

theorem step_onto (h : NoUnderflow m.step.1) :
    (m.onto base).step = (m.step.1, m.step.2.onto base) := by
  apply step_mapData
  intro hp i r d hi he
  -- An instruction that fails makes the step fail with the same error.
  have hr : NoUnderflow r := by
    intro e hr
    subst hr
    exact h e (congrArg Prod.fst (step_failed hp hi he))
  rw [Data.execute_onto base (by rw [he]; exact hr), he]

theorem after_onto {k : Nat} (h : ∀ j < k, NoUnderflow (m.after j).step.1) :
    (m.onto base).after k = (m.after k).onto base := by
  induction k with
  | zero => rfl
  | succ k ih =>
      have hlast := h k (Nat.lt_succ_self k)
      rw [after_succ, after_succ, ih fun j hj => h j (Nat.lt_succ_of_lt hj), step_onto base hlast]

end Machine

/-- As long as no step finds too few items on the stack, the same steps with more items underneath
answer the same and leave the same, with those items still underneath. Steps that fail for another
reason are no exception, whether they come last or are tried again. -/
theorem stack_frame (m : Machine) (base : Stack) {k : Nat}
    (h : ∀ j < k, NoUnderflow (m.after j).step.1) :
    (∀ j < k, ((m.onto base).after j).step.1 = (m.after j).step.1) ∧
      (m.onto base).after k = (m.after k).onto base ∧
      ∀ e, (m.after k).step.1 = .error e → e.kind ≠ .underflow →
        ((m.onto base).after k).step = (.error e, (m.after (k + 1)).onto base) := by
  refine ⟨?_, m.after_onto base h, ?_⟩
  · intro j hj
    rw [m.after_onto base fun i hi => h i (Nat.lt_trans hi hj), Machine.step_onto base (h j hj)]
  · intro e he hkind
    have hlast : NoUnderflow (m.after k).step.1 := by
      rw [he]
      exact noUnderflow_error hkind
    rw [m.after_onto base h, Machine.step_onto base hlast, he, Machine.after_succ]

/-- A division by zero behind a copy and a slide, with two items underneath that are not touched. -/
theorem stack_frame_of_division :
    let f : Flow := ⟨#[.copy 1, .slide 1, .push 0, .arith .mod], [], .running, 0, [], false⟩
    let m : Machine := ⟨f, ⟨[5, 6], .empty, .ofText []⟩⟩
    (∀ j < 3, NoUnderflow (m.after j).step.1) ∧
      ((m.onto [8, 9]).after 3).data.stack = [0, 6, 6, 8, 9] ∧
      ((m.onto [8, 9]).after 3).step.1 = .error (.fault (.divisionByZero .mod)) ∧
      ((m.onto [8, 9]).after 3).step.2.data.stack = [6, 8, 9] := by
  intro f m
  have h₁ : m.after 1 = ⟨{ f with ip := 1 }, { m.data with stack := [6, 5, 6] }⟩ := rfl
  have h₂ : m.after 2 = ⟨{ f with ip := 2 }, { m.data with stack := [6, 6] }⟩ := by
    rw [Machine.after_succ, h₁]
    rfl
  have h₃ : m.after 3 = ⟨{ f with ip := 3 }, { m.data with stack := [0, 6, 6] }⟩ := by
    rw [Machine.after_succ, h₂]
    rfl
  have hlast : (m.after 3).step = (.error (.fault (.divisionByZero .mod)),
      ⟨{ f with ip := 3 }, { m.data with stack := [6] }⟩) := by
    rw [h₃]
    rfl
  have hsteps : ∀ j < 3, NoUnderflow (m.after j).step.1 := by
    intro j hj
    match j with
    | 0 => exact noUnderflow_ok true
    | 1 => rw [h₁]; exact noUnderflow_ok true
    | 2 => rw [h₂]; exact noUnderflow_ok true
  obtain ⟨-, hafter, hnext⟩ := stack_frame m [8, 9] hsteps
  have hfail := hnext _ (congrArg Prod.fst hlast) nofun
  rw [m.after_succ 3, hlast] at hfail
  rw [hfail, hafter, h₃]
  exact ⟨hsteps, rfl, rfl, rfl⟩

end WhitespaceLang
