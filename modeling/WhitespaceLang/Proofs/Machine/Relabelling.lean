import WhitespaceLang.Proofs.Device.Failing
import WhitespaceLang.Proofs.Machine.Stepping

/-!
Renaming the labels of a single instruction. What it computes does not depend on its label, so only
the transfer of control that it asks for is renamed, and of all faults the one that names a label.
-/

namespace WhitespaceLang

def Control.relabel (ρ : Label → Label) : Control → Control
  | .next => .next
  | .jump l => .jump (ρ l)
  | .call l => .call (ρ l)
  | .ret => .ret
  | .exit => .exit

/-- Only an undefined label is named in a fault. -/
def Failure.relabel (ρ : Label → Label) : Failure → Failure
  | .fault (.undefinedLabel l) => .fault (.undefinedLabel (ρ l))
  | e => e

theorem Failure.relabel_id (e : Failure) : e.relabel id = e := by
  cases e with
  | fault f => cases f <;> rfl
  | tooLong e => rfl

theorem Failure.kind_relabel (ρ : Label → Label) (e : Failure) : (e.relabel ρ).kind = e.kind := by
  cases e with
  | fault f => cases f <;> rfl
  | tooLong e => rfl

theorem Failure.relabel_of_ne {ρ : Label → Label} {e : Failure}
    (h : ∀ l, e ≠ .fault (.undefinedLabel l)) : e.relabel ρ = e := by
  cases e with
  | fault f =>
      cases f with
      | undefinedLabel l => exact absurd rfl (h l)
      | _ => rfl
  | tooLong e => rfl

theorem Failure.relabel_of_kind {ρ : Label → Label} {e : Failure} (h : e.kind ≠ .undefinedLabel) :
    e.relabel ρ = e := by
  apply relabel_of_ne
  intro l hl
  exact h (congrArg Failure.kind hl)

namespace InstrOf

theorem relabel_id : (relabel id : Instr → Instr) = id := by
  funext i
  cases i <;> rfl

/-- The label that an instruction sends control to is its own. -/
theorem label?_of_control {i : Instr} {s : Stack} {l : Label}
    (h : i.control s = .jump l ∨ i.control s = .call l) : i.label? = some l := by
  have htarget := target?_of_control h
  cases i with
  | call _ | jump _ | jumpZero _ | jumpNegative _ => exact htarget
  | _ => cases htarget

end InstrOf

namespace Data

variable (ρ : Label → Label) (d : Data)

theorem updateStack_relabel (a : Attempt Stack Failure Unit) :
    d.updateStack a = ((d.updateStack a).1.map (Control.relabel ρ), (d.updateStack a).2) := by
  simp only [updateStack]
  split <;> rfl

theorem storeRead_relabel (r : Except Failure Int × Device) :
    d.storeRead r = ((d.storeRead r).1.map (Control.relabel ρ), (d.storeRead r).2) := by
  simp only [storeRead]
  split
  · rfl
  · split <;> rfl

theorem printTop_relabel (print : Int → Device → Except Failure Unit × Device) :
    d.printTop print = ((d.printTop print).1.map (Control.relabel ρ), (d.printTop print).2) := by
  simp only [printTop]
  split
  · split <;> rfl
  · rfl

theorem jumpIf_relabel (test : Int → Bool) (l : Label) :
    d.jumpIf test (ρ l) =
      ((d.jumpIf test l).1.map (Control.relabel ρ), (d.jumpIf test l).2) := by
  simp only [jumpIf]
  split
  · next v rest _ => cases test v <;> rfl
  · rfl

theorem execute_relabel (i : Instr) :
    d.execute (i.relabel ρ) = ((d.execute i).1.map (Control.relabel ρ), (d.execute i).2) := by
  cases i with
  | dup => exact d.updateStack_relabel ρ _
  | copy n => exact d.updateStack_relabel ρ _
  | swap => exact d.updateStack_relabel ρ _
  | slide n => exact d.updateStack_relabel ρ _
  | jumpZero l => exact d.jumpIf_relabel ρ _ l
  | jumpNegative l => exact d.jumpIf_relabel ρ _ l
  | printChar => exact d.printTop_relabel ρ _
  | printNumber => exact d.printTop_relabel ρ _
  | readChar => exact d.storeRead_relabel ρ _
  | readNumber => exact d.storeRead_relabel ρ _
  | arith op =>
      simp only [InstrOf.relabel, execute]
      split
      · split <;> rfl
      · rfl
  | discard | store | retrieve =>
      simp only [InstrOf.relabel, execute]
      split <;> rfl
  | push n | mark l | call l | jump l | ret | exit => rfl

end Data

section Failures

/-! Only transfers of control name a label that is not there. -/

variable {e : Failure}

theorem Failure.kind_naming_ne {n : Int} {f : Fault} (h : f.kind ≠ .undefinedLabel) :
    (naming n f).kind ≠ .undefinedLabel := by
  obtain hkind | hkind := kind_naming n f
  · rw [hkind]
    exact h
  · rw [hkind]
    exact ne_of_beq_false rfl

theorem Stack.kind_of_copy {n : Int} {s : Stack} (h : s.copy n = .error e) :
    e.kind ≠ .undefinedLabel := by
  rw [copy_eq] at h
  split at h
  · cases h
    exact Failure.kind_naming_ne (ne_of_beq_false rfl)
  · split at h
    · cases h
    · cases h
      exact ne_of_beq_false rfl

theorem Stack.kind_of_slide {n : Int} {s : Stack} (h : s.slide n = .error e) :
    e.kind ≠ .undefinedLabel := by
  rw [slide_eq] at h
  split at h
  · cases h
    exact Failure.kind_naming_ne (ne_of_beq_false rfl)
  · split at h
    · split at h
      · cases h
      · cases h
        exact ne_of_beq_false rfl
    · cases h
      exact ne_of_beq_false rfl

theorem Stack.kind_of_swap {s : Stack} (h : s.swap = .error e) : e.kind ≠ .undefinedLabel := by
  rw [swap_eq] at h
  split at h
  · cases h
  · cases h
    exact ne_of_beq_false rfl

theorem Failure.OfDevice.ne_undefinedLabel (h : e.OfDevice) : e.kind ≠ .undefinedLabel :=
  h.kind_ne (by decide)

end Failures

namespace Data

variable {d : Data} {e : Failure}

theorem kind_of_updateStack {a : Attempt Stack Failure Unit}
    (ha : ∀ e, a.made d.stack = .error e → e.kind ≠ .undefinedLabel)
    (h : (d.updateStack a).1 = .error e) : e.kind ≠ .undefinedLabel :=
  ha e (updateStack_eq_error_iff.mp h)

theorem kind_of_storeRead {r : Except Failure Int × Device}
    (hr : ∀ e, r.1 = .error e → e.kind ≠ .undefinedLabel) (h : (d.storeRead r).1 = .error e) :
    e.kind ≠ .undefinedLabel := by
  simp only [storeRead] at h
  split at h
  · cases h
    exact hr _ rfl
  · split at h
    · cases h
    · cases h
      exact ne_of_beq_false rfl

theorem kind_of_printTop {print : Int → Device → Except Failure Unit × Device}
    (hr : ∀ v e, (print v d.device).1 = .error e → e.kind ≠ .undefinedLabel)
    (h : (d.printTop print).1 = .error e) : e.kind ≠ .undefinedLabel := by
  simp only [printTop] at h
  split at h
  · next v rest _ =>
      split at h
      · cases h
      · next hp =>
          cases h
          exact hr v _ (congrArg Prod.fst hp)
  · cases h
    exact ne_of_beq_false rfl

theorem kind_of_execute {i : Instr} (h : (d.execute i).1 = .error e) :
    e.kind ≠ .undefinedLabel := by
  cases i with
  | dup => exact kind_of_updateStack (fun _ => Stack.kind_of_copy) h
  | copy n => exact kind_of_updateStack (fun _ => Stack.kind_of_copy) h
  | swap => exact kind_of_updateStack (fun _ => Stack.kind_of_swap) h
  | slide n => exact kind_of_updateStack (fun _ => Stack.kind_of_slide) h
  | printChar =>
      exact kind_of_printTop (fun _ _ he => (Device.ofDevice_printChar he).ne_undefinedLabel) h
  | printNumber =>
      exact kind_of_printTop (fun _ _ he => (Device.ofDevice_printNumber he).ne_undefinedLabel) h
  | readChar =>
      exact kind_of_storeRead (fun _ he => (Device.ofDevice_readChar he).ne_undefinedLabel) h
  | readNumber =>
      exact kind_of_storeRead (fun _ he => (Device.ofDevice_readNumber he).ne_undefinedLabel) h
  | arith op =>
      simp only [execute] at h
      split at h
      · split at h
        · cases h
        · cases h
          exact ne_of_beq_false rfl
      · cases h
        exact ne_of_beq_false rfl
  | discard | store | retrieve =>
      simp only [execute] at h
      split at h
      · cases h
      · cases h
        exact ne_of_beq_false rfl
  | jumpZero l | jumpNegative l =>
      simp only [execute, jumpIf] at h
      split at h
      · cases h
      · cases h
        exact ne_of_beq_false rfl
  | push n | mark l | call l | jump l | ret | exit => cases h

end Data
end WhitespaceLang
