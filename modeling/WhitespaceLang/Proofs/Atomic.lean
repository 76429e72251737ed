import WhitespaceLang.Flow
import WhitespaceLang.Stack

/-!
Operations that look before they write. What only reads may fail at any point, and what only writes
never fails, so an operation that does the one and then the other leaves the state as it was
whenever it fails. All operations on the stack and on the flow are of this form.
-/

namespace WhitespaceLang
namespace Attempt

variable {σ ε α β : Type}

/-- The state is the same behind the operation, however it goes. -/
def ReadsOnly (a : Attempt σ ε α) : Prop := ∀ s, (a.outcome s).2 = s

def Unfailing (a : Attempt σ ε α) : Prop := ∀ s, ∃ x s', a.outcome s = (.ok x, s')

/-- The state is the same behind the operation if it fails. -/
def Atomic (a : Attempt σ ε α) : Prop := ∀ s e s', a.outcome s = (.error e, s') → s' = s

section Rules

variable {a : Attempt σ ε α} {k : α → Attempt σ ε β}

theorem readsOnly_pure (x : α) : (pure x : Attempt σ ε α).ReadsOnly := fun _ => rfl

theorem readsOnly_throw (e : ε) : (throw e : Attempt σ ε α).ReadsOnly := fun _ => rfl

theorem readsOnly_get : (get : Attempt σ ε σ).ReadsOnly := fun _ => rfl

theorem readsOnly_require (p : σ → Prop) [DecidablePred p] (e : ε) : (require p e).ReadsOnly := by
  intro s
  rw [outcome_require]

theorem unfailing_modify (f : σ → σ) : (modify f : Attempt σ ε Unit).Unfailing :=
  fun s => ⟨(), f s, rfl⟩

theorem ReadsOnly.bind (ha : a.ReadsOnly) (hk : ∀ x, (k x).ReadsOnly) : (a >>= k).ReadsOnly := by
  intro s
  have hs := ha s
  rw [outcome_bind]
  split
  · next x s' h =>
      rw [h] at hs
      exact (hk x s').trans hs
  · next h =>
      rw [h] at hs
      exact hs

theorem Unfailing.bind (ha : a.Unfailing) (hk : ∀ x, (k x).Unfailing) : (a >>= k).Unfailing := by
  intro s
  obtain ⟨x, s', h⟩ := ha s
  obtain ⟨y, s'', h'⟩ := hk x s'
  exact ⟨y, s'', by rw [outcome_bind, h]; exact h'⟩

theorem ReadsOnly.atomic (h : a.ReadsOnly) : a.Atomic := by
  intro s e s' hs
  have hread := h s
  rw [hs] at hread
  exact hread

theorem Unfailing.atomic (h : a.Unfailing) : a.Atomic := by
  intro s e s' hs
  obtain ⟨x, s'', hx⟩ := h s
  cases hx.symm.trans hs

/-- Reading goes before anything that is atomic. -/
theorem ReadsOnly.bind_atomic (ha : a.ReadsOnly) (hk : ∀ x, (k x).Atomic) : (a >>= k).Atomic := by
  intro s e s' h
  have hs := ha s
  rw [outcome_bind] at h
  split at h
  · next x s'' heq =>
      rw [heq] at hs
      exact (hk x _ _ _ h).trans hs
  · next heq =>
      cases h
      rw [heq] at hs
      exact hs

/-- Writing goes behind anything that is atomic. -/
theorem Atomic.bind_unfailing (ha : a.Atomic) (hk : ∀ x, (k x).Unfailing) : (a >>= k).Atomic := by
  intro s e s' h
  rw [outcome_bind] at h
  split at h
  · next x s'' heq =>
      obtain ⟨y, t, hy⟩ := hk x s''
      cases hy.symm.trans h
  · next heq =>
      cases h
      exact ha _ _ _ heq

theorem Atomic.outcome_eq_error_iff {a : Attempt σ ε Unit} (h : a.Atomic) {s s' : σ} {e : ε} :
    a.outcome s = (.error e, s') ↔ a.made s = .error e ∧ s' = s := by
  rw [made_eq_error_iff]
  constructor
  · intro he
    exact ⟨⟨s', he⟩, h s e s' he⟩
  · rintro ⟨⟨s'', he⟩, rfl⟩
    rw [he, h _ _ _ he]

end Rules
end Attempt

namespace OperandStack

theorem readsOnly_need (n : Nat) : (need n).ReadsOnly := Attempt.readsOnly_require _ _

theorem atomic_push (v : Int) : (push v).Atomic := (Attempt.unfailing_modify _).atomic

theorem atomic_copy (n : Int) : (copy n).Atomic :=
  (Attempt.readsOnly_require _ _).bind_atomic fun _ =>
    (readsOnly_need _).atomic.bind_unfailing fun _ => Attempt.unfailing_modify _

theorem atomic_dup : dup.Atomic := atomic_copy 0

theorem atomic_slide (n : Int) : (slide n).Atomic :=
  (Attempt.readsOnly_require _ _).bind_atomic fun _ =>
    (readsOnly_need _).atomic.bind_unfailing fun _ => Attempt.unfailing_modify _

theorem atomic_swap : swap.Atomic :=
  (readsOnly_need 2).atomic.bind_unfailing fun _ => Attempt.unfailing_modify _

end OperandStack

namespace FlowControl

theorem atomic_enter (i : Instr) : (enter i).Atomic := by
  cases i with
  | mark l =>
      exact (Attempt.readsOnly_require _ _).atomic.bind_unfailing fun _ =>
        Attempt.unfailing_modify _
  | _ => exact (Attempt.readsOnly_pure ()).atomic

theorem atomic_add (i : Instr) : (add i).Atomic :=
  (Attempt.readsOnly_require _ _).bind_atomic fun _ =>
    (atomic_enter i).bind_unfailing fun _ => Attempt.unfailing_modify _

theorem atomic_start : start.Atomic :=
  (Attempt.readsOnly_require _ _).atomic.bind_unfailing fun _ => Attempt.unfailing_modify _

theorem readsOnly_target (l : Label) : (target l).ReadsOnly := by
  refine Attempt.readsOnly_get.bind fun f => ?_
  cases f.labels.lookup l with
  | some position => exact Attempt.readsOnly_pure position
  | none => exact Attempt.readsOnly_throw _

theorem atomic_jump (l : Label) : (jump l).Atomic :=
  (readsOnly_target l).atomic.bind_unfailing fun _ => Attempt.unfailing_modify _

theorem atomic_call (l : Label) : (call l).Atomic :=
  (readsOnly_target l).atomic.bind_unfailing fun _ =>
    (Attempt.unfailing_modify _).bind fun _ => Attempt.unfailing_modify _

theorem atomic_ret : ret.Atomic := by
  refine Attempt.readsOnly_get.bind_atomic fun f => ?_
  cases f.calls with
  | nil => exact (Attempt.readsOnly_throw _).atomic
  | cons position rest => exact (Attempt.unfailing_modify _).atomic

theorem atomic_transfer (c : Control) : (transfer c).Atomic := by
  cases c with
  | next => exact (Attempt.readsOnly_pure ()).atomic
  | jump l => exact atomic_jump l
  | call l => exact atomic_call l
  | ret => exact atomic_ret
  | exit => exact (Attempt.unfailing_modify _).atomic

end FlowControl
end WhitespaceLang
