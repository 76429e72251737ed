/-!
Operations on a state that can fail on the way. What such an operation has written before it fails
stays written, so that nothing is lost by a failure is up to each of them.
-/

namespace WhitespaceLang

/-- An operation on a state: it gives an answer or an error, and in both cases leaves a state
behind. -/
abbrev Attempt (σ ε α : Type) := ExceptT ε (StateM σ) α

namespace Attempt

variable {σ ε α β : Type}

def outcome (a : Attempt σ ε α) (s : σ) : Except ε α × σ := (StateT.run (ExceptT.run a) s).run

/-- The state that is made, unless the operation fails. -/
def made (a : Attempt σ ε Unit) (s : σ) : Except ε σ :=
  match a.outcome s with
  | (.ok (), s') => .ok s'
  | (.error e, _) => .error e

/-- Fails unless the state is as it has to be. -/
def require (p : σ → Prop) [DecidablePred p] (e : ε) : Attempt σ ε Unit := do
  if p (← get) then pure () else throw e

@[simp] theorem outcome_pure (x : α) (s : σ) :
    (pure x : Attempt σ ε α).outcome s = (.ok x, s) := rfl

@[simp] theorem outcome_throw (e : ε) (s : σ) :
    (throw e : Attempt σ ε α).outcome s = (.error e, s) := rfl

@[simp] theorem outcome_get (s : σ) : (get : Attempt σ ε σ).outcome s = (.ok s, s) := rfl

@[simp] theorem outcome_modify (f : σ → σ) (s : σ) :
    (modify f : Attempt σ ε Unit).outcome s = (.ok (), f s) := rfl

theorem outcome_bind (a : Attempt σ ε α) (k : α → Attempt σ ε β) (s : σ) :
    (a >>= k).outcome s = match a.outcome s with
      | (.ok x, s') => (k x).outcome s'
      | (.error e, s') => (.error e, s') := by
  change Id.run (ExceptT.bindCont k (a s).1 (a s).2) = match a s with
    | (.ok x, s') => (k x).outcome s'
    | (.error e, s') => (.error e, s')
  cases a s with
  | mk r s' => cases r <;> rfl

theorem outcome_require (p : σ → Prop) [DecidablePred p] (e : ε) (s : σ) :
    (require p e).outcome s = (if p s then .ok () else .error e, s) := by
  simp only [require, outcome_bind, outcome_get]
  split <;> rfl

theorem made_eq_ok_iff {a : Attempt σ ε Unit} {s s' : σ} :
    a.made s = .ok s' ↔ a.outcome s = (.ok (), s') := by
  unfold made
  split
  · next h => simp [h]
  · next h => simp [h]

theorem made_eq_error_iff {a : Attempt σ ε Unit} {s : σ} {e : ε} :
    a.made s = .error e ↔ ∃ s', a.outcome s = (.error e, s') := by
  unfold made
  split
  · next h => simp [h]
  · next h => simp [h]

end Attempt
end WhitespaceLang
