import WhitespaceLang.Text.Basic

/-!
Which calls of a stream fail, and why: what is known of the next calls one by one, and what holds
for all calls after those.
-/

namespace WhitespaceLang

structure Schedule where
  upcoming : List (Option Text)
  afterwards : Option Text
  deriving DecidableEq, Repr

namespace Schedule

def never : Schedule := ⟨[], none⟩

/-- Fails for good after `n` calls that succeed. -/
def failingAfter (n : Nat) (why : Text) : Schedule := ⟨List.replicate n none, some why⟩

/-- Fails at the call after `n` that succeed and never again. -/
def failingOnceAfter (n : Nat) (why : Text) : Schedule := ⟨List.replicate n none ++ [some why], none⟩

/-- The fate of a call, and the schedule after it. -/
def next (s : Schedule) : Option Text × Schedule :=
  match s.upcoming with
  | [] => (s.afterwards, s)
  | fate :: rest => (fate, { s with upcoming := rest })

@[simp] theorem next_never : never.next = (none, never) := rfl

end Schedule
end WhitespaceLang
