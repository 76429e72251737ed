import WhitespaceLang.Proofs.Machine.Stopping

/-!
Program texts that are run at once. A text that is not loaded gives the message that says why, and
one that is loaded gives what the report of its run amounts to.
-/

namespace WhitespaceLang

/-- The first step that does not go on comes after `k` that do, and is the reason to stop. -/
structure Machine.StopsAfter (m : Machine) (k : Nat) (stop : Stop) : Prop where
  continues : m.Continues k
  stops : Stop.ofAnswer (m.after k).step.1 = some stop

/-- A machine stops once. -/
theorem Machine.StopsAfter.unique {m : Machine} {j k : Nat} {stop stop' : Stop}
    (h : m.StopsAfter j stop) (h' : m.StopsAfter k stop') : j = k ∧ stop = stop' := by
  have not_before {a b : Nat} {s s' : Stop} (ha : m.StopsAfter a s) (hb : m.StopsAfter b s') :
      ¬ a < b := by
    intro hlt
    have hstops := ha.stops
    rw [hb.continues a hlt] at hstops
    cases hstops
  have heq : j = k :=
    Nat.le_antisymm (Nat.le_of_not_lt (not_before h' h)) (Nat.le_of_not_lt (not_before h h'))
  subst heq
  exact ⟨rfl, Option.some.inj (h.stops.symm.trans h'.stops)⟩

/-- A machine that cannot go on for `n` steps stops after fewer. -/
theorem Machine.exists_stopsAfter {m : Machine} {n : Nat} (h : ¬ m.Continues n) :
    ∃ k < n, ∃ stop, m.StopsAfter k stop := by
  induction n with
  | zero => exact absurd nofun h
  | succ n ih =>
      by_cases hn : m.Continues n
      · cases hs : Stop.ofAnswer (m.after n).step.1 with
        | none => exact absurd (continues_succ_iff.mpr ⟨hn, answer_of_continues hs⟩) h
        | some stop => exact ⟨n, Nat.lt_succ_self n, stop, hn, hs⟩
      · obtain ⟨k, hk, hstops⟩ := ih hn
        exact ⟨k, Nat.lt_succ_of_lt hk, hstops⟩

namespace Flow

variable {f : Flow} {device : Device}

/-- The run makes one step more than those that go on. -/
theorem Loaded.run_of_stopsAfter (hf : f.Loaded) {k : Nat} {stop : Stop}
    (h : (Machine.new f.started device).StopsAfter k stop) (n : Nat) :
    f.run n device = .ok (if n ≤ k then none
      else some (((Machine.new f.started device).after (k + 1)).close stop)) := by
  rw [hf.run_eq, h.continues.advance_of_stops h.stops]
  split <;> rfl

/-- Runs that stop are reported by where they stop and why. -/
theorem Loaded.run_eq_some_iff (hf : f.Loaded) {n : Nat} {r : Report} :
    f.run n device = .ok (some r) ↔
      ∃ k < n, ∃ stop, (Machine.new f.started device).StopsAfter k stop ∧
        r = ((Machine.new f.started device).after (k + 1)).close stop := by
  constructor
  · intro h
    rw [hf.run_eq] at h
    cases ha : (Machine.new f.started device).advance n with
    | mk stop m =>
        rw [ha] at h
        cases stop with
        | none => cases h
        | some stop =>
            cases h
            obtain ⟨k, hk, hc, hs, rfl⟩ := Machine.exists_continues_of_advance ha
            exact ⟨k, hk, stop, ⟨hc, hs⟩, rfl⟩
  · intro h
    obtain ⟨k, hk, stop, hstops, rfl⟩ := h
    rw [hf.run_of_stopsAfter hstops, if_neg (Nat.not_le_of_lt hk)]

end Flow

/-- The text that a reported run comes to, unless a number was too long. -/
def Report.result (r : Report) : Except Decimal.TooLong Text :=
  match r.ending with
  | .finished => .ok r.machine.data.device.output.text
  | .fault _ f => .ok (withError r.machine.data.device.output.text f.message)
  | .tooLong e => .error e

section Interpret

variable {source stdin : Text} {n : Nat}

theorem interpret_of_refused {e : LoadError} (h : Flow.load source = .error e) :
    interpret n source stdin = some (.ok (withError [] e.message)) := by
  simp only [interpret, h]

theorem interpret_eq_some_iff {f : Flow} (h : Flow.load source = .ok f)
    {result : Except Decimal.TooLong Text} :
    interpret n source stdin = some result ↔
      ∃ r, f.run n (.ofText stdin) = .ok (some r) ∧ r.result = result := by
  obtain ⟨reported, hrun⟩ : ∃ reported, f.run n (.ofText stdin) = .ok reported :=
    ⟨_, (Flow.Loaded.text h).run_eq n (.ofText stdin)⟩
  simp only [interpret, h, hrun]
  cases reported with
  | none => simp
  | some r => cases hend : r.ending <;> simp [Report.result, hend]

theorem interpret_of_stopsAfter {f : Flow} (h : Flow.load source = .ok f) {k : Nat} {stop : Stop}
    (hstops : (Machine.new f.started (.ofText stdin)).StopsAfter k stop) (hk : k < n) :
    interpret n source stdin =
      some (((Machine.new f.started (.ofText stdin)).after (k + 1)).close stop).result := by
  refine (interpret_eq_some_iff h).mpr ⟨_, ?_, rfl⟩
  exact (Flow.Loaded.text h).run_eq_some_iff.mpr ⟨k, hk, stop, hstops, rfl⟩

end Interpret
end WhitespaceLang
