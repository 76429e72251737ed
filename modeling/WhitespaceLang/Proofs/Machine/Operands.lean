import WhitespaceLang.Data
import WhitespaceLang.Proofs.Atomic

/-!
What each kind of instruction does when it succeeds, by what it takes from the stack and puts back.
Copying and sliding succeed exactly when the items they ask for are there, and division is the one
whose remainder has the sign of the divisor.
-/

namespace WhitespaceLang
namespace Arith

/-- The quotient and the remainder of a division that rounds down. -/
def Divides (left right quotient remainder : Int) : Prop :=
  left = quotient * right + remainder ∧
    (0 ≤ remainder ∧ remainder < right ∨ right < remainder ∧ remainder ≤ 0)

/-- There is one quotient and one remainder, unless the divisor is 0. -/
theorem divides_iff {a b q r : Int} :
    Divides a b q r ↔ b ≠ 0 ∧ a.fdiv b = q ∧ a.fmod b = r := by
  have hmul : q * b = b * q := Int.mul_comm q b
  obtain hneg | hzero | hpos := Int.lt_trichotomy b 0
  · rw [Int.fdiv_fmod_unique' hneg, Divides, hmul]
    omega
  · subst hzero
    simp only [Divides]
    omega
  · rw [Int.fdiv_fmod_unique hpos, Divides, hmul]
    omega

theorem apply_div_eq_some_iff {a b q : Int} :
    apply .div a b = some q ↔ ∃ r, Divides a b q r := by
  simp only [apply, divides_iff]
  by_cases hb : b = 0
  · simp [hb]
  · simp [hb]

theorem apply_mod_eq_some_iff {a b r : Int} :
    apply .mod a b = some r ↔ ∃ q, Divides a b q r := by
  simp only [apply, divides_iff]
  by_cases hb : b = 0
  · simp [hb]
  · simp [hb]

end Arith

namespace Stack

theorem copy_eq (n : Int) (s : Stack) :
    copy n s = if n < 0 then .error (.naming n (.cannotCopy n))
      else match s[n.toNat]? with
        | some v => .ok (v :: s)
        | none => .error (.fault .underflow) := by
  simp only [copy, OperandStack.copy, OperandStack.need, Attempt.made, Attempt.outcome_bind,
    Attempt.outcome_require, Attempt.outcome_modify]
  by_cases hn : n < 0
  · simp [hn, Int.not_le.mpr hn]
  · by_cases hlen : n.toNat + 1 ≤ List.length s
    · have hlt : n.toNat < List.length s := hlen
      simp [hn, hlen, hlt, Int.not_lt.mp hn]
    · have hnone : s[n.toNat]? = none := List.getElem?_eq_none (Nat.not_lt.mp hlen)
      simp [hn, hlen, hnone, Int.not_lt.mp hn]

theorem slide_eq (n : Int) (s : Stack) :
    slide n s = if n < 0 then .error (.naming n (.cannotSlide n))
      else match s with
        | top :: rest =>
            if n.toNat ≤ rest.length then .ok (top :: rest.drop n.toNat)
            else .error (.fault .underflow)
        | [] => .error (.fault .underflow) := by
  simp only [slide, OperandStack.slide, OperandStack.need, Attempt.made, Attempt.outcome_bind,
    Attempt.outcome_require, Attempt.outcome_modify]
  by_cases hn : n < 0
  · simp [hn, Int.not_le.mpr hn]
  · cases s with
    | nil => simp [hn, Int.not_lt.mp hn]
    | cons top rest =>
        by_cases hle : n.toNat ≤ rest.length
        · simp [hn, hle, Int.not_lt.mp hn]
        · simp [hn, hle, Int.not_lt.mp hn]

theorem swap_eq (s : Stack) :
    swap s = match s with
      | a :: b :: rest => .ok (b :: a :: rest)
      | _ => .error (.fault .underflow) := by
  match s with
  | a :: b :: rest => rfl
  | [_] | [] => rfl

theorem copy_eq_ok_iff {n : Int} {s s' : Stack} :
    copy n s = .ok s' ↔
      ∃ above v below, (List.length above : Int) = n ∧ s = above ++ v :: below ∧ s' = v :: s := by
  constructor
  · intro h
    rw [copy_eq] at h
    split at h
    · cases h
    · next hn =>
        split at h
        · next v hv =>
            cases h
            obtain ⟨hlt, hget⟩ := List.getElem?_eq_some_iff.mp hv
            refine ⟨s.take n.toNat, v, s.drop (n.toNat + 1), ?_, ?_, rfl⟩
            · rw [List.length_take]
              omega
            · rw [← hget, List.getElem_cons_drop, List.take_append_drop]
        · cases h
  · intro h
    obtain ⟨above, v, below, rfl, rfl, rfl⟩ := h
    simp [copy_eq]

theorem slide_eq_ok_iff {n : Int} {s s' : Stack} :
    slide n s = .ok s' ↔
      ∃ top under below, (List.length under : Int) = n ∧ s = top :: (under ++ below) ∧
        s' = top :: below := by
  constructor
  · intro h
    rw [slide_eq] at h
    split at h
    · cases h
    · next hn =>
        cases s with
        | nil => cases h
        | cons top rest =>
            simp only at h
            split at h
            · next hle =>
                cases h
                refine ⟨top, rest.take n.toNat, rest.drop n.toNat, ?_, ?_, rfl⟩
                · rw [List.length_take]
                  omega
                · rw [List.take_append_drop]
            · cases h
  · intro h
    obtain ⟨top, under, below, rfl, rfl, rfl⟩ := h
    simp [slide_eq]

theorem swap_eq_ok_iff {s s' : Stack} :
    swap s = .ok s' ↔ ∃ a b rest, s = a :: b :: rest ∧ s' = b :: a :: rest := by
  constructor
  · intro h
    match s with
    | a :: b :: rest =>
        cases h
        exact ⟨a, b, rest, rfl, rfl⟩
    | [_] | [] => cases h
  · intro h
    obtain ⟨a, b, rest, rfl, rfl⟩ := h
    rfl

end Stack

namespace Data

variable {d d' : Data} {c : Control}

theorem execute_printChar : d.execute .printChar = d.printTop Device.printChar := rfl

theorem execute_printNumber : d.execute .printNumber = d.printTop Device.printNumber := rfl

theorem execute_readChar : d.execute .readChar = d.storeRead d.device.readChar := rfl

theorem execute_readNumber : d.execute .readNumber = d.storeRead d.device.readNumber := rfl

theorem updateStack_eq_ok_iff {a : Attempt Stack Failure Unit} :
    d.updateStack a = (.ok c, d') ↔
      c = .next ∧ ∃ s, a.made d.stack = .ok s ∧ d' = { d with stack := s } := by
  simp only [updateStack, Attempt.made_eq_ok_iff]
  cases a.outcome d.stack with
  | mk r s => cases r <;> simp [eq_comm]

theorem updateStack_eq_error_iff {a : Attempt Stack Failure Unit} {e : Failure} :
    (d.updateStack a).1 = .error e ↔ a.made d.stack = .error e := by
  simp only [updateStack, Attempt.made]
  cases a.outcome d.stack with
  | mk r s => cases r <;> simp

/-- What leaves the stack as it was when it fails leaves all data so. -/
theorem updateStack_of_atomic {a : Attempt Stack Failure Unit} (ha : a.Atomic) :
    d.updateStack a = match a.made d.stack with
      | .ok s => (.ok .next, { d with stack := s })
      | .error e => (.error e, d) := by
  cases h : a.made d.stack with
  | ok s =>
      have houtcome := Attempt.made_eq_ok_iff.mp h
      simp only [updateStack, houtcome]
  | error e =>
      have houtcome := ha.outcome_eq_error_iff.mpr ⟨h, rfl⟩
      simp only [updateStack, houtcome]

theorem execute_arith_eq_ok_iff {op : Arith} :
    d.execute (.arith op) = (.ok c, d') ↔
      c = .next ∧ ∃ right left rest v, d.stack = right :: left :: rest ∧
        op.apply left right = some v ∧ d' = { d with stack := v :: rest } := by
  constructor
  · intro h
    simp only [execute] at h
    split at h
    · next right left rest hs =>
        split at h
        · next v hv =>
            cases h
            exact ⟨rfl, right, left, rest, v, hs, hv, rfl⟩
        · cases h
    · cases h
  · intro h
    obtain ⟨rfl, right, left, rest, v, hs, hv, rfl⟩ := h
    simp only [execute, hs, hv]

theorem printTop_eq_ok_iff {print : Int → Device → Except Failure Unit × Device} :
    d.printTop print = (.ok c, d') ↔
      c = .next ∧ ∃ v rest device, d.stack = v :: rest ∧ print v d.device = (.ok (), device) ∧
        d' = ⟨rest, d.heap, device⟩ := by
  constructor
  · intro h
    simp only [printTop] at h
    split at h
    · next v rest hs =>
        split at h
        · next device hp =>
            cases h
            exact ⟨rfl, v, rest, device, hs, hp, rfl⟩
        · cases h
    · cases h
  · intro h
    obtain ⟨rfl, v, rest, device, hs, hp, rfl⟩ := h
    simp only [printTop, hs, hp]

theorem printTop_cons {print : Int → Device → Except Failure Unit × Device} {v : Int} {s : Stack}
    {heap : Heap} {device device' : Device} (hp : print v device = (.ok (), device')) :
    printTop ⟨v :: s, heap, device⟩ print = (.ok .next, ⟨s, heap, device'⟩) :=
  printTop_eq_ok_iff.mpr ⟨rfl, v, s, device', rfl, hp, rfl⟩

theorem storeRead_eq_ok_iff {r : Except Failure Int × Device} :
    d.storeRead r = (.ok c, d') ↔
      c = .next ∧ ∃ v device address rest, r = (.ok v, device) ∧ d.stack = address :: rest ∧
        d' = ⟨rest, d.heap.store address v, device⟩ := by
  constructor
  · intro h
    simp only [storeRead] at h
    split at h
    · cases h
    · next v device =>
        split at h
        · next address rest hs =>
            cases h
            exact ⟨rfl, v, device, address, rest, rfl, hs, rfl⟩
        · cases h
  · intro h
    obtain ⟨rfl, v, device, address, rest, rfl, hs, rfl⟩ := h
    simp only [storeRead, hs]

theorem storeRead_cons {r : Except Failure Int × Device} {address v : Int} {s : Stack}
    {heap : Heap} {device device' : Device} (hr : r = (.ok v, device')) :
    storeRead ⟨address :: s, heap, device⟩ r = (.ok .next, ⟨s, heap.store address v, device'⟩) :=
  storeRead_eq_ok_iff.mpr ⟨rfl, v, device', address, s, hr, rfl, rfl⟩

theorem jumpIf_eq_ok_iff {test : Int → Bool} {l : Label} :
    d.jumpIf test l = (.ok c, d') ↔
      ∃ v rest, d.stack = v :: rest ∧ c = (if test v then .jump l else .next) ∧
        d' = { d with stack := rest } := by
  constructor
  · intro h
    simp only [jumpIf] at h
    split at h
    · next v rest hs =>
        cases h
        exact ⟨v, rest, hs, rfl, rfl⟩
    · cases h
  · intro h
    obtain ⟨v, rest, hs, rfl, rfl⟩ := h
    simp only [jumpIf, hs]

theorem execute_jumpZero_eq_ok_iff {l : Label} :
    d.execute (.jumpZero l) = (.ok c, d') ↔
      ∃ v rest, d.stack = v :: rest ∧ c = (if v = 0 then .jump l else .next) ∧
        d' = { d with stack := rest } := by
  simp only [execute, jumpIf_eq_ok_iff, beq_iff_eq]

theorem execute_jumpNegative_eq_ok_iff {l : Label} :
    d.execute (.jumpNegative l) = (.ok c, d') ↔
      ∃ v rest, d.stack = v :: rest ∧ c = (if v < 0 then .jump l else .next) ∧
        d' = { d with stack := rest } := by
  simp only [execute, jumpIf_eq_ok_iff, decide_eq_true_eq]

end Data
end WhitespaceLang
