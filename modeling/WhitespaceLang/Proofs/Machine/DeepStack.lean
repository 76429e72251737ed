import WhitespaceLang.Proofs.Machine.DigitLimit
import WhitespaceLang.Proofs.Machine.StackEffect
import Mathlib.Data.List.Induction

/-!
The operations that reach below the top of the stack. Copying from one depth again and again copies
a whole block, slides add up, and a slide undoes a copy together with all that was above what was
copied. Both operations fail exactly where there are too few items.
-/

namespace WhitespaceLang
namespace Stack

/-- Copies the item at the same depth `k` times. What is at that depth changes with each copy. -/
def copies (n : Int) : (k : Nat) → Stack → Except Failure Stack
  | 0, s => .ok s
  | k + 1, s =>
      match s.copy n with
      | .ok s' => copies n k s'
      | .error e => .error e

/-- The items `ys` are still to be copied, and the copies `zs` of those below them have been made.
One more copy finds the last of the former at its depth, and puts it in front of the latter. -/
theorem copies_rest (ys zs rest : Stack) {n : Nat} (hn : zs.length + ys.length = n + 1) :
    copies n ys.length (zs ++ (ys ++ rest)) = .ok (ys ++ (zs ++ (ys ++ rest))) := by
  induction ys using List.reverseRecOn generalizing zs rest with
  | nil => rfl
  | append_singleton ys y ih =>
      rw [List.length_append, List.length_singleton] at hn ⊢
      have habove : ((zs ++ ys).length : Int) = n := by
        rw [List.length_append]
        omega
      have hsplit : zs ++ (ys ++ [y] ++ rest) = (zs ++ ys) ++ y :: rest := by simp
      have hcopy : (zs ++ (ys ++ [y] ++ rest)).copy n = .ok (y :: (zs ++ (ys ++ [y] ++ rest))) :=
        copy_eq_ok_iff.mpr ⟨zs ++ ys, y, rest, habove, hsplit, rfl⟩
      have hrest := ih (y :: zs) (y :: rest) (by rw [List.length_cons]; omega)
      simp only [copies, hcopy]
      simpa using hrest

/-- As many copies as a block has items put the block on the stack once more. -/
theorem copies_block {xs : Stack} {n : Nat} (hn : xs.length = n + 1) (base : Stack) :
    copies n (n + 1) (xs ++ base) = .ok (xs ++ (xs ++ base)) := by
  rw [← hn]
  exact copies_rest xs [] base (by rw [List.length_nil, Nat.zero_add, hn])

theorem slide_slide_iff {s s' : Stack} {a b : Int} (ha : 0 ≤ a) (hb : 0 ≤ b) :
    (∃ t, s.slide a = .ok t ∧ Stack.slide b t = .ok s') ↔ s.slide (a + b) = .ok s' := by
  constructor
  · rintro ⟨t, hfirst, hsecond⟩
    obtain ⟨top, under, below, hunder, rfl, rfl⟩ := slide_eq_ok_iff.mp hfirst
    obtain ⟨top', under', below', hunder', heq, rfl⟩ := slide_eq_ok_iff.mp hsecond
    cases heq
    refine slide_eq_ok_iff.mpr ⟨top, under ++ under', below', ?_, ?_, rfl⟩
    · rw [List.length_append, Int.natCast_add, hunder, hunder']
    · rw [List.append_assoc]
  · intro h
    obtain ⟨top, under, below, hunder, rfl, rfl⟩ := slide_eq_ok_iff.mp h
    refine ⟨top :: (under.drop a.toNat ++ below), slide_eq_ok_iff.mpr ?_, slide_eq_ok_iff.mpr ?_⟩
    · refine ⟨top, under.take a.toNat, under.drop a.toNat ++ below, ?_, ?_, rfl⟩
      · rw [List.length_take]
        omega
      · rw [← List.append_assoc, List.take_append_drop]
    · refine ⟨top, under.drop a.toNat, below, ?_, rfl, rfl⟩
      rw [List.length_drop]
      omega

theorem slide_copy {s s' : Stack} {n : Int} (h : s.copy n = .ok s') :
    ∃ above v below, (List.length above : Int) = n ∧ s = above ++ v :: below ∧
      s'.slide (n + 1) = .ok (v :: below) := by
  obtain ⟨above, v, below, hn, rfl, rfl⟩ := copy_eq_ok_iff.mp h
  refine ⟨above, v, below, hn, rfl, slide_eq_ok_iff.mpr ⟨v, above ++ [v], below, ?_, ?_, rfl⟩⟩
  · rw [List.length_append, Int.natCast_add, hn]
    rfl
  · rw [List.append_assoc]
    rfl

section Underflow

variable {n : Int} {s : Stack} {e : Failure}

theorem underflow_of_copy (hn : Decimal.Fits n) (h : s.copy n = .error e) :
    e.kind = .underflow := by
  rw [copy_eq] at h
  split at h
  · cases h
    exact Failure.kind_naming_of_fits hn
  · split at h
    · cases h
    · cases h
      rfl

theorem underflow_of_slide (hn : Decimal.Fits n) (h : s.slide n = .error e) :
    e.kind = .underflow := by
  rw [slide_eq] at h
  split at h
  · cases h
    exact Failure.kind_naming_of_fits hn
  · split at h
    · split at h
      · cases h
      · cases h
        rfl
    · cases h
      rfl

/-- An operation that needs its operands and nothing else fails exactly where it lacks them. -/
theorem underflow_iff_lacks {i : Instr} {r : Except Failure Stack}
    (hok : ∀ s', r = .ok s' → i.Fits s s') (herror : ∀ e, r = .error e → i.Lacks s.length)
    (hkind : ∀ e, r = .error e → e.kind = .underflow) :
    (∃ e, r = .error e ∧ e.kind = .underflow) ↔ i.Lacks s.length := by
  constructor
  · rintro ⟨e, he, -⟩
    exact herror e he
  · intro hlacks
    cases hr : r with
    | ok s' => exact absurd hlacks (hok s' hr).not_lacks
    | error e => exact ⟨e, rfl, hkind e hr⟩

theorem copy_underflow_iff (hn : Decimal.Fits n) :
    (∃ e, s.copy n = .error e ∧ e.kind = .underflow) ↔ n < 0 ∨ s.length ≤ n := by
  rw [underflow_iff_lacks (fun _ => fits_copy) (fun _ => lacks_copy)
    (fun _ => underflow_of_copy hn)]
  simp only [InstrOf.Lacks, InstrOf.need, InstrOf.Negative]
  omega

theorem slide_underflow_iff (hn : Decimal.Fits n) :
    (∃ e, s.slide n = .error e ∧ e.kind = .underflow) ↔ n < 0 ∨ s.length ≤ n := by
  rw [underflow_iff_lacks (fun _ => fits_slide) (fun _ => lacks_slide)
    (fun _ => underflow_of_slide hn)]
  simp only [InstrOf.Lacks, InstrOf.need, InstrOf.Negative]
  omega

end Underflow
end Stack

/-- An operation that looks before it writes leaves the stack as it was when it fails, and so do
all data. -/
theorem Data.unchanged_of_error {d : Data} {a : Attempt Stack Failure Unit} {e : Failure}
    (ha : a.Atomic) (h : a.made d.stack = .error e) :
    a.outcome d.stack = (.error e, d.stack) ∧ d.updateStack a = (.error e, d) := by
  refine ⟨ha.outcome_eq_error_iff.mpr ⟨h, rfl⟩, ?_⟩
  rw [updateStack_of_atomic ha, h]

/-- The laws of copying and sliding, with the top of the stack first: copying a block, adding up
slides, undoing a copy, and failing exactly where there are too few items, with no change. -/
theorem copy_and_slide_laws :
    (∀ (xs base : Stack) (n : Nat), xs.length = n + 1 →
      Stack.copies n (n + 1) (xs ++ base) = .ok (xs ++ (xs ++ base))) ∧
    (∀ (s s' : Stack) (a b : Int), 0 ≤ a → 0 ≤ b →
      ((∃ t, s.slide a = .ok t ∧ Stack.slide b t = .ok s') ↔ s.slide (a + b) = .ok s')) ∧
    (∀ (s s' : Stack) (n : Int), s.copy n = .ok s' →
      ∃ above v below, (List.length above : Int) = n ∧ s = above ++ v :: below ∧
        s'.slide (n + 1) = .ok (v :: below)) ∧
    ∀ (n : Int) (d : Data), Decimal.Fits n →
      ((∃ e, d.stack.copy n = .error e ∧ e.kind = .underflow) ↔ n < 0 ∨ d.stack.length ≤ n) ∧
      ((∃ e, d.stack.slide n = .error e ∧ e.kind = .underflow) ↔ n < 0 ∨ d.stack.length ≤ n) ∧
      (∀ e, d.stack.copy n = .error e →
        (OperandStack.copy n).outcome d.stack = (.error e, d.stack) ∧
          d.execute (.copy n) = (.error e, d)) ∧
      ∀ e, d.stack.slide n = .error e →
        (OperandStack.slide n).outcome d.stack = (.error e, d.stack) ∧
          d.execute (.slide n) = (.error e, d) := by
  refine ⟨fun _ base _ hn => Stack.copies_block hn base,
    fun _ _ _ _ => Stack.slide_slide_iff, fun _ _ _ => Stack.slide_copy, ?_⟩
  intro n d hn
  exact ⟨Stack.copy_underflow_iff hn, Stack.slide_underflow_iff hn,
    fun _ => Data.unchanged_of_error (OperandStack.atomic_copy n),
    fun _ => Data.unchanged_of_error (OperandStack.atomic_slide n)⟩

/-- A block of three is copied above one item, slides by one and by two are a slide by three, and a
slide by as many as the depth fails. -/
theorem copy_and_slide_laws_of_four_items :
    let s : Stack := [4, 3, 2, 1]
    let d : Data := ⟨s, .empty, .ofText []⟩
    Stack.copies 2 3 s = .ok [4, 3, 2, 4, 3, 2, 1] ∧ s.slide 3 = .ok [4] ∧
      (∃ t, s.slide 1 = .ok t ∧ Stack.slide 2 t = .ok [4]) ∧
      Stack.slide 3 [2, 4, 3, 2, 1] = .ok [2, 1] ∧
      (∃ e, s.slide 4 = .error e ∧ e.kind = .underflow ∧ d.execute (.slide 4) = (.error e, d)) ∧
      ∃ e, s.copy (-1) = .error e ∧ e.kind = .underflow := by
  intro s d
  obtain ⟨hcopies, hslides, hundone, hfails⟩ := copy_and_slide_laws
  have hslide : s.slide (1 + 2) = .ok [4] := rfl
  have hcopy : s.copy 2 = .ok [2, 4, 3, 2, 1] := rfl
  obtain ⟨-, hfour, -, hkept⟩ := hfails 4 d (Decimal.fits_of_lt (by decide))
  obtain ⟨hnegative, -⟩ := hfails (-1) d (Decimal.fits_of_lt (by decide))
  refine ⟨hcopies [4, 3, 2] [1] 2 rfl, hslide,
    (hslides s [4] 1 2 (by decide) (by decide)).mpr hslide, ?_, ?_,
    hnegative.mpr (.inl (by decide))⟩
  · obtain ⟨above, v, below, habove, hs, hslide⟩ := hundone s _ 2 hcopy
    have hsplit : [4, 3] ++ 2 :: [1] = above ++ v :: below := hs
    obtain ⟨-, hbelow⟩ := List.append_inj hsplit (Int.ofNat_inj.mp habove).symm
    rwa [← hbelow] at hslide
  · obtain ⟨e, he, hkind⟩ := hfour.mpr (.inr (by decide))
    exact ⟨e, he, hkind, (hkept e he).2⟩

end WhitespaceLang
