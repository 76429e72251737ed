import WhitespaceLang.Proofs.Device.Failing
import WhitespaceLang.Proofs.Machine.Stepping

/-!
What an instruction does to the depth of the stack. It needs a number of items and changes their
number, and both numbers are its own, whatever the items are and whatever the device answers.
-/

namespace WhitespaceLang
namespace InstrOf

/-- How many items there have to be on the stack. -/
def need : Instr → Int
  | .copy n | .slide n => n + 1
  | .swap | .arith _ | .store => 2
  | .dup | .discard | .retrieve | .jumpZero _ | .jumpNegative _ => 1
  | .printChar | .printNumber | .readChar | .readNumber => 1
  | .push _ | .mark _ | .call _ | .jump _ | .ret | .exit => 0

/-- How many more items there are afterwards. -/
def effect : Instr → Int
  | .push _ | .dup | .copy _ => 1
  | .slide n => -n
  | .store => -2
  | .discard | .arith _ | .jumpZero _ | .jumpNegative _ => -1
  | .printChar | .printNumber | .readChar | .readNumber => -1
  | .swap | .retrieve | .mark _ | .call _ | .jump _ | .ret | .exit => 0

/-- A copy or a slide with a negative argument. -/
def Negative : Instr → Prop
  | .copy n | .slide n => n < 0
  | _ => False

instance (i : Instr) : Decidable i.Negative :=
  match i with
  | .copy n | .slide n => inferInstanceAs (Decidable (n < 0))
  | .push _ | .dup | .swap | .discard | .arith _ | .store | .retrieve | .mark _ | .call _ | .jump _
  | .jumpZero _ | .jumpNegative _ | .ret | .exit | .printChar | .printNumber | .readChar
  | .readNumber => inferInstanceAs (Decidable False)

/-- The instruction cannot have its operands on a stack of this depth. -/
def Lacks (i : Instr) (depth : Int) : Prop := depth < i.need ∨ i.Negative

instance (i : Instr) (depth : Int) : Decidable (i.Lacks depth) :=
  inferInstanceAs (Decidable (_ ∨ _))

/-- The stack is deep enough for the instruction, which changes the depth by its effect. -/
structure Fits (i : Instr) (s s' : Stack) : Prop where
  not_lacks : ¬ i.Lacks s.length
  length_eq : (s'.length : Int) = s.length + i.effect

/-- An instruction works at the top of the stack, and what lies below it stays. -/
theorem Fits.replace {i : Instr} {s s' : Stack} (taken put rest : Stack) (hs : s = taken ++ rest)
    (hs' : s' = put ++ rest) (hn : ¬ i.Negative) (hneed : i.need = taken.length)
    (heffect : i.effect = put.length - taken.length) : i.Fits s s' := by
  subst hs hs'
  refine ⟨not_or.mpr ⟨?_, hn⟩, ?_⟩
  · rw [hneed, List.length_append]
    omega
  · rw [heffect, List.length_append, List.length_append]
    omega

end InstrOf

namespace Stack

variable {n : Int} {s s' : Stack} {e : Failure}

theorem fits_copy (h : s.copy n = .ok s') : InstrOf.Fits (.copy n) s s' := by
  obtain ⟨above, v, below, hn, rfl, rfl⟩ := copy_eq_ok_iff.mp h
  refine .replace (above ++ [v]) (v :: (above ++ [v])) below (by simp) (by simp) ?_ ?_ ?_
  · simp only [InstrOf.Negative]
    omega
  · rw [List.length_append, InstrOf.need, ← hn]
    rfl
  · rw [List.length_cons, InstrOf.effect]
    omega

theorem fits_slide (h : s.slide n = .ok s') : InstrOf.Fits (.slide n) s s' := by
  obtain ⟨top, under, below, hn, rfl, rfl⟩ := slide_eq_ok_iff.mp h
  refine .replace (top :: under) [top] below rfl rfl ?_ ?_ ?_
  · simp only [InstrOf.Negative]
    omega
  · rw [List.length_cons, InstrOf.need, ← hn]
    rfl
  · rw [List.length_singleton, List.length_cons, InstrOf.effect]
    omega

theorem lacks_copy (h : s.copy n = .error e) : InstrOf.Lacks (.copy n) s.length := by
  rw [copy_eq] at h
  split at h
  · next hn => exact .inr hn
  · split at h
    · cases h
    · next hnone =>
        have hle := List.getElem?_eq_none_iff.mp hnone
        refine .inl ?_
        rw [InstrOf.need]
        omega

theorem lacks_slide (h : s.slide n = .error e) : InstrOf.Lacks (.slide n) s.length := by
  rw [slide_eq] at h
  split at h
  · next hn => exact .inr hn
  · refine .inl ?_
    rw [InstrOf.need]
    cases s with
    | nil =>
        rw [List.length_nil]
        omega
    | cons top rest =>
        simp only at h
        split at h
        · cases h
        · rw [List.length_cons]
          omega

end Stack

namespace Data

variable {d d' : Data} {i : Instr} {c : Control} {e : Failure}

theorem fits_of_updateStack {a : Attempt Stack Failure Unit}
    (ha : ∀ s, a.made d.stack = .ok s → i.Fits d.stack s) (h : d.updateStack a = (.ok c, d')) :
    i.Fits d.stack d'.stack := by
  obtain ⟨-, s, hs, rfl⟩ := updateStack_eq_ok_iff.mp h
  exact ha s hs

/-- An instruction that takes the top and puts nothing back. -/
theorem fits_of_top {v : Int} (hs : d.stack = v :: d'.stack) (hn : ¬ i.Negative)
    (hneed : i.need = 1) (heffect : i.effect = -1) : i.Fits d.stack d'.stack :=
  .replace [v] [] _ hs rfl hn hneed heffect

/-- An instruction that succeeds had its operands, and what it puts back is as much as its effect
says. -/
theorem fits_of_ok (h : d.execute i = (.ok c, d')) : i.Fits d.stack d'.stack := by
  cases i with
  | push n =>
      cases h
      exact .replace [] [n] _ rfl rfl not_false rfl rfl
  | dup =>
      refine fits_of_updateStack ?_ h
      intro s hs
      -- Nothing is above the item that is copied.
      obtain ⟨above, v, below, hn, heq, rfl⟩ := Stack.copy_eq_ok_iff.mp hs
      obtain rfl : above = [] := List.eq_nil_of_length_eq_zero (Int.ofNat_eq_zero.mp hn)
      exact .replace [v] [v, v] below heq (congrArg (List.cons v) heq) not_false rfl rfl
  | copy n => exact fits_of_updateStack (fun _ => Stack.fits_copy) h
  | slide n => exact fits_of_updateStack (fun _ => Stack.fits_slide) h
  | swap =>
      refine fits_of_updateStack ?_ h
      intro s hs
      obtain ⟨a, b, rest, heq, rfl⟩ := Stack.swap_eq_ok_iff.mp hs
      exact .replace [a, b] [b, a] rest heq rfl not_false rfl rfl
  | arith op =>
      obtain ⟨-, right, left, rest, v, hs, -, rfl⟩ := execute_arith_eq_ok_iff.mp h
      exact .replace [right, left] [v] rest hs rfl not_false rfl rfl
  | discard =>
      simp only [execute] at h
      split at h
      · next hs =>
          cases h
          exact fits_of_top hs not_false rfl rfl
      · cases h
  | store =>
      simp only [execute] at h
      split at h
      · next value address rest hs =>
          cases h
          exact .replace [value, address] [] rest hs rfl not_false rfl rfl
      · cases h
  | retrieve =>
      simp only [execute] at h
      split at h
      · next address rest hs =>
          cases h
          exact .replace [address] [_] rest hs rfl not_false rfl rfl
      · cases h
  | jumpZero l =>
      obtain ⟨v, rest, hs, -, rfl⟩ := execute_jumpZero_eq_ok_iff.mp h
      exact fits_of_top hs not_false rfl rfl
  | jumpNegative l =>
      obtain ⟨v, rest, hs, -, rfl⟩ := execute_jumpNegative_eq_ok_iff.mp h
      exact fits_of_top hs not_false rfl rfl
  | printChar | printNumber =>
      simp only [execute] at h
      obtain ⟨-, v, rest, device, hs, -, rfl⟩ := printTop_eq_ok_iff.mp h
      exact fits_of_top hs not_false rfl rfl
  | readChar | readNumber =>
      simp only [execute] at h
      obtain ⟨-, v, device, address, rest, -, hs, rfl⟩ := storeRead_eq_ok_iff.mp h
      exact fits_of_top hs not_false rfl rfl
  | mark l | call l | jump l | ret | exit =>
      cases h
      exact .replace [] [] _ rfl rfl not_false rfl rfl

theorem lacks_of_updateStack {a : Attempt Stack Failure Unit}
    (ha : ∀ e, a.made d.stack = .error e → i.Lacks d.stack.length)
    (h : d.updateStack a = (.error e, d')) : i.Lacks d.stack.length :=
  ha e (updateStack_eq_error_iff.mp (congrArg Prod.fst h))

/-- An instruction that needs the top finds nothing. -/
theorem lacks_of_nil (hs : d.stack = []) (hneed : 0 < i.need) : i.Lacks d.stack.length := by
  rw [hs]
  exact .inl hneed

/-- An instruction that needs two items finds at most one. -/
theorem lacks_of_not_two (hs : ∀ a b rest, d.stack = a :: b :: rest → False) (hneed : i.need = 2) :
    i.Lacks d.stack.length := by
  refine .inl ?_
  rw [hneed]
  match hd : d.stack with
  | a :: b :: rest => exact absurd hd (hs a b rest)
  | [_] | [] => simp

theorem lacks_of_printTop {print : Int → Device → Except Failure Unit × Device}
    (hp : ∀ v e, (print v d.device).1 = .error e → e.OfDevice) (hneed : 0 < i.need)
    (h : d.printTop print = (.error e, d')) (hk : e.kind = .underflow) :
    i.Lacks d.stack.length := by
  simp only [printTop] at h
  split at h
  · next v rest _ =>
      split at h
      · cases h
      · next he =>
          cases h
          exact absurd hk ((hp v e (congrArg Prod.fst he)).kind_ne (by decide))
  · next hs => exact lacks_of_nil hs hneed

theorem lacks_of_storeRead {r : Except Failure Int × Device}
    (hr : ∀ e, r.1 = .error e → e.OfDevice) (hneed : 0 < i.need)
    (h : d.storeRead r = (.error e, d')) (hk : e.kind = .underflow) : i.Lacks d.stack.length := by
  simp only [storeRead] at h
  split at h
  · cases h
    exact absurd hk ((hr e rfl).kind_ne (by decide))
  · split at h
    · cases h
    · next hs => exact lacks_of_nil hs hneed

/-- An instruction that fails for want of items did not have its operands. -/
theorem lacks_of_underflow (h : d.execute i = (.error e, d')) (hk : e.kind = .underflow) :
    i.Lacks d.stack.length := by
  cases i with
  | dup =>
      refine lacks_of_updateStack ?_ h
      intro e he
      exact (Stack.lacks_copy he).imp_right nofun
  | copy n => exact lacks_of_updateStack (fun _ => Stack.lacks_copy) h
  | slide n => exact lacks_of_updateStack (fun _ => Stack.lacks_slide) h
  | swap =>
      refine lacks_of_updateStack ?_ h
      intro e he
      refine lacks_of_not_two ?_ rfl
      intro a b rest hs
      rw [hs] at he
      cases he
  | arith op =>
      simp only [execute] at h
      split at h
      · split at h
        · cases h
        · cases h
          cases hk
      · next hs => exact lacks_of_not_two hs rfl
  | store =>
      simp only [execute] at h
      split at h
      · cases h
      · next hs => exact lacks_of_not_two hs rfl
  | discard | retrieve | jumpZero l | jumpNegative l =>
      simp only [execute, jumpIf] at h
      split at h
      · cases h
      · next hs => exact lacks_of_nil hs Int.one_pos
  | printChar => exact lacks_of_printTop (fun _ _ => Device.ofDevice_printChar) Int.one_pos h hk
  | printNumber => exact lacks_of_printTop (fun _ _ => Device.ofDevice_printNumber) Int.one_pos h hk
  | readChar => exact lacks_of_storeRead (fun _ => Device.ofDevice_readChar) Int.one_pos h hk
  | readNumber => exact lacks_of_storeRead (fun _ => Device.ofDevice_readNumber) Int.one_pos h hk
  | push n | mark l | call l | jump l | ret | exit => cases h

end Data

end WhitespaceLang
