import WhitespaceLang.Proofs.Device.Plain
import WhitespaceLang.Proofs.Machine.Reference
import WhitespaceLang.Proofs.Machine.Stepping

/-!
The data against the store of the reference machine, over streams that never fail. The two are kept
differently, but an instruction that leaves control alone succeeds on the data exactly when there is
a rule for it, and then they agree again.
-/

namespace WhitespaceLang
namespace Reference

/-- The data show what the reference machine keeps in its store. -/
structure Agrees (d : Data) (st : Store) : Prop where
  stack_eq : d.stack = st.stack
  heap_eq : ∀ a, d.heap.retrieve a = st.heap a
  device_eq : d.device = .plain st.input st.output

theorem Agrees.pop {d : Data} {v : Int} {s : List Int} {h : Int → Int} {i o : Text}
    (ha : Agrees d ⟨v :: s, h, i, o⟩) : Agrees { d with stack := s } ⟨s, h, i, o⟩ :=
  ⟨rfl, ha.heap_eq, ha.device_eq⟩

theorem retrieve_store_update {heap : Heap} {h : Int → Int} (hh : ∀ a, heap.retrieve a = h a)
    (address value a : Int) :
    (heap.store address value).retrieve a = Function.update h address value a := by
  rw [Heap.retrieve_store, Function.update_apply, hh]

/-- An instruction of the reference machine is carried out on data that agree. -/
theorem Operates.execute {i : Instr} {st st' : Store} (ho : Operates i st st') {d : Data}
    (ha : Agrees d st) : ∃ d', d.execute i = (.ok .next, d') ∧ Agrees d' st' := by
  obtain ⟨stack, heap, device⟩ := d
  obtain ⟨hs, hh, hd⟩ := ha
  simp only at hs hh hd
  subst hs hd
  induction ho with
  | dup _ ih => exact ih hh
  | @copy n v above below _ _ _ hn =>
      have hcopy := Stack.copy_eq_ok_iff.mpr ⟨above, v, below, hn, rfl, rfl⟩
      exact ⟨_, Data.updateStack_eq_ok_iff.mpr ⟨rfl, _, hcopy, rfl⟩, rfl, hh, rfl⟩
  | @slide n top under below _ _ _ hn =>
      have hslide := Stack.slide_eq_ok_iff.mpr ⟨top, under, below, hn, rfl, rfl⟩
      exact ⟨_, Data.updateStack_eq_ok_iff.mpr ⟨rfl, _, hslide, rfl⟩, rfl, hh, rfl⟩
  | div hd =>
      have hdiv := Arith.apply_div_eq_some_iff.mpr ⟨_, hd⟩
      exact ⟨_, Data.execute_arith_eq_ok_iff.mpr ⟨rfl, _, _, _, _, rfl, hdiv, rfl⟩, rfl, hh, rfl⟩
  | mod hd =>
      have hmod := Arith.apply_mod_eq_some_iff.mpr ⟨_, hd⟩
      exact ⟨_, Data.execute_arith_eq_ok_iff.mpr ⟨rfl, _, _, _, _, rfl, hmod, rfl⟩, rfl, hh, rfl⟩
  | store => exact ⟨_, rfl, rfl, retrieve_store_update hh _ _, rfl⟩
  | retrieve => exact ⟨_, rfl, by rw [hh], hh, rfl⟩
  | @printChar _ _ input output c =>
      have hprint := (Device.printChar_plain_iff input output).mpr ⟨c, rfl, rfl⟩
      exact ⟨_, Data.execute_printChar.trans (Data.printTop_cons hprint), rfl, hh, rfl⟩
  | @printNumber _ _ _ input output hv =>
      have hprint := (Device.printNumber_plain_iff input output).mpr ⟨hv, rfl⟩
      exact ⟨_, Data.execute_printNumber.trans (Data.printTop_cons hprint), rfl, hh, rfl⟩
  | @readChar _ _ _ input output c =>
      have hread := Device.readChar_plain_cons input output c
      have hheap := retrieve_store_update hh
      exact ⟨_, Data.execute_readChar.trans (Data.storeRead_cons hread), rfl, hheap _ _, rfl⟩
  | @readEnd _ _ _ output =>
      have hread := Device.readChar_plain_nil output
      have hheap := retrieve_store_update hh
      exact ⟨_, Data.execute_readChar.trans (Data.storeRead_cons hread), rfl, hheap _ _, rfl⟩
  | @readNumber _ _ _ _ input rest output hr =>
      have hread := (Device.readNumber_plain_iff input output).mpr ⟨rest, hr, rfl⟩
      have hheap := retrieve_store_update hh
      exact ⟨_, Data.execute_readNumber.trans (Data.storeRead_cons hread), rfl, hheap _ _, rfl⟩
  | push | swap | discard | add | sub | mul | mark => exact ⟨_, rfl, rfl, hh, rfl⟩

/-- An instruction that succeeds on the data, and that never sends control anywhere, is one that the
reference machine carries out. -/
theorem exists_operates {i : Instr} {d d' : Data} {c : Control} {st : Store} (ha : Agrees d st)
    (he : d.execute i = (.ok c, d')) (hi : ∀ s, i.control s = .next) :
    ∃ st', Operates i st st' := by
  obtain ⟨stack, heap, device⟩ := d
  obtain ⟨s, h, input, output⟩ := st
  obtain ⟨hs, hh, hd⟩ := ha
  simp only at hs hh hd
  subst hs hd
  cases i with
  | call l | jump l | ret | exit => cases hi []
  | jumpZero l => cases hi [0]
  | jumpNegative l => cases hi [-1]
  | push n => exact ⟨_, .push⟩
  | mark l => exact ⟨_, .mark⟩
  | dup =>
      obtain ⟨-, _, hcopy, -⟩ := Data.updateStack_eq_ok_iff.mp he
      obtain ⟨above, v, below, hn, rfl, -⟩ := Stack.copy_eq_ok_iff.mp hcopy
      exact ⟨_, .dup (.copy hn)⟩
  | copy n =>
      obtain ⟨-, _, hcopy, -⟩ := Data.updateStack_eq_ok_iff.mp he
      obtain ⟨above, v, below, hn, rfl, -⟩ := Stack.copy_eq_ok_iff.mp hcopy
      exact ⟨_, .copy hn⟩
  | slide n =>
      obtain ⟨-, _, hslide, -⟩ := Data.updateStack_eq_ok_iff.mp he
      obtain ⟨top, under, below, hn, rfl, -⟩ := Stack.slide_eq_ok_iff.mp hslide
      exact ⟨_, .slide hn⟩
  | swap =>
      obtain ⟨-, _, hswap, -⟩ := Data.updateStack_eq_ok_iff.mp he
      obtain ⟨a, b, rest, rfl, -⟩ := Stack.swap_eq_ok_iff.mp hswap
      exact ⟨_, .swap⟩
  | discard =>
      match stack with
      | _ :: _ => exact ⟨_, .discard⟩
      | [] => cases he
  | store =>
      match stack with
      | _ :: _ :: _ => exact ⟨_, .store⟩
      | [_] | [] => cases he
  | retrieve =>
      match stack with
      | _ :: _ => exact ⟨_, .retrieve⟩
      | [] => cases he
  | arith op =>
      obtain ⟨-, right, left, rest, v, hs, hv, -⟩ := Data.execute_arith_eq_ok_iff.mp he
      simp only at hs
      subst hs
      cases op with
      | add => exact ⟨_, .add⟩
      | sub => exact ⟨_, .sub⟩
      | mul => exact ⟨_, .mul⟩
      | div =>
          obtain ⟨r, hr⟩ := Arith.apply_div_eq_some_iff.mp hv
          exact ⟨_, .div hr⟩
      | mod =>
          obtain ⟨q, hq⟩ := Arith.apply_mod_eq_some_iff.mp hv
          exact ⟨_, .mod hq⟩
  | printChar =>
      rw [Data.execute_printChar] at he
      obtain ⟨-, v, rest, _, hs, hprint, -⟩ := Data.printTop_eq_ok_iff.mp he
      simp only at hs
      subst hs
      obtain ⟨c, rfl, -⟩ := (Device.printChar_plain_iff _ _).mp hprint
      exact ⟨_, .printChar c⟩
  | printNumber =>
      rw [Data.execute_printNumber] at he
      obtain ⟨-, v, rest, _, hs, hprint, -⟩ := Data.printTop_eq_ok_iff.mp he
      simp only at hs
      subst hs
      obtain ⟨hv, -⟩ := (Device.printNumber_plain_iff _ _).mp hprint
      exact ⟨_, .printNumber hv⟩
  | readChar =>
      rw [Data.execute_readChar] at he
      obtain ⟨-, _, _, address, rest, -, hs, -⟩ := Data.storeRead_eq_ok_iff.mp he
      simp only at hs
      subst hs
      cases input with
      | nil => exact ⟨_, .readEnd⟩
      | cons c input => exact ⟨_, .readChar c⟩
  | readNumber =>
      rw [Data.execute_readNumber] at he
      obtain ⟨-, n, _, address, rest, hread, hs, -⟩ := Data.storeRead_eq_ok_iff.mp he
      simp only at hs
      subst hs
      obtain ⟨_, hr, -⟩ := (Device.readNumber_plain_iff _ _).mp hread
      exact ⟨_, .readNumber hr⟩

end Reference
end WhitespaceLang
