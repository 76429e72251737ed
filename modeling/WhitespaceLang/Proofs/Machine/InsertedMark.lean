import WhitespaceLang.Proofs.Machine.Outcome

/-!
A mark does nothing when it is run. One under a label of its own can be put in anywhere, and the
program ends as before, with the positions behind it moved on by one. A return address may point
to the new mark or behind it, which is why positions correspond in two ways where it stands.
-/

namespace WhitespaceLang
namespace Flow

/-- The position of an instruction when one is put in at `i`. -/
def shifted (i p : Nat) : Nat := if p < i then p else p + 1

/-- The new instruction itself may stand for the one behind it. -/
def NearShifted (i p q : Nat) : Prop := q = shifted i p ∨ p = i ∧ q = i

section Inserted

variable {is : List Instr} {i : Nat} {l : Label}

theorem getElem?_insertIdx_shifted (is : List Instr) (i p : Nat) (x : Instr) :
    (is.insertIdx i x)[shifted i p]? = is[p]? := by
  rw [List.getElem?_insertIdx, shifted]
  by_cases h : p < i
  · rw [if_pos h, if_pos h]
  · rw [if_neg h, if_neg (by omega), if_neg (by omega), Nat.add_sub_cancel]

theorem nearShifted_succ (i p : Nat) : NearShifted i (p + 1) (shifted i p + 1) := by
  simp only [NearShifted, shifted]
  split <;> split <;> omega

theorem settles_shifted (hi : i ≤ is.length) :
    Settles (fun p q => q = shifted i p) (NearShifted i) (is.insertIdx i (.mark l)).toArray := by
  refine ⟨.inl, ?_⟩
  intro p q h
  obtain hq | ⟨rfl, rfl⟩ := h
  · exact .inl hq
  · refine .inr ⟨⟨l, ?_⟩, (if_neg (Nat.lt_irrefl q)).symm⟩
    rw [List.getElem?_toArray, List.getElem?_insertIdx_self, if_pos hi]

theorem nodup_marks_insertIdx (hi : i ≤ is.length) (hl : l ∉ marks is) (h : (marks is).Nodup) :
    (marks (is.insertIdx i (.mark l))).Nodup := by
  have hperm : (marks (is.insertIdx i (.mark l))).Perm (marks (.mark l :: is)) :=
    (List.perm_insertIdx _ is hi).filterMap InstrOf.mark?
  rw [hperm.nodup_iff]
  exact List.nodup_cons.mpr ⟨hl, h⟩

/-- With a mark of a new label put in, the program still loads and is a relocation of itself. -/
theorem relocation_insertIdx {f : Flow} (hf : empty.addAll is = .ok f) (hi : i ≤ is.length)
    (hl : l ∉ occurring is) :
    ∃ g, empty.addAll (is.insertIdx i (.mark l)) = .ok g ∧
      Settles (fun p q => q = shifted i p) (NearShifted i) g.program ∧
      Relocation id (fun p q => q = shifted i p) (NearShifted i) f.finish g.finish := by
  obtain ⟨hnodup, rfl⟩ := addAll_eq_ok_iff.mp hf
  have hnew : l ∉ marks is := fun h => hl (mem_occurring_of_mem_marks h)
  have hnodup' := nodup_marks_insertIdx hi hnew hnodup
  refine ⟨_, addAll_eq_ok_iff.mpr ⟨hnodup', rfl⟩, settles_shifted hi,
    relocation_ofInstrs hnodup hnodup' ?_ ?_ ?_ ?_ ?_⟩
  · intro p q hq
    rw [hq, getElem?_insertIdx_shifted, InstrOf.relabel_id, Option.map_id, id]
  · intro p q _ hq _ _
    rw [hq]
    exact nearShifted_succ i p
  · intro p _ _
    exact ⟨shifted i p, rfl, .inl rfl⟩
  · intro l' hl' hmark
    rw [mem_marks, List.mem_insertIdx hi] at hmark
    obtain heq | hmark := hmark
    · cases heq
      exact absurd hl' hl
    · exact mem_marks.mpr hmark
  · intro _
    rw [List.length_insertIdx, if_pos hi]
    exact .inl (if_neg (Nat.not_lt.mpr hi)).symm

end Inserted
end Flow

/-- A mark of a label that occurs nowhere else is put in at `i`. The program stops if it stopped
before, with the same data, and with the same ending at the same instruction. -/
theorem inserted_mark {is : List Instr} {i : Nat} {l : Label} {f : Flow}
    (hf : Flow.empty.addAll is = .ok f) (hi : i ≤ is.length) (hl : l ∉ Flow.occurring is) :
    ∃ g, Flow.empty.addAll (is.insertIdx i (.mark l)) = .ok g ∧ ∀ device,
      (∀ r, f.finish.Reports device r →
        ∃ r', g.finish.Reports device r' ∧ r.Relocates (Flow.shifted i) r') ∧
      (∀ r', g.finish.Reports device r' →
        ∃ r, f.finish.Reports device r ∧ r.Relocates (Flow.shifted i) r') ∧
      (∀ r, f.finish.Reports device r → r.ending = .finished →
        r.machine.flow.ip = is.length) ∧
      ∀ r', g.finish.Reports device r' → r'.ending = .finished →
        r'.machine.flow.ip = is.length + 1 := by
  obtain ⟨g, hg, hsettles, hrel⟩ := Flow.relocation_insertIdx hf hi hl
  have hfl := Flow.Loaded.instrs hf
  have hgl := Flow.Loaded.instrs hg
  refine ⟨g, hg, fun device => ?_⟩
  have hstart : Flow.NearShifted i 0 0 := by
    simp only [Flow.NearShifted, Flow.shifted]
    split <;> omega
  have h₀ := Machine.relocated_new hrel hstart device
  refine ⟨?_, ?_, ?_, ?_⟩
  · intro r hr
    obtain ⟨n, stop, m, ha, rfl⟩ := hfl.reports_iff.mp hr
    obtain ⟨n', m', ha', hm, hat⟩ := h₀.advance_forth hsettles rfl ha
    exact ⟨_, hgl.reports_iff.mpr ⟨n', stop, m', ha', rfl⟩,
      Machine.close_relocates hm.data_eq hm.aligned.phase_eq hat stop⟩
  · intro r' hr'
    obtain ⟨n', stop, m', ha', rfl⟩ := hgl.reports_iff.mp hr'
    obtain ⟨n, m, ha, hm, hat⟩ := h₀.advance_back hsettles rfl ha'
    exact ⟨_, hfl.reports_iff.mpr ⟨n, stop, m, ha, rfl⟩,
      Machine.close_relocates hm.data_eq hm.aligned.phase_eq hat stop⟩
  · intro r hr hend
    rw [hfl.ip_of_finished hr hend]
    obtain ⟨-, rfl⟩ := Flow.addAll_eq_ok_iff.mp hf
    exact Flow.size_ofInstrs is
  · intro r' hr' hend
    rw [hgl.ip_of_finished hr' hend]
    obtain ⟨-, rfl⟩ := Flow.addAll_eq_ok_iff.mp hg
    rw [Flow.size_ofInstrs, List.length_insertIdx, if_pos hi]

/-- A mark put in where a subroutine returns to, before an instruction that fails. -/
theorem inserted_mark_of_return_address :
    let is : List Instr := [.call [true], .discard, .mark [true], .ret]
    [] ∉ Flow.occurring is ∧
      ∃ f g, Flow.empty.addAll is = .ok f ∧ Flow.empty.addAll (is.insertIdx 1 (.mark [])) = .ok g ∧
        ∃ r r', f.finish.Reports (.ofText []) r ∧ g.finish.Reports (.ofText []) r' ∧
          r.ending = .fault 1 .underflow ∧ r'.ending = .fault 2 .underflow := by
  intro is
  have hf : Flow.empty.addAll is = .ok (Flow.ofInstrs is) := rfl
  have hl : [] ∉ Flow.occurring is := by decide
  obtain ⟨g, hg, hruns⟩ := inserted_mark (i := 1) hf (by decide) hl
  obtain ⟨hforth, -⟩ := hruns (.ofText [])
  have hrun : ∃ r, (Flow.ofInstrs is).finish.Reports (.ofText []) r ∧
      r.ending = .fault 1 .underflow := ⟨_, ⟨4, rfl⟩, rfl⟩
  obtain ⟨r, hr, hend⟩ := hrun
  obtain ⟨r', hr', hsame⟩ := hforth r hr
  refine ⟨hl, _, g, hf, hg, r, r', hr, hr', hend, ?_⟩
  rw [hsame.ending_eq, hend]
  rfl

end WhitespaceLang
