import WhitespaceLang.Proofs.Machine.Loading
import Mathlib.Data.List.Induction
import Mathlib.Data.List.Nodup

/-!
What adding a list of instructions makes of an empty flow. All are taken if no label is marked
twice, and the label table then lists the marks in their order, each with its position. The first
mark of a label that was marked before is refused.
-/

namespace WhitespaceLang

def InstrOf.mark? : Instr → Option Label
  | .mark l => some l
  | _ => none

theorem InstrOf.mark?_eq_some_iff {i : Instr} {l : Label} : i.mark? = some l ↔ i = .mark l := by
  cases i <;> simp [mark?]

namespace Flow

/-- The labels that the instructions mark. -/
def marks (is : List Instr) : List Label := is.filterMap InstrOf.mark?

/-- The labels that occur in the instructions, marked or used. -/
def occurring (is : List Instr) : List Label := is.filterMap InstrOf.label?

/-- The label table of instructions of which the first is at the position `n`. -/
def table (n : Nat) : List Instr → List (Label × Nat)
  | [] => []
  | i :: is => entry i n ++ table (n + 1) is

/-- The flow that has taken these instructions and no others. -/
def ofInstrs (is : List Instr) : Flow := ⟨is.toArray, table 0 is, .loading, 0, [], false⟩

@[simp] theorem getElem?_ofInstrs (is : List Instr) (p : Nat) :
    (ofInstrs is).finish.program[p]? = is[p]? := List.getElem?_toArray

@[simp] theorem size_ofInstrs (is : List Instr) :
    (ofInstrs is).finish.program.size = is.length := List.size_toArray

theorem marks_append (is js : List Instr) : marks (is ++ js) = marks is ++ marks js :=
  List.filterMap_append

theorem mem_marks {is : List Instr} {l : Label} : l ∈ marks is ↔ .mark l ∈ is := by
  simp only [marks, List.mem_filterMap, InstrOf.mark?_eq_some_iff, exists_eq_right]

theorem mem_occurring {is : List Instr} {l : Label} :
    l ∈ occurring is ↔ ∃ i ∈ is, i.label? = some l := List.mem_filterMap

theorem mem_occurring_of_getElem? {is : List Instr} {p : Nat} {i : Instr} {l : Label}
    (hi : is[p]? = some i) (hl : i.label? = some l) : l ∈ occurring is :=
  mem_occurring.mpr ⟨i, List.mem_of_getElem? hi, hl⟩

theorem mem_occurring_of_mem_marks {is : List Instr} {l : Label} (h : l ∈ marks is) :
    l ∈ occurring is :=
  mem_occurring.mpr ⟨_, mem_marks.mp h, rfl⟩

theorem mem_occurring_of_mem_marks_take {is : List Instr} {n : Nat} {l : Label}
    (h : l ∈ marks (is.take n)) : l ∈ occurring is :=
  mem_occurring_of_mem_marks (mem_marks.mpr (List.mem_of_mem_take (mem_marks.mp h)))

theorem map_fst_entry (i : Instr) (n : Nat) : (entry i n).map Prod.fst = i.mark?.toList := by
  cases i <;> rfl

theorem map_fst_table (n : Nat) (is : List Instr) : (table n is).map Prod.fst = marks is := by
  induction is generalizing n with
  | nil => rfl
  | cons i is ih =>
      rw [table, List.map_append, map_fst_entry, ih, marks, marks, List.filterMap_cons]
      cases i.mark? <;> rfl

theorem table_append (n : Nat) (is js : List Instr) :
    table n (is ++ js) = table n is ++ table (n + is.length) js := by
  induction is generalizing n with
  | nil => rfl
  | cons i is ih =>
      rw [List.cons_append, table, table, ih, List.append_assoc, List.length_cons,
        Nat.add_right_comm, Nat.add_assoc]

theorem lookup_table_eq_none_iff {n : Nat} {is : List Instr} {l : Label} :
    (table n is).lookup l = none ↔ l ∉ marks is := by
  rw [← map_fst_table n is, List.lookup_eq_none_iff, List.mem_map]
  constructor
  · intro h hl
    obtain ⟨entry, hmem, rfl⟩ := hl
    simpa using h entry hmem
  · intro h entry hmem
    rw [bne_iff_ne]
    intro heq
    exact h ⟨entry, hmem, heq.symm⟩

theorem lookup_table_ne_none_iff {n : Nat} {is : List Instr} {l : Label} :
    (table n is).lookup l ≠ none ↔ l ∈ marks is := by
  rw [ne_eq, lookup_table_eq_none_iff, Decidable.not_not]

theorem nodup_marks_append_singleton {is : List Instr} {i : Instr} :
    (marks (is ++ [i])).Nodup ↔ (marks is).Nodup ∧ ∀ l, i = .mark l → l ∉ marks is := by
  have hi : marks [i] = i.mark?.toList := by cases i <;> rfl
  rw [marks_append, hi]
  cases hm : i.mark? with
  | none =>
      have hne (l : Label) : i ≠ .mark l := by
        intro h
        rw [InstrOf.mark?_eq_some_iff.mpr h] at hm
        cases hm
      simp [hne]
  | some l =>
      rw [InstrOf.mark?_eq_some_iff] at hm
      subst hm
      rw [Option.toList_some, ← List.concat_eq_append, List.nodup_concat]
      simp [and_comm]

theorem addAll_append_singleton (is : List Instr) (i : Instr) (f : Flow) :
    f.addAll (is ++ [i]) = f.addAll is >>= fun g => g.add i := by
  simp only [addAll, List.foldlM_append, List.foldlM_cons, List.foldlM_nil, bind_pure]

theorem ofInstrs_add_eq_ok_iff {is : List Instr} {i : Instr} {f : Flow} :
    (ofInstrs is).add i = .ok f ↔
      (∀ l, i = .mark l → l ∉ marks is) ∧ f = ofInstrs (is ++ [i]) := by
  have hafter : ofInstrs (is ++ [i]) = { ofInstrs is with
      program := (ofInstrs is).program.push i
      labels := (ofInstrs is).labels ++ entry i (ofInstrs is).program.size } := by
    simp [ofInstrs, table_append, table]
  rw [add_eq_ok_iff, ← hafter]
  simp only [ofInstrs, lookup_table_eq_none_iff, true_and]

theorem addAll_eq_ok_iff {is : List Instr} {f : Flow} :
    empty.addAll is = .ok f ↔ (marks is).Nodup ∧ f = ofInstrs is := by
  induction is using List.reverseRecOn generalizing f with
  | nil => exact ⟨fun h => by cases h; exact ⟨List.nodup_nil, rfl⟩, fun h => by rw [h.2]; rfl⟩
  | append_singleton is i ih =>
      rw [addAll_append_singleton, nodup_marks_append_singleton, and_assoc,
        ← ofInstrs_add_eq_ok_iff]
      constructor
      · intro h
        cases hg : empty.addAll is with
        | error e => rw [hg] at h; cases h
        | ok g =>
            obtain ⟨hnodup, rfl⟩ := ih.mp hg
            rw [hg] at h
            exact ⟨hnodup, h⟩
      · intro h
        rw [ih.mpr ⟨h.1, rfl⟩]
        exact h.2

/-- Adding the instructions one by one is refused at the `n`-th, because of the label `l`. -/
def RefusesAt (is : List Instr) (n : Nat) (l : Label) : Prop :=
  ∃ f i, empty.addAll (is.take n) = .ok f ∧ is[n]? = some i ∧
    f.add i = .error (.duplicateLabel l)

theorem add_eq_duplicate_iff {f : Flow} {i : Instr} {l : Label} (hp : f.phase = .loading) :
    f.add i = .error (.duplicateLabel l) ↔ i = .mark l ∧ f.labels.lookup l ≠ none := by
  constructor
  · intro h
    rw [add_eq] at h
    split at h
    · cases h
    · cases i with
      | mark l' =>
          simp only at h
          split at h
          · cases h
          · next hl =>
              cases h
              exact ⟨rfl, hl⟩
      | _ => cases h
  · intro h
    obtain ⟨rfl, hl⟩ := h
    simp only [add_eq, hp, ne_eq, not_true, ite_false]
    exact if_neg hl

theorem refusesAt_iff {is : List Instr} {n : Nat} {l : Label} :
    RefusesAt is n l ↔
      (marks (is.take n)).Nodup ∧ is[n]? = some (.mark l) ∧ l ∈ marks (is.take n) := by
  constructor
  · intro h
    obtain ⟨f, i, hf, hi, hadd⟩ := h
    obtain ⟨hnodup, rfl⟩ := addAll_eq_ok_iff.mp hf
    obtain ⟨rfl, hl⟩ := (add_eq_duplicate_iff rfl).mp hadd
    exact ⟨hnodup, hi, lookup_table_ne_none_iff.mp hl⟩
  · intro h
    obtain ⟨hnodup, hi, hl⟩ := h
    exact ⟨_, _, addAll_eq_ok_iff.mpr ⟨hnodup, rfl⟩, hi,
      (add_eq_duplicate_iff rfl).mpr ⟨rfl, lookup_table_ne_none_iff.mpr hl⟩⟩

end Flow
end WhitespaceLang
