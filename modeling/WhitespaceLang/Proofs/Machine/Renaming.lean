import WhitespaceLang.Proofs.Machine.Relocation

/-!
The names of labels do not matter. A program with its labels renamed, so that different ones stay
different, is refused at the same mark if it is refused, and otherwise runs the same step by step.
-/

namespace WhitespaceLang
namespace Flow

variable {is : List Instr} {ρ : Label → Label}

theorem marks_relabel (ρ : Label → Label) (is : List Instr) :
    marks (is.map (InstrOf.relabel ρ)) = (marks is).map ρ := by
  rw [marks, marks, List.filterMap_map, List.map_filterMap]
  congr 1
  funext i
  cases i <;> rfl

theorem table_relabel (ρ : Label → Label) (n : Nat) (is : List Instr) :
    table n (is.map (InstrOf.relabel ρ)) = (table n is).map (Prod.map ρ id) := by
  induction is generalizing n with
  | nil => rfl
  | cons i is ih =>
      rw [List.map_cons, table, table, ih, List.map_append]
      congr 1
      cases i <;> rfl

theorem relabel_eq_mark_iff {i : Instr} {l' : Label} :
    i.relabel ρ = .mark l' ↔ ∃ l, i = .mark l ∧ ρ l = l' := by
  cases i <;> simp [InstrOf.relabel]

theorem getElem?_relabel_eq_mark_iff {n : Nat} {l' : Label} :
    (is.map (InstrOf.relabel ρ))[n]? = some (.mark l') ↔
      ∃ l, is[n]? = some (.mark l) ∧ ρ l = l' := by
  simp only [List.getElem?_map, Option.map_eq_some_iff, relabel_eq_mark_iff]
  constructor
  · intro h
    obtain ⟨i, hi, l, rfl, hl⟩ := h
    exact ⟨l, hi, hl⟩
  · intro h
    obtain ⟨l, hi, hl⟩ := h
    exact ⟨_, hi, l, rfl, hl⟩

section Injective

variable (hρ : Set.InjOn ρ {l | l ∈ occurring is})
include hρ

theorem nodup_marks_relabel_iff (n : Nat) :
    (marks ((is.map (InstrOf.relabel ρ)).take n)).Nodup ↔ (marks (is.take n)).Nodup := by
  rw [← List.map_take, marks_relabel]
  refine ⟨List.Nodup.of_map ρ, fun h => h.map_on ?_⟩
  intro l hl l' hl' heq
  exact hρ (mem_occurring_of_mem_marks_take hl) (mem_occurring_of_mem_marks_take hl') heq

theorem refusesAt_relabel_iff {n : Nat} {l' : Label} :
    RefusesAt (is.map (InstrOf.relabel ρ)) n l' ↔ ∃ l, RefusesAt is n l ∧ ρ l = l' := by
  simp only [refusesAt_iff, nodup_marks_relabel_iff hρ]
  simp only [getElem?_relabel_eq_mark_iff, ← List.map_take, marks_relabel, List.mem_map]
  constructor
  · intro h
    obtain ⟨hnodup, ⟨l, hi, rfl⟩, l', hl', heq⟩ := h
    have hmem : l ∈ occurring is := mem_occurring_of_getElem? hi rfl
    rw [hρ (mem_occurring_of_mem_marks_take hl') hmem heq] at hl'
    exact ⟨l, ⟨hnodup, hi, hl'⟩, rfl⟩
  · intro h
    obtain ⟨l, ⟨hnodup, hi, hl⟩, rfl⟩ := h
    exact ⟨hnodup, ⟨l, hi, rfl⟩, l, hl, rfl⟩

/-- If the program loads, so does the renamed one, and nothing has moved in it. -/
theorem relocation_relabel {f : Flow} (hf : empty.addAll is = .ok f) :
    ∃ g, empty.addAll (is.map (InstrOf.relabel ρ)) = .ok g ∧
      g.labels = f.labels.map (Prod.map ρ id) ∧ Relocation ρ Eq Eq f.finish g.finish := by
  obtain ⟨hnodup, rfl⟩ := addAll_eq_ok_iff.mp hf
  have hnodup' : (marks (is.map (InstrOf.relabel ρ))).Nodup := by
    have htake := nodup_marks_relabel_iff hρ is.length
    rw [List.take_length, List.take_of_length_le (List.length_map _).le] at htake
    exact htake.mpr hnodup
  refine ⟨_, addAll_eq_ok_iff.mpr ⟨hnodup', rfl⟩, table_relabel ρ 0 is,
    relocation_ofInstrs hnodup hnodup' ?_ ?_ ?_ ?_ ?_⟩
  · intro p q h
    rw [← h, List.getElem?_map]
  · intro p q i h _ _
    rw [h]
  · intro p i _
    exact ⟨p, rfl, rfl⟩
  · intro l hl hmark
    rw [marks_relabel, List.mem_map] at hmark
    obtain ⟨l', hl', heq⟩ := hmark
    rw [← hρ (mem_occurring_of_mem_marks hl') hl heq]
    exact hl'
  · intro _
    exact (List.length_map _).symm

end Injective
end Flow

/-- Renaming the labels of a program changes nothing but the names of labels that are defined twice
or not at all. -/
theorem renamed_labels {is : List Instr} {ρ : Label → Label}
    (hρ : Set.InjOn ρ {l | l ∈ Flow.occurring is}) :
    (∀ n l', Flow.RefusesAt (is.map (InstrOf.relabel ρ)) n l' ↔
      ∃ l, Flow.RefusesAt is n l ∧ ρ l = l') ∧
    ∀ f, Flow.empty.addAll is = .ok f →
      ∃ g, Flow.empty.addAll (is.map (InstrOf.relabel ρ)) = .ok g ∧
        g.labels = f.labels.map (Prod.map ρ id) ∧
        ∀ device, ∃ m₀ m₀', f.finish.launch device = .ok m₀ ∧
          g.finish.launch device = .ok m₀' ∧ ∀ k,
            let m := m₀.after k
            let m' := m₀'.after k
            (m'.flow.ip = m.flow.ip ∧ m'.flow.phase = m.flow.phase ∧
              m'.flow.calls = m.flow.calls ∧ m'.data = m.data) ∧
            m'.step.1 = m.step.1.mapError (Failure.relabel ρ) ∧
            ∀ e, m.step.1 = .error e → (e.relabel ρ).kind = e.kind ∧
              ((∀ l, e ≠ .fault (.undefinedLabel l)) → e.relabel ρ = e) := by
  refine ⟨fun n l' => Flow.refusesAt_relabel_iff hρ, ?_⟩
  intro f hf
  obtain ⟨g, hg, hlabels, hrel⟩ := Flow.relocation_relabel hρ hf
  refine ⟨g, hg, hlabels, fun device => ?_⟩
  refine ⟨_, _, (Flow.Loaded.instrs hf).launch_eq device, (Flow.Loaded.instrs hg).launch_eq device,
    ?_⟩
  intro k m m'
  have h : Machine.Relocated ρ Eq Eq m m' :=
    (Machine.relocated_new hrel rfl device).after (fun _ _ => id) k
  have hcalls : m.flow.calls = m'.flow.calls := by
    rw [← List.forall₂_eq_eq_eq]
    exact h.aligned.calls
  refine ⟨⟨h.aligned.ip.symm, h.aligned.phase_eq, hcalls.symm, h.data_eq⟩,
    (h.step h.aligned.ip).1, ?_⟩
  intro e _
  exact ⟨e.kind_relabel ρ, Failure.relabel_of_ne⟩

/-- After a call and its return the same jump fails in both programs, each naming its own label. -/
theorem renamed_labels_of_undefined_jump :
    let is : List Instr := [.call [true], .jump [], .mark [true], .ret]
    Set.InjOn (List.cons false) {l | l ∈ Flow.occurring is} ∧
      ∃ f g, Flow.empty.addAll is = .ok f ∧
        Flow.empty.addAll (is.map (InstrOf.relabel (List.cons false))) = .ok g ∧
        g.labels = [([false, true], 2)] ∧
        ∃ m₀ m₀', f.finish.launch (.ofText []) = .ok m₀ ∧ g.finish.launch (.ofText []) = .ok m₀' ∧
          (m₀.after 3).step.1 = .error (.fault (.undefinedLabel [])) ∧
          (m₀'.after 3).step.1 = .error (.fault (.undefinedLabel [false])) := by
  intro is
  have hρ : Set.InjOn (List.cons false) {l | l ∈ Flow.occurring is} :=
    fun _ _ _ _ h => (List.cons.inj h).2
  obtain ⟨-, hloads⟩ := renamed_labels hρ
  obtain ⟨g, hg, hlabels, hruns⟩ := hloads _ rfl
  obtain ⟨m₀, m₀', hm₀, hm₀', hsteps⟩ := hruns (.ofText [])
  cases hm₀
  obtain ⟨-, hstep, -⟩ := hsteps 3
  refine ⟨hρ, _, g, rfl, hg, hlabels, _, m₀', rfl, hm₀', rfl, ?_⟩
  rw [hstep]
  rfl

end WhitespaceLang
