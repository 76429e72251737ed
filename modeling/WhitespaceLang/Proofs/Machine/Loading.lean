import WhitespaceLang.Machine.Run

/-!
Loaded programs. Every mark is entered in the label table when it is added and a second one of the
same name is refused, so the table and the program say the same about where each label is.
-/

namespace WhitespaceLang
namespace Flow

/-- The entry that an instruction makes in the label table. -/
def entry (i : Instr) (position : Nat) : List (Label × Nat) :=
  match i with
  | .mark l => [(l, position)]
  | _ => []

theorem lookup_entry (i : Instr) (position : Nat) (l : Label) (p : Nat) :
    (entry i position).lookup l = some p ↔ i = .mark l ∧ p = position := by
  cases i with
  | mark l' =>
      by_cases h : l = l'
      · subst h
        simp [entry, eq_comm]
      · have hbeq : (l == l') = false := beq_eq_false_iff_ne.mpr h
        simp [entry, List.lookup_cons, hbeq, Ne.symm h]
  | _ => simp [entry]

theorem add_eq (i : Instr) (f : Flow) :
    f.add i = if f.phase ≠ .loading then .error .alreadyLoaded
      else match i with
        | .mark l =>
            if f.labels.lookup l = none then
              .ok { f with
                program := f.program.push i
                labels := f.labels ++ [(l, f.program.size)] }
            else .error (.duplicateLabel l)
        | _ => .ok { f with program := f.program.push i } := by
  simp only [add, FlowControl.add, Attempt.made, Attempt.outcome_bind, Attempt.outcome_require,
    Attempt.outcome_modify]
  by_cases hp : f.phase = .loading
  · cases i with
    | mark l =>
        simp only [FlowControl.enter, Attempt.outcome_bind, Attempt.outcome_require,
          Attempt.outcome_modify]
        by_cases hl : f.labels.lookup l = none
        · simp [hp, hl]
        · simp [hp, hl]
    | _ => simp [FlowControl.enter, hp]
  · simp [hp]

/-- What adding an instruction does and when it is refused. -/
theorem add_eq_ok_iff {i : Instr} {f f' : Flow} :
    f.add i = .ok f' ↔
      f.phase = .loading ∧ (∀ l, i = .mark l → f.labels.lookup l = none) ∧
        f' = { f with
          program := f.program.push i
          labels := f.labels ++ entry i f.program.size } := by
  constructor
  · intro h
    rw [add_eq] at h
    split at h
    · cases h
    · next hp =>
        refine ⟨Decidable.not_not.mp hp, ?_⟩
        cases i with
        | mark l =>
            simp only at h
            split at h
            · next hl =>
                cases h
                refine ⟨fun l' hl' => ?_, rfl⟩
                cases hl'
                exact hl
            · cases h
        | _ =>
            cases h
            simp [entry]
  · intro h
    obtain ⟨hp, hnew, rfl⟩ := h
    simp only [add_eq, hp, ne_eq, not_true, ite_false]
    cases i with
    | mark l =>
        simp only [hnew l rfl]
        rfl
    | _ => simp [entry]

/-- The label table and the program name the same marks at the same positions. -/
def LabelsMatch (f : Flow) : Prop :=
  ∀ l p, f.labels.lookup l = some p ↔ f.program[p]? = some (.mark l)

theorem labelsMatch_empty : empty.LabelsMatch := by
  intro l p
  simp [empty]

theorem LabelsMatch.add {i : Instr} {f f' : Flow} (h : f.LabelsMatch) (ha : f.add i = .ok f') :
    f'.LabelsMatch := by
  obtain ⟨-, hnew, rfl⟩ := add_eq_ok_iff.mp ha
  intro l p
  simp only [List.lookup_append, Array.getElem?_push]
  by_cases hp : p = f.program.size
  · subst hp
    have hfresh : f.labels.lookup l ≠ some f.program.size := by
      rw [ne_eq, h l]
      simp
    rw [if_pos rfl, Option.some.injEq]
    constructor
    · intro hl
      cases hold : f.labels.lookup l with
      | none =>
          rw [hold, Option.none_or, lookup_entry] at hl
          exact hl.1
      | some q =>
          rw [hold, Option.some_or] at hl
          exact absurd (hold.trans hl) hfresh
    · intro h
      subst h
      rw [hnew l rfl, Option.none_or, lookup_entry]
      exact ⟨rfl, rfl⟩
  · rw [if_neg hp, ← h l p]
    cases hold : f.labels.lookup l with
    | none => simp [lookup_entry, hp]
    | some q => simp

theorem addAll_cons (i : Instr) (is : List Instr) (f : Flow) :
    f.addAll (i :: is) = f.add i >>= fun f' => f'.addAll is := rfl

theorem exists_add_of_addAll_cons {i : Instr} {is : List Instr} {f f' : Flow}
    (h : f.addAll (i :: is) = .ok f') : ∃ g, f.add i = .ok g ∧ g.addAll is = .ok f' := by
  rw [addAll_cons] at h
  cases hg : f.add i with
  | error e => rw [hg] at h; cases h
  | ok g => rw [hg] at h; exact ⟨g, rfl, h⟩

theorem LabelsMatch.addAll {is : List Instr} {f f' : Flow} (h : f.LabelsMatch)
    (ha : f.addAll is = .ok f') : f'.LabelsMatch := by
  induction is generalizing f with
  | nil =>
      cases ha
      exact h
  | cons i is ih =>
      obtain ⟨g, hg, hrest⟩ := exists_add_of_addAll_cons ha
      exact ih (h.add hg) hrest

/-- Adding the instructions of a text as they come is the same as reading all of them and then
adding them, when a problem in the reading is held back until they are added. -/
theorem loadFrom_eq (lx : Lexer) (f : Flow) :
    loadFrom lx f = match f.addAll (Parser.instrs lx).1, (Parser.instrs lx).2 with
      | .error e, _ => .error (.program e)
      | .ok _, some e => .error (.source e)
      | .ok g, none => .ok g.finish := by
  fun_induction loadFrom lx f with
  | case1 lx f e lx' h =>
      rw [Parser.instrs_of_next_error h]
      rfl
  | case2 lx f lx' h =>
      rw [Parser.instrs_of_next_ended h]
      rfl
  | case3 lx f i lx' h _ e he =>
      rw [Parser.instrs_of_next_instr h, addAll_cons, he]
      rfl
  | case4 lx f i lx' h _ g hg ih =>
      rw [Parser.instrs_of_next_instr h, addAll_cons, hg, ih]
      rfl

theorem load_eq (t : Text) :
    load t = match empty.addAll (instrsOf t).1, (instrsOf t).2 with
      | .error e, _ => .error (.program e)
      | .ok _, some e => .error (.source e)
      | .ok f, none => .ok f.finish := loadFrom_eq (Lexer.ofText t) empty

/-- A program that is ready to run: one read from a text, or one put together instruction by
instruction. -/
inductive Loaded : Flow → Prop
  | text {t : Text} {f : Flow} (h : load t = .ok f) : Loaded f
  | instrs {is : List Instr} {f : Flow} (h : empty.addAll is = .ok f) : Loaded f.finish

theorem exists_addAll_of_load {t : Text} {f : Flow} (h : load t = .ok f) :
    ∃ is g, empty.addAll is = .ok g ∧ f = g.finish := by
  rw [load_eq] at h
  split at h
  · cases h
  · cases h
  · next g hg _ =>
      cases h
      exact ⟨_, g, hg, rfl⟩

theorem Loaded.exists_addAll {f : Flow} (h : f.Loaded) :
    ∃ is g, empty.addAll is = .ok g ∧ f = g.finish := by
  cases h with
  | text h => exact exists_addAll_of_load h
  | instrs h => exact ⟨_, _, h, rfl⟩

theorem Loaded.labelsMatch {f : Flow} (h : f.Loaded) : f.LabelsMatch := by
  obtain ⟨is, g, hg, rfl⟩ := h.exists_addAll
  have hm : g.LabelsMatch := labelsMatch_empty.addAll hg
  exact hm

theorem Loaded.phase_eq {f : Flow} (h : f.Loaded) : f.phase = .ready := by
  obtain ⟨is, g, -, rfl⟩ := h.exists_addAll
  rfl

/-- The flow of a program at its first instruction, with no calls open. -/
def started (f : Flow) : Flow := { f with ip := 0, calls := [], phase := .running }

theorem start_eq (f : Flow) :
    f.start = if f.phase = .loading then .error .stillLoading else .ok f.started := by
  simp only [start, FlowControl.start, Attempt.made, Attempt.outcome_bind, Attempt.outcome_require,
    Attempt.outcome_modify]
  by_cases hp : f.phase = .loading
  · simp [hp]
  · simp [hp, started]

/-- A loaded program can always be launched. -/
theorem Loaded.launch_eq {f : Flow} (h : f.Loaded) (device : Device) :
    f.launch device = .ok (.new f.started device) := by
  rw [launch, start_eq, h.phase_eq]
  rfl

end Flow
end WhitespaceLang
