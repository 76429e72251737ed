import WhitespaceLang.ErrorKind
import WhitespaceLang.Proofs.Machine.Marks
import WhitespaceLang.Proofs.Source.Grammar
import Mathlib.Data.Nat.Find

/-!
Loading a text with problems. The instructions of the text are added as they come, so the first mark
of a label that was marked before is what is reported, and only if there is none does it matter
whether the instructions ended with an error. Nothing else is a problem, in particular no label that
is used and nowhere marked.
-/

namespace WhitespaceLang
namespace Flow

/-- The instruction at `n` marks the label `l`, and so does one before it. -/
def MarksAgain (is : List Instr) (n : Nat) (l : Label) : Prop :=
  is[n]? = some (.mark l) ∧ ∃ m < n, is[m]? = some (.mark l)

/-- No position before `n` is one that marks a label again. -/
structure FirstMarksAgain (is : List Instr) (n : Nat) (l : Label) : Prop where
  again : MarksAgain is n l
  first : ∀ m < n, ∀ l', ¬ MarksAgain is m l'

section MarksAgain

variable {is : List Instr} {n : Nat} {l : Label}

theorem mem_marks_take_iff : l ∈ marks (is.take n) ↔ ∃ m < n, is[m]? = some (.mark l) := by
  rw [mem_marks, List.mem_iff_getElem?]
  refine exists_congr fun m => ?_
  rw [List.getElem?_take]
  split
  · next h => simp [h]
  · next h => simp [h]

/-- By induction on `n`: the next instruction marks no label again exactly if it can be added to the
ones before it. -/
theorem nodup_marks_take_iff :
    (marks (is.take n)).Nodup ↔ ∀ m < n, ∀ l, ¬ MarksAgain is m l := by
  induction n with
  | zero => simp [marks]
  | succ n ih =>
      have hnext : (∀ m < n + 1, ∀ l, ¬ MarksAgain is m l) ↔
          (∀ m < n, ∀ l, ¬ MarksAgain is m l) ∧ ∀ l, ¬ MarksAgain is n l := Nat.forall_lt_succ_right
      rw [hnext, ← ih, List.take_add_one]
      cases hi : is[n]? with
      | none =>
          rw [Option.toList_none, List.append_nil, iff_self_and]
          intro _ l hl
          cases hi.symm.trans hl.1
      | some i =>
          rw [Option.toList_some, nodup_marks_append_singleton]
          refine and_congr_right fun _ => forall_congr' fun l => ?_
          rw [MarksAgain, hi, Option.some.injEq, ← mem_marks_take_iff, not_and]

theorem nodup_marks_iff : (marks is).Nodup ↔ ∀ n l, ¬ MarksAgain is n l := by
  have hall : (marks (is.take is.length)).Nodup ↔ _ := nodup_marks_take_iff
  rw [List.take_length] at hall
  rw [hall]
  constructor
  · intro h n l hr
    exact h n (List.getElem?_eq_some_iff.mp hr.1).1 l hr
  · intro h n _ l
    exact h n l

theorem refusesAt_iff_firstMarksAgain : RefusesAt is n l ↔ FirstMarksAgain is n l := by
  rw [refusesAt_iff, nodup_marks_take_iff, mem_marks_take_iff]
  exact ⟨fun h => ⟨h.2, h.1⟩, fun h => ⟨h.first, h.again⟩⟩

theorem exists_firstMarksAgain (h : MarksAgain is n l) : ∃ m l', FirstMarksAgain is m l' := by
  classical
  have hsome : ∃ m, ∃ l', MarksAgain is m l' := ⟨n, l, h⟩
  obtain ⟨l', hl'⟩ := Nat.find_spec hsome
  exact ⟨Nat.find hsome, l', hl', fun m hm l'' hr => Nat.find_min hsome hm ⟨l'', hr⟩⟩

theorem addAll_append (is js : List Instr) (f : Flow) :
    f.addAll (is ++ js) = f.addAll is >>= fun g => g.addAll js := List.foldlM_append

/-- Where adding one by one is refused, adding all is. -/
theorem addAll_of_refusesAt (h : RefusesAt is n l) :
    empty.addAll is = .error (.duplicateLabel l) := by
  obtain ⟨f, i, hf, hi, hadd⟩ := h
  obtain ⟨hn, rfl⟩ := List.getElem?_eq_some_iff.mp hi
  rw [← List.take_append_drop n is, List.drop_eq_getElem_cons hn, addAll_append, hf]
  change f.addAll (is[n] :: is.drop (n + 1)) = _
  rw [addAll_cons, hadd]
  rfl

end MarksAgain

/-- The label table lists the marks in their order, each with its position. -/
theorem table_eq_filterMap (n : Nat) (is : List Instr) :
    table n is = (is.zipIdx n).filterMap fun p => p.1.mark?.map fun l => (l, p.2) := by
  induction is generalizing n with
  | nil => rfl
  | cons i is ih =>
      rw [table, ih, List.zipIdx_cons, List.filterMap_cons]
      cases i <;> rfl

section Load

variable {t : Text} {n : Nat} {l : Label}

theorem load_of_firstMarksAgain (h : FirstMarksAgain (instrsOf t).1 n l) :
    load t = .error (.program (.duplicateLabel l)) := by
  have hadd := addAll_of_refusesAt (refusesAt_iff_firstMarksAgain.mpr h)
  simp only [load_eq, hadd]

theorem load_of_problem {e : SourceError} (h : ∀ n l, ¬ MarksAgain (instrsOf t).1 n l)
    (he : (instrsOf t).2 = some e) : load t = .error (.source e) := by
  have hadd := addAll_eq_ok_iff.mpr ⟨nodup_marks_iff.mpr h, rfl⟩
  simp only [load_eq, hadd, he]

theorem load_of_distinct (h : ∀ n l, ¬ MarksAgain (instrsOf t).1 n l)
    (he : (instrsOf t).2 = none) : load t = .ok (ofInstrs (instrsOf t).1).finish := by
  have hadd := addAll_eq_ok_iff.mpr ⟨nodup_marks_iff.mpr h, rfl⟩
  simp only [load_eq, hadd, he]

/-- The instructions of a text never end with an opcode that was given the wrong kind of token. -/
theorem exists_lex_of_problem {e : SourceError} (h : (instrsOf t).2 = some e) :
    ∃ e', e = .lex e' := by
  obtain ⟨es, r, is, -, -, ⟨-, hdone⟩ | ⟨-, e', hlex, -⟩⟩ := Parser.exists_split t.symbols
  · rw [instrsOf, Lexer.ofText, hdone] at h
    cases h
  · rw [instrsOf, Lexer.ofText, hlex] at h
    cases h
    exact ⟨e', rfl⟩

theorem kind_of_load_eq_error {e : LoadError} (hload : load t = .error e) :
    e.kind = .duplicateLabel ∨ e.kind = .lex := by
  by_cases h : ∃ n l, MarksAgain (instrsOf t).1 n l
  · obtain ⟨n, l, hr⟩ := h
    obtain ⟨m, l', hfirst⟩ := exists_firstMarksAgain hr
    cases (load_of_firstMarksAgain hfirst).symm.trans hload
    exact .inl rfl
  · have hnone : ∀ n l, ¬ MarksAgain (instrsOf t).1 n l := fun n l hr => h ⟨n, l, hr⟩
    cases he : (instrsOf t).2 with
    | none => cases (load_of_distinct hnone he).symm.trans hload
    | some e' =>
        obtain ⟨e'', rfl⟩ := exists_lex_of_problem he
        cases (load_of_problem hnone he).symm.trans hload
        exact .inr rfl

end Load
end Flow

/-- Loading reports the first mark of a label that was marked before, wherever an error follows it,
and otherwise the error that ends the instructions. Without either it gives the program of all the
instructions, whether or not the labels that they use are marked. -/
theorem earliest_problem (t : Text) :
    let is := (Flow.instrsOf t).1
    let problem := (Flow.instrsOf t).2
    (∀ n l, Flow.MarksAgain is n l → ∃ m l' e, Flow.FirstMarksAgain is m l' ∧
      Flow.load t = .error e ∧ e.kind = .duplicateLabel ∧
      e.message = "Label " ++ l'.quoted ++ " defined twice") ∧
    ((∀ n l, ¬ Flow.MarksAgain is n l) →
      (∀ e, problem = some e → ∃ e', e = .lex e' ∧ Flow.load t = .error (.source (.lex e'))) ∧
      (problem = none → ∃ f, Flow.load t = .ok f ∧ f.phase = .ready ∧ f.ip = 0 ∧ f.calls = [] ∧
        f.program.toList = is ∧
        f.labels = is.zipIdx.filterMap fun p => p.1.mark?.map fun l => (l, p.2))) ∧
    ∀ e, Flow.load t = .error e → e.kind = .duplicateLabel ∨ e.kind = .lex := by
  intro is problem
  refine ⟨?_, ?_, fun e => Flow.kind_of_load_eq_error⟩
  · intro n l h
    obtain ⟨m, l', hfirst⟩ := Flow.exists_firstMarksAgain h
    exact ⟨m, l', _, hfirst, Flow.load_of_firstMarksAgain hfirst, rfl, rfl⟩
  · intro h
    constructor
    · intro e he
      obtain ⟨e', rfl⟩ := Flow.exists_lex_of_problem he
      exact ⟨e', rfl, Flow.load_of_problem h he⟩
    · intro he
      exact ⟨_, Flow.load_of_distinct h he, rfl, rfl, rfl, rfl, Flow.table_eq_filterMap 0 is⟩

end WhitespaceLang
