import WhitespaceLang.Instr.Listing
import WhitespaceLang.Text.LineEnd
import WhitespaceLang.Proofs.Listing.Numeral
import WhitespaceLang.Proofs.Machine.Marks
import WhitespaceLang.Proofs.Source.Instruction

/-!
The lines of a listing. A mark begins at the left margin, and every other line is indented and
holds a mnemonic up to its next blank. So a line tells its instruction, and no line holds the end
of a line.
-/

namespace WhitespaceLang

def CodePoint.blank : CodePoint := .ofChar ' '

namespace Text

variable {c : CodePoint} {u u' v v' : Text}

theorem takeWhile_append_of_not_mem (hu : c ∉ u) (hv : v.takeWhile (· ≠ c) = []) :
    (u ++ v).takeWhile (· ≠ c) = u := by
  rw [List.takeWhile_append_of_pos, hv, List.append_nil]
  intro a ha
  rw [decide_eq_true_eq]
  intro heq
  exact hu (heq ▸ ha)

/-- A text is cut where a separator comes for the first time, or where it ends. -/
theorem append_inj_of_not_mem (hu : c ∉ u) (hu' : c ∉ u') (hv : v.takeWhile (· ≠ c) = [])
    (hv' : v'.takeWhile (· ≠ c) = []) (h : u ++ v = u' ++ v') : u = u' ∧ v = v' := by
  have hfront := congrArg (List.takeWhile (· ≠ c)) h
  rw [takeWhile_append_of_not_mem hu hv, takeWhile_append_of_not_mem hu' hv'] at hfront
  subst hfront
  exact ⟨rfl, List.append_cancel_left h⟩

end Text

namespace Opcode

theorem mnemonic_injective {a b : Opcode}
    (h : (a.mnemonic : Text) = b.mnemonic) : a = b := by
  have hnodup : (all.map fun op => Text.ofString op.mnemonic).Nodup := by decide
  exact List.inj_on_of_nodup_map hnodup a.mem_all b.mem_all h

/-- A mnemonic is one word. -/
theorem not_mem_mnemonic (op : Opcode) :
    .blank ∉ (op.mnemonic : Text) ∧ Text.lineFeed ∉ (op.mnemonic : Text) := by
  cases op <;> decide

end Opcode

namespace Label

theorem text_injective {l l' : Label} (h : l.text = l'.text) : l = l' := by
  refine List.map_injective_iff.mpr ?_ h
  intro b b'
  cases b <;> cases b' <;> decide

theorem lineFeed_not_mem_text (l : Label) : Text.lineFeed ∉ l.text := by
  intro h
  obtain ⟨b, -, hb⟩ := List.mem_map.mp h
  cases b <;> revert hb <;> decide

end Label

theorem Decimal.lineFeed_not_mem_text (n : Int) : Text.lineFeed ∉ text n := by
  intro h
  obtain hdigit | hminus := mem_text h
  · exact absurd hdigit (by decide)
  · exact absurd hminus (by decide)

namespace InstrOf

variable {i : Instr}

theorem eq_of_whole {j : Instr} (h : i.opcode.completion = .whole j) : i = j := by
  cases i with
  | arith a => cases a <;> cases h <;> rfl
  | _ => cases h <;> rfl

theorem exists_of_number {f : Int → Instr} (h : i.opcode.completion = .number f) :
    ∃ n, i = f n := by
  cases i with
  | arith a => cases a <;> cases h
  | _ => cases h <;> exact ⟨_, rfl⟩

theorem exists_of_label {f : Label → Instr} (h : i.opcode.completion = .label f) :
    ∃ l, i = f l := by
  cases i with
  | arith a => cases a <;> cases h
  | _ => cases h <;> exact ⟨_, rfl⟩

end InstrOf

namespace Listing

theorem labelName_injective {l l' : Label} (h : labelName l = labelName l') : l = l' :=
  Label.text_injective (List.append_cancel_left h)

theorem lineFeed_not_mem_labelName (l : Label) : Text.lineFeed ∉ labelName l := by
  rw [labelName, List.mem_append]
  rintro (h | h)
  · exact absurd h (by decide)
  · exact l.lineFeed_not_mem_text h

section Completion

variable {op : Opcode} {o : Text}

theorem operand_whole {i : Instr} (h : op.completion = .whole i) : operand i = .ok o ↔ o = [] := by
  obtain ⟨-, hn, hl⟩ := opcode_whole h
  simp only [operand, hn, hl, Except.ok.injEq, eq_comm]

theorem operand_number {f : Int → Instr} (h : op.completion = .number f) (n : Int) :
    operand (f n) = .ok o ↔ Decimal.Fits n ∧ o = .blank :: Decimal.text n := by
  have hmap : operand (f n) = (Decimal.write n).map (CodePoint.blank :: ·) := by
    simp only [operand, (opcode_number h n).2.1]
    rfl
  rw [hmap, Decimal.write]
  split
  · next hfits => simp [Except.map, hfits, eq_comm]
  · next hfits => simp [Except.map, hfits]

theorem operand_label {f : Label → Instr} (h : op.completion = .label f) (l : Label) :
    operand (f l) = .ok o ↔ o = .blank :: labelName l := by
  obtain ⟨-, hn, hl⟩ := opcode_label h l
  simp only [operand, hn, hl, Except.ok.injEq, eq_comm]
  rfl

end Completion

variable {i j : Instr} {o : Text}

/-- Behind a mnemonic comes a blank and more, or nothing. -/
theorem operand_shape (h : operand i = .ok o) :
    o = [] ∨ ∃ w, Text.lineFeed ∉ w ∧ o = .blank :: w := by
  cases i.made with
  | whole op hc => exact .inl ((operand_whole hc).mp h)
  | number op hc n =>
      exact .inr ⟨_, Decimal.lineFeed_not_mem_text n, ((operand_number hc n).mp h).2⟩
  | label op hc l => exact .inr ⟨_, lineFeed_not_mem_labelName l, (operand_label hc l).mp h⟩

/-- Only a number can keep an instruction from being written. -/
theorem exists_operand (h : ∀ n, i.number? = some n → Decimal.Fits n) :
    ∃ o, operand i = .ok o := by
  cases i.made with
  | whole op hc => exact ⟨_, (operand_whole hc).mpr rfl⟩
  | number op hc n => exact ⟨_, (operand_number hc n).mpr ⟨h n (opcode_number hc n).2.1, rfl⟩⟩
  | label op hc l => exact ⟨_, (operand_label hc l).mpr rfl⟩

/-- Of instructions with the same opcode the operand tells which it is. -/
theorem operand_injective (hop : i.opcode = j.opcode) (hi : operand i = .ok o)
    (hj : operand j = .ok o) : i = j := by
  cases hc : (i.opcode.completion : Completion Int Label) with
  | whole k => rw [InstrOf.eq_of_whole hc, InstrOf.eq_of_whole (i := j) (hop ▸ hc)]
  | number f =>
      obtain ⟨n, rfl⟩ := InstrOf.exists_of_number hc
      obtain ⟨m, rfl⟩ := InstrOf.exists_of_number (i := j) (hop ▸ hc)
      obtain ⟨-, rfl⟩ := (operand_number hc n).mp hi
      obtain ⟨-, heq⟩ := (operand_number hc m).mp hj
      rw [Decimal.text_injective (List.tail_eq_of_cons_eq heq)]
  | label f =>
      obtain ⟨l, rfl⟩ := InstrOf.exists_of_label hc
      obtain ⟨l', rfl⟩ := InstrOf.exists_of_label (i := j) (hop ▸ hc)
      obtain rfl := (operand_label hc l).mp hi
      have heq := (operand_label hc l').mp hj
      rw [labelName_injective (List.tail_eq_of_cons_eq heq)]

/-- The line of a mark is at the margin and that of any other instruction is indented. -/
inductive Line (i : Instr) : Text → Prop
  | mark {l : Label} (h : i = .mark l) : Line i (labelName l ++ ":")
  | indented {o : Text} (h : i.mark? = none) (ho : operand i = .ok o) :
      Line i (indent ++ (i.opcode.mnemonic ++ o))

theorem line_eq_ok_iff {t : Text} : line i = .ok t ↔ Line i t := by
  cases hm : i.mark? with
  | some l =>
      obtain rfl := InstrOf.mark?_eq_some_iff.mp hm
      constructor
      · intro h
        cases h
        exact .mark rfl
      · intro h
        cases h with
        | mark h => cases h; rfl
        | indented h => cases h
  | none =>
      have hline : line i = (operand i).map ((indent ++ i.opcode.mnemonic) ++ ·) := by
        cases i with
        | mark l => cases hm
        | _ => rfl
      rw [hline]
      constructor
      · intro h
        cases ho : operand i with
        | error e => rw [ho] at h; cases h
        | ok o =>
            rw [ho] at h
            cases h
            simp only [List.append_assoc]
            exact .indented hm ho
      · intro h
        cases h with
        | mark h => rw [h] at hm; cases hm
        | indented _ ho =>
            rw [ho, ← List.append_assoc]
            rfl

theorem exists_line (h : ∀ n, i.number? = some n → Decimal.Fits n) : ∃ t, Line i t := by
  cases hm : i.mark? with
  | some l => exact ⟨_, .mark (InstrOf.mark?_eq_some_iff.mp hm)⟩
  | none =>
      obtain ⟨o, ho⟩ := exists_operand h
      exact ⟨_, .indented hm ho⟩

theorem Line.indent_isPrefix_iff {t : Text} (h : Line i t) : indent <+: t ↔ i.mark? = none := by
  cases h with
  | @mark l h =>
      subst h
      refine ⟨fun hindent => ?_, fun hm => nomatch hm⟩
      -- A mark begins with a letter.
      exact absurd (List.cons_prefix_cons.mp hindent).1 (by decide)
  | indented h ho => exact ⟨fun _ => h, fun _ => List.prefix_append _ _⟩

theorem Line.lineFeed_not_mem {t : Text} (h : Line i t) : Text.lineFeed ∉ t := by
  cases h with
  | @mark l h =>
      rw [List.mem_append, not_or]
      exact ⟨lineFeed_not_mem_labelName l, by decide⟩
  | indented h ho =>
      rw [List.mem_append, List.mem_append, not_or, not_or]
      refine ⟨by decide, i.opcode.not_mem_mnemonic.2, ?_⟩
      obtain rfl | ⟨w, hw, rfl⟩ := operand_shape ho
      · exact List.not_mem_nil
      · exact List.not_mem_cons_of_ne_of_not_mem (by decide) hw

theorem takeWhile_operand (h : operand i = .ok o) : o.takeWhile (· ≠ .blank) = [] := by
  obtain rfl | ⟨w, -, rfl⟩ := operand_shape h <;> rfl

/-- No two instructions have the same line. -/
theorem Line.injective {t : Text} (hi : Line i t) (hj : Line j t) : i = j := by
  have hmark := hi.indent_isPrefix_iff.symm.trans hj.indent_isPrefix_iff
  generalize ht' : t = t' at hj
  cases hi with
  | @mark l h =>
      cases hj with
      | @mark l' h' =>
          rw [h, h', labelName_injective (List.append_cancel_right ht')]
      | indented h' ho' => exact absurd (hmark.mpr h') (h ▸ nofun)
  | indented h ho =>
      cases hj with
      | mark h' => exact absurd (hmark.mp h) (h' ▸ nofun)
      | indented h' ho' =>
          -- A mnemonic ends where the first blank comes, so both lines are cut in the same place.
          have htail := List.append_cancel_left ht'
          obtain ⟨hword, rfl⟩ := Text.append_inj_of_not_mem i.opcode.not_mem_mnemonic.1
            j.opcode.not_mem_mnemonic.1 (takeWhile_operand ho) (takeWhile_operand ho') htail
          exact operand_injective (Opcode.mnemonic_injective hword) ho ho'

end Listing
end WhitespaceLang
