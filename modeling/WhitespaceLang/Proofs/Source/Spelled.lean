import WhitespaceLang.Proofs.Machine.Marks
import WhitespaceLang.Proofs.Source.Decoding

/-!
Texts that spell a list of instructions. Such a text is loaded if no label is marked twice, and
every list of instructions has one.
-/

namespace WhitespaceLang

/-- The text is a spelling of the instructions, with comments anywhere between the symbols. -/
def Spelled (is : List Instr) (t : Text) : Prop :=
  ∃ es, List.Forall₂ InstrOf.Spells is es ∧ Text.Commented (Symbol.source es.flatten) t

namespace Spelling

theorem binary_ne_nil {n : Nat} (h : n ≠ 0) : binary n ≠ [] := by
  rw [binary, if_neg h]
  exact List.append_ne_nil_of_right_ne_nil _ (List.cons_ne_nil _ _)

/-- The shortest way to write a number is one of the ways to write it. -/
theorem number_shortest (n : Int) :
    Number n (bitSymbol (n < 0) :: bits (if n = 0 then [false] else binary n.natAbs)) := by
  have hsign : MaySign n (bitSymbol (n < 0)) := by
    by_cases hn : n < 0
    · exact .inr ⟨by simp [hn, bitSymbol], Int.le_of_lt hn⟩
    · exact .inl ⟨by simp [hn, bitSymbol], Int.not_lt.mp hn⟩
  by_cases hn : n = 0
  · -- The only digit of 0 is a leading zero.
    have hdigits : List.replicate 1 false ++ binary n.natAbs = [false] := by
      rw [hn, Int.natAbs_zero, binary]
      rfl
    refine ⟨_, 1, hsign, ?_, ?_⟩
    · rw [hdigits]
      exact List.cons_ne_nil _ _
    · rw [hdigits, if_pos hn]
  · have habs : n.natAbs ≠ 0 := Int.natAbs_ne_zero.mpr hn
    refine ⟨_, 0, hsign, binary_ne_nil habs, ?_⟩
    rw [if_neg hn]
    rfl

end Spelling

theorem InstrOf.spells_spell (i : Instr) : i.Spells i.spell := by
  cases i with
  | push n | copy n | slide n => exact ⟨_, Spelling.number_shortest n, rfl⟩
  | _ => rfl

theorem spelled_sourceOf (is : List Instr) : Spelled is (sourceOf is) := by
  refine ⟨is.map InstrOf.spell, ?_, ?_⟩
  · rw [List.forall₂_map_right_iff, List.forall₂_same]
    intro i _
    exact i.spells_spell
  · have hcomment := Text.commented_symbols (sourceOf is)
    rw [sourceOf, Text.symbols_source] at hcomment
    rw [← List.flatMap_def]
    exact hcomment

namespace Flow

variable {is : List Instr} {t : Text}

theorem instrsOf_of_spelled (h : Spelled is t) : instrsOf t = (is, none) := by
  obtain ⟨es, hspell, hcomment⟩ := h
  rw [instrsOf_eq_of_commented hcomment, Parser.instrs_flatten hspell]

/-- A text is loaded if all of it is read and no label is marked twice. -/
theorem load_eq_ok_iff {f : Flow} :
    load t = .ok f ↔
      ∃ is, instrsOf t = (is, none) ∧ (marks is).Nodup ∧ f = (ofInstrs is).finish := by
  rw [load_eq]
  obtain ⟨is, problem⟩ := instrsOf t
  cases hadd : empty.addAll is with
  | error e =>
      have hmarks : ¬ (marks is).Nodup := by
        intro h
        rw [addAll_eq_ok_iff.mpr ⟨h, rfl⟩] at hadd
        cases hadd
      simp [hmarks]
  | ok g =>
      obtain ⟨hmarks, rfl⟩ := addAll_eq_ok_iff.mp hadd
      cases problem with
      | none => simp [hmarks, eq_comm]
      | some e => simp

theorem load_of_spelled (h : Spelled is t) (hmarks : (marks is).Nodup) :
    load t = .ok (ofInstrs is).finish :=
  load_eq_ok_iff.mpr ⟨is, instrsOf_of_spelled h, hmarks, rfl⟩

end Flow
end WhitespaceLang
