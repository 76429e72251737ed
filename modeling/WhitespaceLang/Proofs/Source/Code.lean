import WhitespaceLang.Token.Lexer
import Mathlib.Data.List.Infix

/-!
Opcodes as the lexer reads them. The codes are prefix free, so symbols begin with at most one of
them, and symbols that begin with none are given up at the first one that rules all codes out.
-/

namespace WhitespaceLang
namespace Opcode

theorem code_ne_nil (op : Opcode) : op.code ≠ [] := by
  cases op <;> decide

theorem ofCode?_eq_some_iff {w : List Symbol} {op : Opcode} :
    ofCode? w = some op ↔ op.code = w := by
  constructor
  · intro h
    exact eq_of_beq (List.find?_some (p := fun o : Opcode => o.code == w) h)
  · intro h
    subst h
    exact ofCode?_code op

/-- Some code begins with `w` and goes on behind it. -/
def Unfinished (w : List Symbol) : Prop := ∃ op : Opcode, w <+: op.code ∧ w ≠ op.code

theorem isPartialCode_iff {w : List Symbol} : isPartialCode w = true ↔ Unfinished w := by
  simp only [isPartialCode, Unfinished, List.any_eq_true, Bool.and_eq_true,
    List.isPrefixOf_iff_prefix, bne_iff_ne]
  exact ⟨fun ⟨op, _, h⟩ => ⟨op, h⟩, fun ⟨op, h⟩ => ⟨op, mem_all op, h⟩⟩

theorem unfinished_nil : Unfinished [] := ⟨.push, List.nil_prefix, by decide⟩

/-- Symbols begin with at most one code. -/
theorem eq_of_codes_isPrefix {a b : Opcode} {w : List Symbol} (ha : a.code <+: w)
    (hb : b.code <+: w) : a = b := by
  obtain h | h := List.prefix_or_prefix_of_prefix ha hb
  · exact eq_of_code_isPrefix h
  · exact (eq_of_code_isPrefix h).symm

theorem Unfinished.not_code_isPrefix {w : List Symbol} (h : Unfinished w) (op : Opcode) :
    ¬ op.code <+: w := by
  intro hop
  obtain ⟨o, ho, hne⟩ := h
  obtain rfl := eq_of_code_isPrefix (hop.trans ho)
  exact hne (List.IsPrefix.eq_of_length_le ho hop.length_le)

theorem Unfinished.of_isPrefix {u w : List Symbol} (h : Unfinished w) (hu : u <+: w) :
    Unfinished u := by
  obtain ⟨o, ho, hne⟩ := h
  refine ⟨o, hu.trans ho, ?_⟩
  intro h
  subst h
  exact hne (List.IsPrefix.eq_of_length_le ho hu.length_le)

/-- Where the next symbol completes no code and leaves none open, no code begins the text. -/
theorem not_code_isPrefix_of_dead {seen rest : List Symbol} {s : Symbol}
    (hseen : Unfinished seen) (hcode : ofCode? (seen ++ [s]) = none)
    (hdead : ¬ Unfinished (seen ++ [s])) (op : Opcode) :
    ¬ op.code <+: seen ++ s :: rest := by
  intro hop
  have hlong : seen ++ [s] <+: seen ++ s :: rest := ⟨rest, by simp⟩
  obtain h | h := List.prefix_or_prefix_of_prefix hop hlong
  · obtain heq | hshort := List.prefix_concat_iff.mp h
    · rw [ofCode?_eq_some_iff.mpr heq] at hcode
      exact Option.some_ne_none op hcode
    · exact hseen.not_code_isPrefix op hshort
  · refine hdead ⟨op, h, fun heq => ?_⟩
    rw [ofCode?_eq_some_iff.mpr heq.symm] at hcode
    exact Option.some_ne_none op hcode

end Opcode

namespace Lexer
open Opcode

/-- The ways to read an opcode, with the symbols taken and the result. -/
inductive OpcodeReading : List Symbol → Except LexError (Option Opcode) × List Symbol → Prop
  | op (op : Opcode) (rest : List Symbol) : OpcodeReading (op.code ++ rest) (.ok (some op), rest)
  | ended : OpcodeReading [] (.ok none, [])
  | inside {seen : List Symbol} (hne : seen ≠ []) (h : Unfinished seen) :
      OpcodeReading seen (.error (.insideInstruction seen), [])
  | unknown {seen : List Symbol} {s : Symbol} (rest : List Symbol)
      (hseen : Unfinished seen) (hcode : ofCode? (seen ++ [s]) = none)
      (hdead : ¬ Unfinished (seen ++ [s])) :
      OpcodeReading (seen ++ s :: rest) (.error (.unknownInstruction (seen ++ [s])), rest)

/-- The symbols seen so far are always the beginning of a code, so reading on from there is the
same as reading everything at once. -/
theorem opcodeReading_append {seen : List Symbol} (w : List Symbol)
    (h : Unfinished seen) : OpcodeReading (seen ++ w) (readOpcode seen w) := by
  induction w generalizing seen with
  | nil =>
      rw [List.append_nil, readOpcode]
      split
      · next hs =>
          subst hs
          exact .ended
      · next hs => exact .inside hs h
  | cons s w ih =>
      rw [readOpcode]
      split
      · next op hop =>
          have hw : seen ++ s :: w = op.code ++ w := by
            rw [ofCode?_eq_some_iff.mp hop, List.append_assoc, List.singleton_append]
          rw [hw]
          exact .op op w
      · next hcode =>
          split
          · next hs =>
              have hw : seen ++ s :: w = seen ++ [s] ++ w := by simp
              rw [hw]
              exact ih (isPartialCode_iff.mp hs)
          · next hs => exact .unknown w h hcode (mt isPartialCode_iff.mpr hs)

theorem opcodeReading (w : List Symbol) : OpcodeReading w (readOpcode [] w) :=
  opcodeReading_append w unfinished_nil

/-- A code is read as its opcode, and nothing behind it is touched. -/
theorem readOpcode_code (op : Opcode) (rest : List Symbol) :
    readOpcode [] (op.code ++ rest) = (.ok (some op), rest) := by
  cases op <;> rfl

end Lexer
end WhitespaceLang
