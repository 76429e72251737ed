import WhitespaceLang.Flow.Load
import WhitespaceLang.Proofs.Source.Instruction
import Mathlib.Data.List.Forall2

/-!
Decoding undoes encoding. Whatever spelling each instruction is given and whatever comments are put
between the symbols, the instructions read from the text are the ones that were written.
-/

namespace WhitespaceLang
namespace Text

/-- The text `t` is `w` with comments put anywhere. Only a space, a tab and a line feed are no
comments. -/
inductive Commented : (w t : Text) → Prop
  | nil : Commented [] []
  | symbol {w t : Text} (s : Symbol) (h : Commented w t) :
      Commented (s.codePoint :: w) (s.codePoint :: t)
  | comment {w t : Text} {c : CodePoint} (hc : ∀ s : Symbol, c ≠ s.codePoint)
      (h : Commented w t) : Commented w (c :: t)

theorem symbols_codePoint (s : Symbol) (t : Text) :
    symbols (s.codePoint :: t) = s :: symbols t :=
  List.filterMap_cons_some (Symbol.ofCodePoint?_codePoint s)

theorem symbols_comment {c : CodePoint} (hc : ∀ s : Symbol, c ≠ s.codePoint) (t : Text) :
    symbols (c :: t) = symbols t := by
  have h : Symbol.ofCodePoint? c = none := by simp [Symbol.ofCodePoint?, hc]
  exact List.filterMap_cons_none h

@[simp] theorem symbols_source (w : List Symbol) : symbols (Symbol.source w) = w := by
  induction w with
  | nil => rfl
  | cons s w ih =>
      have h := symbols_codePoint s (Symbol.source w)
      rw [ih] at h
      exact h

/-- Comments do not change the symbols of a text. -/
theorem Commented.symbols_eq {w t : Text} (h : Commented w t) : t.symbols = w.symbols := by
  induction h with
  | nil => rfl
  | symbol s _ ih => rw [symbols_codePoint, symbols_codePoint, ih]
  | comment hc _ ih => rw [symbols_comment hc, ih]

/-- Every text is its symbols with comments in between. -/
theorem commented_symbols (t : Text) : Commented (Symbol.source t.symbols) t := by
  induction t with
  | nil => exact .nil
  | cons c t ih =>
      by_cases hc : ∃ s : Symbol, c = s.codePoint
      · obtain ⟨s, rfl⟩ := hc
        rw [symbols_codePoint]
        exact .symbol s ih
      · have hc := not_exists.mp hc
        rw [symbols_comment hc]
        exact .comment hc ih

/-- A text has one way to be symbols with comments in between. -/
theorem commented_source_iff {w : List Symbol} {t : Text} :
    Commented (Symbol.source w) t ↔ w = t.symbols := by
  constructor
  · intro h
    rw [h.symbols_eq, symbols_source]
  · rintro rfl
    exact t.commented_symbols

end Text

namespace Parser

open Lexer

/-- Spelled instructions come first, and what follows them is read as if they were not there. -/
theorem instrs_spelled {is : List Instr} {es : List (List Symbol)}
    (h : List.Forall₂ InstrOf.Spells is es) (rest : List Symbol) :
    instrs (ofSymbols (es.flatten ++ rest)) =
      (is ++ (instrs (ofSymbols rest)).1, (instrs (ofSymbols rest)).2) := by
  induction h with
  | nil => rfl
  | cons hi _ ih =>
      rw [List.flatten_cons, List.append_assoc, instrs_of_next_instr (next_spelled hi _), ih]
      rfl

theorem instrs_nil : instrs (ofSymbols []) = (([] : List Instr), none) := by
  have hnext : next (ofSymbols []) = (.ok (none : Option Instr), ofSymbols []) := rfl
  exact instrs_of_next_ended hnext

theorem instrs_flatten {is : List Instr} {es : List (List Symbol)}
    (h : List.Forall₂ InstrOf.Spells is es) : instrs (ofSymbols es.flatten) = (is, none) := by
  have hspelled := instrs_spelled h []
  rwa [List.append_nil, instrs_nil, List.append_nil] at hspelled

end Parser

/-- Comments are not read. -/
theorem Flow.instrsOf_eq_of_commented {w : List Symbol} {t : Text}
    (h : Text.Commented (Symbol.source w) t) :
    Flow.instrsOf t = Parser.instrs (Lexer.ofSymbols w) := by
  rw [Flow.instrsOf, Lexer.ofText, h.symbols_eq, Text.symbols_source]

/-- The instructions of a text are the ones that were spelled and no error follows them, whichever
spellings were chosen and wherever comments stand. -/
theorem instrsOf_commented {is : List Instr} {es : List (List Symbol)} {t : Text}
    (hspell : List.Forall₂ InstrOf.Spells is es)
    (hcomment : Text.Commented (Symbol.source es.flatten) t) :
    Flow.instrsOf t = (is, none) := by
  rw [Flow.instrsOf_eq_of_commented hcomment, Parser.instrs_flatten hspell]

/-- A zero that is written negative with three digits, and the empty label, between comments. -/
theorem instrsOf_zero_and_empty_label :
    let es : List (List Symbol) :=
      [[.space, .space, .tab, .space, .space, .space, .feed], [.feed, .space, .space, .feed]]
    let t : Text := "a  b\t   \r\n\n  c\n"
    List.Forall₂ InstrOf.Spells [.push 0, .mark []] es ∧
      Text.Commented (Symbol.source es.flatten) t ∧
      Flow.instrsOf t = ([.push 0, .mark []], none) := by
  intro es t
  have hspell : List.Forall₂ InstrOf.Spells [.push 0, .mark []] es := by
    refine .cons ⟨_, ⟨.tab, 3, .inr ⟨rfl, by decide⟩, by simp, rfl⟩, ?_⟩ (.cons rfl .nil)
    simp [Spelling.binary, Spelling.bits, Spelling.bitSymbol, InstrOf.opcode, Opcode.code]
  have hsymbols : t.symbols = es.flatten := by decide
  have hcomment : Text.Commented (Symbol.source es.flatten) t := by
    rw [← hsymbols]
    exact Text.commented_symbols t
  exact ⟨hspell, hcomment, instrsOf_commented hspell hcomment⟩

end WhitespaceLang
