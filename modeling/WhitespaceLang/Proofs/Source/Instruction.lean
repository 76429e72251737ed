import WhitespaceLang.Instr.Parser
import WhitespaceLang.Proofs.Source.Code
import WhitespaceLang.Proofs.Source.Literal

/-!
One instruction as the parser reads it from symbols. Spellings are described twice, by the
instruction they stand for and by their shape alone, and symbols that no spelling begins are given
the complaint that they deserve.
-/

namespace WhitespaceLang
namespace Spelling

/-- The symbols behind an opcode with this kind of parameter, whatever value they have. -/
inductive Param : Option ParamKind → List Symbol → Prop
  | none : Param none []
  | number {sign : Symbol} {digits : List Symbol} (hs : sign ≠ .feed) (hne : digits ≠ [])
      (hd : .feed ∉ digits) : Param (some .number) (sign :: (digits ++ [.feed]))
  | label {bits : List Symbol} (hb : .feed ∉ bits) : Param (some .label) (bits ++ [.feed])

/-- The shape of one instruction: a code and the parameter it asks for. -/
def Word (w : List Symbol) : Prop := ∃ (op : Opcode) (v : List Symbol), Param op.param v ∧
  w = op.code ++ v

theorem param_number {n : Int} {v : List Symbol} (h : Number n v) : Param (some .number) v := by
  obtain ⟨sign, k, hsign, hne, rfl⟩ := h
  exact .number hsign.ne_feed (by simpa using hne) (feed_not_mem_map_bitSymbol _)

theorem param_bits (l : Label) : Param (some .label) (bits l) :=
  .label (feed_not_mem_map_bitSymbol l)

end Spelling

open Spelling

section Completion

variable {op : Opcode}

theorem spells_whole {i : Instr} (h : op.completion = .whole i) (w : List Symbol) :
    i.Spells w ↔ w = op.code := by
  cases op <;> cases h <;> rfl

theorem spells_number {f : Int → Instr} (h : op.completion = .number f) (n : Int)
    (w : List Symbol) : (f n).Spells w ↔ ∃ v, Number n v ∧ w = op.code ++ v := by
  cases op <;> cases h <;> rfl

theorem spells_label {f : Label → Instr} (h : op.completion = .label f) (l : Label)
    (w : List Symbol) : (f l).Spells w ↔ w = op.code ++ bits l := by
  cases op <;> cases h <;> rfl

section Parts

variable {ν κ : Type}

theorem param_of_completion {c : Completion ν κ} (h : op.completion = c) : op.param = c.param := by
  have hparam : (op.completion : Completion ν κ).param = op.param := op.param_completion
  rw [← hparam, h]

theorem opcode_whole {i : InstrOf ν κ} (h : op.completion = .whole i) :
    i.opcode = op ∧ i.number? = none ∧ i.label? = none := by
  cases op <;> cases h <;> exact ⟨rfl, rfl, rfl⟩

theorem opcode_number {f : ν → InstrOf ν κ} (h : op.completion = .number f) (n : ν) :
    (f n).opcode = op ∧ (f n).number? = some n ∧ (f n).label? = none := by
  cases op <;> cases h <;> exact ⟨rfl, rfl, rfl⟩

theorem opcode_label {f : κ → InstrOf ν κ} (h : op.completion = .label f) (l : κ) :
    (f l).opcode = op ∧ (f l).number? = none ∧ (f l).label? = some l := by
  cases op <;> cases h <;> exact ⟨rfl, rfl, rfl⟩

end Parts
end Completion

/-- An instruction is made from its opcode and what the opcode asks for. -/
inductive InstrOf.Made : Instr → Prop
  | whole (op : Opcode) {i : Instr} (h : op.completion = .whole i) : Made i
  | number (op : Opcode) {f : Int → Instr} (h : op.completion = .number f) (n : Int) :
      Made (f n)
  | label (op : Opcode) {f : Label → Instr} (h : op.completion = .label f) (l : Label) :
      Made (f l)

theorem InstrOf.made (i : Instr) : Made i := by
  have alone (j : Instr) (h : j.opcode.completion = .whole j) : Made j := .whole j.opcode h
  cases i with
  | push n => exact .number .push rfl n
  | copy n => exact .number .copy rfl n
  | slide n => exact .number .slide rfl n
  | mark l => exact .label .mark rfl l
  | call l => exact .label .call rfl l
  | jump l => exact .label .jump rfl l
  | jumpZero l => exact .label .jumpZero rfl l
  | jumpNegative l => exact .label .jumpNegative rfl l
  | arith a => cases a <;> exact alone _ rfl
  | _ => exact alone _ rfl

theorem word_of_spells {i : Instr} {w : List Symbol} (h : i.Spells w) : Word w := by
  cases i.made with
  | whole op hc =>
      obtain rfl := (spells_whole hc w).mp h
      refine ⟨op, [], ?_, by simp⟩
      rw [param_of_completion hc]
      exact .none
  | number op hc n =>
      obtain ⟨v, hv, rfl⟩ := (spells_number hc n w).mp h
      refine ⟨op, v, ?_, rfl⟩
      rw [param_of_completion hc]
      exact param_number hv
  | label op hc l =>
      obtain rfl := (spells_label hc l w).mp h
      refine ⟨op, bits l, ?_, rfl⟩
      rw [param_of_completion hc]
      exact param_bits l

/-- Symbols of the shape of a number are a way to write one. -/
theorem Spelling.exists_number_of_param {v : List Symbol} (h : Param (some .number) v) :
    ∃ n, Number n v := by
  cases h with
  | number hs hne hd =>
      obtain ⟨bs, rfl⟩ := exists_map_bitSymbol_eq hd
      have hb : bs ≠ [] := by simpa using hne
      exact ⟨_, Lexer.number_signedValue hs hb⟩

theorem Spelling.exists_bits_of_param {v : List Symbol} (h : Param (some .label) v) :
    ∃ l, v = bits l := by
  cases h with
  | label hb =>
      obtain ⟨l, rfl⟩ := exists_map_bitSymbol_eq hb
      exact ⟨l, rfl⟩

theorem exists_spells_of_word {w : List Symbol} (h : Word w) : ∃ i : Instr, i.Spells w := by
  obtain ⟨op, v, hv, rfl⟩ := h
  cases hc : (op.completion : Completion Int Label) with
  | whole i =>
      rw [param_of_completion hc] at hv
      cases hv
      exact ⟨i, (spells_whole hc _).mpr (List.append_nil _)⟩
  | number f =>
      rw [param_of_completion hc] at hv
      obtain ⟨n, hn⟩ := exists_number_of_param hv
      exact ⟨f n, (spells_number hc n _).mpr ⟨v, hn, rfl⟩⟩
  | label f =>
      rw [param_of_completion hc] at hv
      obtain ⟨l, rfl⟩ := exists_bits_of_param hv
      exact ⟨f l, (spells_label hc l _).mpr rfl⟩

/-- The spellings are the words of the grammar. -/
theorem word_iff_spells {w : List Symbol} : Word w ↔ ∃ i : Instr, i.Spells w :=
  ⟨exists_spells_of_word, fun ⟨_, h⟩ => word_of_spells h⟩

/-- What is said of the symbols behind an opcode that asks for a number and gets none. -/
def numberComplaint : List Symbol → Text
  | .feed :: _ => "Number has no sign"
  | _ :: .feed :: _ => "Number has no digits"
  | _ => "Source ends inside number"

/-- What is said of symbols that no spelling begins. -/
inductive Complaint : List Symbol → Text → Prop
  | unfinished {w : List Symbol} (hno : ∀ op : Opcode, ¬ op.code <+: w)
      (h : Opcode.Unfinished w) :
      Complaint w ("Source ends inside instruction " ++ Symbol.letters w)
  | unknown {w u : List Symbol} (hno : ∀ op : Opcode, ¬ op.code <+: w) (hu : u <+: w)
      (hdead : ¬ Opcode.Unfinished u)
      (hleast : ∀ p, p <+: u → p ≠ u → Opcode.Unfinished p) :
      Complaint w ("Unknown instruction " ++ Symbol.letters u)
  | number {op : Opcode} (h : op.param = some .number) (v : List Symbol) :
      Complaint (op.code ++ v) (numberComplaint v)
  | label {op : Opcode} (h : op.param = some .label) (v : List Symbol) :
      Complaint (op.code ++ v) "Source ends inside label"

theorem numberComplaint_unended {sign : Symbol} {w : List Symbol} (hs : sign ≠ .feed)
    (hw : .feed ∉ w) : numberComplaint (sign :: w) = "Source ends inside number" := by
  cases w with
  | nil => cases sign <;> trivial
  | cons s w =>
      have hne : s ≠ .feed := by
        intro h
        subst h
        exact hw List.mem_cons_self
      cases sign <;> cases s <;> trivial

namespace Lexer

variable {w rest : List Symbol} {e : LexError}

theorem message_of_readNumber (h : readNumber w = (.error e, rest)) :
    e.message = numberComplaint w := by
  have hw := numberReading w
  rw [h] at hw
  cases hw with
  | noSign | empty => rfl
  | @noDigits sign _ hs =>
      cases sign with
      | space | tab => rfl
      | feed => exact absurd rfl hs
  | unended hs hw => exact (numberComplaint_unended hs hw).symm

theorem complaint_of_readOpcode (h : readOpcode [] w = (.error e, rest)) :
    Complaint w e.message := by
  have hw := opcodeReading w
  rw [h] at hw
  cases hw with
  | inside _ hopen => exact .unfinished hopen.not_code_isPrefix hopen
  | @unknown seen s rest hseen hcode hdead =>
      refine .unknown (Opcode.not_code_isPrefix_of_dead hseen hcode hdead) ⟨rest, by simp⟩ hdead ?_
      intro p hp hne
      obtain heq | hp := List.prefix_concat_iff.mp hp
      · exact absurd heq hne
      · exact hseen.of_isPrefix hp

end Lexer

namespace Parser
open Lexer

theorem finish_whole {op : Opcode} {i : Instr} (h : op.completion = .whole i) (lx : Lexer) :
    finish op lx = (.ok i, lx) := by
  simp only [finish, h]

theorem finish_number {op : Opcode} {f : Int → Instr} (h : op.completion = .number f)
    (w : List Symbol) :
    finish op (⟨w, op.param⟩ : Lexer) =
      ((readNumber w).1.map f |>.mapError .lex, ofSymbols (readNumber w).2) := by
  have hp : op.param = some .number := param_of_completion h
  simp only [finish, h, hp, TokenSource.next, Lexer.next]
  obtain ⟨e | n, rest⟩ := readNumber w <;> rfl

theorem finish_label {op : Opcode} {f : Label → Instr} (h : op.completion = .label f)
    (w : List Symbol) :
    finish op (⟨w, op.param⟩ : Lexer) =
      ((readLabel w).1.map f |>.mapError .lex, ofSymbols (readLabel w).2) := by
  have hp : op.param = some .label := param_of_completion h
  simp only [finish, h, hp, TokenSource.next, Lexer.next]
  obtain ⟨e | l, rest⟩ := readLabel w <;> rfl

/-- Behind a code the parser completes its opcode. -/
theorem next_code (op : Opcode) (w : List Symbol) :
    next (ofSymbols (op.code ++ w)) =
      ((finish op (⟨w, op.param⟩ : Lexer)).1.map some, (finish op (⟨w, op.param⟩ : Lexer)).2) := by
  simp only [next, TokenSource.next, Lexer.next, ofSymbols, readOpcode_code]
  obtain ⟨e | i, lx⟩ := finish op (⟨w, op.param⟩ : Lexer) <;> rfl

/-- A spelled instruction is read as that instruction, and nothing behind it is touched. -/
theorem next_spelled {i : Instr} {e : List Symbol} (h : i.Spells e) (rest : List Symbol) :
    next (ofSymbols (e ++ rest)) = (.ok (some i), ofSymbols rest) := by
  cases i.made with
  | whole op hc =>
      obtain rfl := (spells_whole hc e).mp h
      rw [next_code, finish_whole hc, param_of_completion hc]
      rfl
  | number op hc n =>
      obtain ⟨v, hv, rfl⟩ := (spells_number hc n e).mp h
      rw [List.append_assoc, next_code, finish_number hc, readNumber_spelled hv]
      rfl
  | label op hc l =>
      obtain rfl := (spells_label hc l e).mp h
      rw [List.append_assoc, next_code, finish_label hc, readLabel_spelled]
      rfl

/-- The ways to read an instruction from symbols, with the result. -/
inductive Reading : List Symbol → Except SourceError (Option Instr) × Lexer → Prop
  | instr {i : Instr} {e : List Symbol} (rest : List Symbol) (h : i.Spells e) :
      Reading (e ++ rest) (.ok (some i), ofSymbols rest)
  | ended : Reading [] (.ok none, ofSymbols [])
  | rejected {w : List Symbol} {e : LexError} (lx : Lexer) (hne : w ≠ [])
      (h : Complaint w e.message) : Reading w (.error (.lex e), lx)

theorem reading_number {op : Opcode} {f : Int → Instr} (hc : op.completion = .number f)
    (w : List Symbol) : Reading (op.code ++ w) (next (ofSymbols (op.code ++ w))) := by
  have hw := numberReading w
  rw [next_code, finish_number hc]
  cases hr : readNumber w with
  | mk r rest =>
      rw [hr] at hw
      cases r with
      | ok n =>
          cases hw with
          | number rest hv =>
              rw [← List.append_assoc]
              exact .instr rest ((spells_number hc _ _).mpr ⟨_, hv, rfl⟩)
      | error e =>
          have complaint := Complaint.number (param_of_completion hc) w
          rw [← message_of_readNumber hr] at complaint
          exact .rejected _ (by simp [Opcode.code_ne_nil]) complaint

theorem reading_label {op : Opcode} {f : Label → Instr} (hc : op.completion = .label f)
    (w : List Symbol) : Reading (op.code ++ w) (next (ofSymbols (op.code ++ w))) := by
  rw [next_code, finish_label hc]
  cases hb : readBits w with
  | some r =>
      rw [readBits_eq_some_iff.mp hb, readLabel_spelled, ← List.append_assoc]
      exact .instr r.2 ((spells_label hc r.1 _).mpr rfl)
  | none =>
      rw [readLabel_unended (readBits_eq_none_iff.mp hb)]
      exact .rejected _ (by simp [Opcode.code_ne_nil]) (.label (param_of_completion hc) w)

theorem reading_code (op : Opcode) (w : List Symbol) :
    Reading (op.code ++ w) (next (ofSymbols (op.code ++ w))) := by
  cases hc : (op.completion : Completion Int Label) with
  | whole i =>
      rw [next_code, finish_whole hc, param_of_completion hc]
      exact .instr w ((spells_whole hc _).mpr rfl)
  | number f => exact reading_number hc w
  | label f => exact reading_label hc w

/-- Where no code begins the symbols, the parser hands on what the lexer found. -/
theorem next_of_readOpcode {w : List Symbol} {e : LexError} {rest : List Symbol}
    (h : readOpcode [] w = (.error e, rest)) :
    next (ofSymbols w) = (.error (.lex e), ofSymbols rest) := by
  simp only [next, TokenSource.next, Lexer.next, ofSymbols, h]

theorem reading (w : List Symbol) : Reading w (next (ofSymbols w)) := by
  have hw := opcodeReading w
  generalize hr : readOpcode [] w = r at hw
  cases hw with
  | op op rest => exact reading_code op rest
  | ended => exact .ended
  | inside hne _ =>
      rw [next_of_readOpcode hr]
      exact .rejected _ hne (complaint_of_readOpcode hr)
  | unknown =>
      rw [next_of_readOpcode hr]
      exact .rejected _ (by simp) (complaint_of_readOpcode hr)

end Parser
end WhitespaceLang
