import WhitespaceLang.Proofs.Source.Calls
import Mathlib.Data.List.Induction

/-!
Tokens and instructions asked of one lexer by turns. A literal is owed exactly when the last call
was for a token and gave an opcode that asks for one. Only then can the parser come upon a literal
where an instruction should begin, and it never misses one that an opcode of its own asks for.
-/

namespace WhitespaceLang
open Spelling

/-- What is asked of a lexer: a token, or an instruction by way of the parser. -/
inductive Call where
  | token
  | instr
  deriving DecidableEq, Repr

/-- What the parser says when it comes upon a literal. -/
def literalComplaint : ParamKind → Text
  | .number => "Expected an instruction, got a number"
  | .label => "Expected an instruction, got a label"

namespace Parser
open Lexer

section Owed

variable {kind : ParamKind} {w : List Symbol}

theorem next_of_lexer_error {lx lx' : Lexer} {e : LexError} (h : lx.next = (.error e, lx')) :
    next lx = (.error (.lex e), lx') := by
  simp only [next, TokenSource.next, h]

/-- The parser completes an opcode or hands on why it cannot. Either way nothing is owed. -/
theorem exists_finish (op : Opcode) (w : List Symbol) :
    ∃ r rest, finish op (⟨w, op.param⟩ : Lexer) = (r, ofSymbols rest) ∧
      ∀ e, r ≠ .error (.parse e) := by
  cases hc : (op.completion : Completion Int Label) with
  | whole i =>
      rw [finish_whole hc, param_of_completion hc]
      exact ⟨_, w, rfl, nofun⟩
  | number f =>
      rw [finish_number hc]
      refine ⟨_, _, rfl, ?_⟩
      cases (readNumber w).1 <;> nofun
  | label f =>
      rw [finish_label hc]
      refine ⟨_, _, rfl, ?_⟩
      cases (readLabel w).1 <;> nofun

theorem exists_next_ofSymbols (w : List Symbol) :
    ∃ r rest, next (ofSymbols w) = (r, ofSymbols rest) ∧ ∀ e, r ≠ .error (.parse e) := by
  have hw := opcodeReading w
  generalize hr : readOpcode [] w = r at hw
  cases hw with
  | op op rest =>
      obtain ⟨r, rest', hfinish, hne⟩ := exists_finish op rest
      rw [next_code, hfinish]
      refine ⟨_, rest', rfl, ?_⟩
      cases r with
      | ok i => nofun
      | error e' =>
          intro e he
          cases he
          exact hne e rfl
  | ended => exact ⟨_, [], rfl, nofun⟩
  | inside | unknown => exact ⟨_, _, next_of_readOpcode hr, nofun⟩

/-- A literal that is owed is taken, and it is no instruction. -/
theorem next_of_literal {v : List Symbol} (hv : Param (some kind) v) (rest : List Symbol) :
    next (⟨v ++ rest, some kind⟩ : Lexer) =
      (.error (.parse (.expectedInstruction kind)), ofSymbols rest) := by
  cases kind with
  | number =>
      obtain ⟨n, hn⟩ := exists_number_of_param hv
      simp only [next, TokenSource.next, next_number, readNumber_spelled hn, Except.map]
  | label =>
      obtain ⟨l, rfl⟩ := exists_bits_of_param hv
      simp only [next, TokenSource.next, next_label, readLabel_spelled, Except.map]

theorem next_of_no_literal (hno : ∀ v, Param (some kind) v → ¬ v <+: w) :
    ∃ e rest, next (⟨w, some kind⟩ : Lexer) = (.error (.lex e), ofSymbols rest) ∧
      ∀ op : Opcode, op.param = some kind → Complaint (op.code ++ w) e.message := by
  obtain ⟨u, ha⟩ := Lexer.exists_answering ⟨w, some kind⟩
  generalize hr : Lexer.next ⟨w, some kind⟩ = r at ha
  cases ha with
  | number hv rest => exact absurd (List.prefix_append _ _) (hno _ (param_number hv))
  | label l rest => exact absurd (List.prefix_append _ _) (hno _ (param_bits l))
  | noLiteral rest _ hcomplaint => exact ⟨_, rest, next_of_lexer_error hr, hcomplaint⟩

end Owed

/-- What the parser can find where it looks for an instruction. It never leaves anything owed. -/
inductive Finding : Lexer → Except SourceError (Option Instr) × Lexer → Prop
  | clear {r : Except SourceError (Option Instr)} (w rest : List Symbol)
      (h : ∀ e, r ≠ .error (.parse e)) : Finding (ofSymbols w) (r, ofSymbols rest)
  | literal {kind : ParamKind} {v : List Symbol} (hv : Param (some kind) v) (rest : List Symbol) :
      Finding ⟨v ++ rest, some kind⟩
        (.error (.parse (.expectedInstruction kind)), ofSymbols rest)
  | noLiteral {kind : ParamKind} {w : List Symbol} {e : LexError} (rest : List Symbol)
      (hno : ∀ v, Param (some kind) v → ¬ v <+: w) :
      Finding ⟨w, some kind⟩ (.error (.lex e), ofSymbols rest)

theorem finding (lx : Lexer) : Finding lx (next lx) := by
  obtain ⟨w, owed⟩ := lx
  cases owed with
  | none =>
      obtain ⟨r, rest, hnext, hne⟩ := exists_next_ofSymbols w
      have hfound : Finding (ofSymbols w) (r, ofSymbols rest) := .clear w rest hne
      rw [← hnext] at hfound
      exact hfound
  | some kind =>
      by_cases h : ∃ v, Param (some kind) v ∧ v <+: w
      · obtain ⟨v, hv, rest, rfl⟩ := h
        rw [next_of_literal hv]
        exact .literal hv rest
      · have hno : ∀ v, Param (some kind) v → ¬ v <+: w := fun v hv hp => h ⟨v, hv, hp⟩
        obtain ⟨e, rest, hnext, -⟩ := next_of_no_literal hno
        rw [hnext]
        exact .noLiteral rest hno

section Finding

variable (lx : Lexer)

theorem owed_next : (next lx).2.owed = none := by
  have hfound := finding lx
  generalize next lx = r at hfound
  cases hfound <;> rfl

theorem next_eq_parse_error_iff :
    (∃ e, (next lx).1 = .error (.parse e)) ↔
      ∃ kind v, lx.owed = some kind ∧ Param (some kind) v ∧ v <+: lx.rest := by
  have hfound := finding lx
  generalize next lx = r at hfound
  cases hfound with
  | clear w rest h => simp [ofSymbols, h]
  | literal hv rest => exact iff_of_true ⟨_, rfl⟩ ⟨_, _, rfl, hv, List.prefix_append _ _⟩
  | noLiteral rest hno =>
      refine iff_of_false ?_ ?_
      · intro h
        obtain ⟨e, he⟩ := h
        cases he
      · intro h
        obtain ⟨kind, v, howed, hv, hp⟩ := h
        cases howed
        exact hno v hv hp

theorem next_ne_needs (op : Opcode) (kind : ParamKind) :
    (next lx).1 ≠ .error (.parse (.needs op kind)) := by
  have hfound := finding lx
  generalize next lx = r at hfound
  cases hfound with
  | clear w rest h => exact h _
  | literal | noLiteral => nofun

end Finding
end Parser

namespace Lexer

theorem owed_next_iff (lx : Lexer) (kind : ParamKind) :
    lx.next.2.owed = some kind ↔
      ∃ op, lx.next.1 = .ok (some (.op op)) ∧ op.param = some kind := by
  obtain ⟨u, ha⟩ := exists_answering lx
  generalize lx.next = r at ha
  cases ha with
  | op op rest => simp
  | ended | number | label | noCode | noLiteral => simp [ofSymbols]

/-- The lexer behind a call, which may have failed. -/
def behind (lx : Lexer) : Call → Lexer
  | .token => lx.next.2
  | .instr => (Parser.next lx).2

def behindAll (lx : Lexer) (cs : List Call) : Lexer := cs.foldl behind lx

theorem behindAll_append_singleton (lx : Lexer) (cs : List Call) (c : Call) :
    lx.behindAll (cs ++ [c]) = (lx.behindAll cs).behind c :=
  List.foldl_concat _ _ _ _

/-- The last of the calls was for a token, and it gave an opcode with this kind of parameter. -/
def Announces (lx : Lexer) (cs : List Call) (op : Opcode) (kind : ParamKind) : Prop :=
  ∃ before, cs = before ++ [.token] ∧
    (lx.behindAll before).next.1 = .ok (some (.op op)) ∧ op.param = some kind

variable {lx : Lexer} {cs : List Call} {kind : ParamKind}

/-- By the last call: one for an instruction leaves nothing owed. -/
theorem owed_behindAll_iff (h : lx.owed = none) :
    (lx.behindAll cs).owed = some kind ↔ ∃ op, lx.Announces cs op kind := by
  cases cs using List.reverseRecOn with
  | nil =>
      rw [behindAll, List.foldl_nil, h]
      refine ⟨nofun, ?_⟩
      intro hop
      obtain ⟨op, before, hnil, -⟩ := hop
      exact absurd hnil.symm (List.append_ne_nil_of_right_ne_nil _ (List.cons_ne_nil _ _))
  | append_singleton cs c =>
      rw [behindAll_append_singleton]
      constructor
      · intro howed
        cases c with
        | token =>
            obtain ⟨op, hop, hparam⟩ := (owed_next_iff _ kind).mp howed
            exact ⟨op, cs, rfl, hop, hparam⟩
        | instr =>
            rw [behind, Parser.owed_next] at howed
            cases howed
      · intro hop
        obtain ⟨op, before, heq, hop, hparam⟩ := hop
        obtain ⟨rfl, hc⟩ := List.append_inj' heq rfl
        cases hc
        exact (owed_next_iff _ kind).mpr ⟨op, hop, hparam⟩

theorem Announces.param_eq {op : Opcode} (h : lx.Announces cs op kind) : op.param = some kind := by
  obtain ⟨before, -, -, hparam⟩ := h
  exact hparam

theorem not_announces_of_instrs (h : ∀ c ∈ cs, c = .instr) (op : Opcode) :
    ¬ lx.Announces cs op kind := by
  intro ha
  obtain ⟨before, rfl, -⟩ := ha
  cases h .token (by simp)

end Lexer

/-- Behind any calls for tokens and instructions, whether or not they failed, the parser finds
tokens that do not fit together only if the last call gave an opcode whose literal follows. It takes
that literal and says so, and the next instruction may begin behind it. If the literal is broken,
the lexer says why. -/
theorem interleaved_readers (t : Text) (cs : List Call) :
    let lx := (Lexer.ofText t).behindAll cs
    ((∃ e, (Parser.next lx).1 = .error (.parse e)) ↔
      ∃ op kind v, (Lexer.ofText t).Announces cs op kind ∧ Param (some kind) v ∧ v <+: lx.rest) ∧
    (∀ op kind, (Lexer.ofText t).Announces cs op kind →
      (∀ v rest, Param (some kind) v → lx.rest = v ++ rest →
        ∃ e, Parser.next lx = (.error (.parse e), Lexer.ofSymbols rest) ∧
          e.message = literalComplaint kind) ∧
      ((∀ v, Param (some kind) v → ¬ v <+: lx.rest) →
        ∃ e rest, Parser.next lx = (.error (.lex e), Lexer.ofSymbols rest) ∧
          Complaint (op.code ++ lx.rest) e.message)) ∧
    ((∀ c ∈ cs, c = .instr) → ∀ e, (Parser.next lx).1 ≠ .error (.parse e)) ∧
    ∀ op kind, (Parser.next lx).1 ≠ .error (.parse (.needs op kind)) := by
  intro lx
  have howed (kind : ParamKind) :
      lx.owed = some kind ↔ ∃ op, (Lexer.ofText t).Announces cs op kind :=
    Lexer.owed_behindAll_iff rfl
  have hparse : (∃ e, (Parser.next lx).1 = .error (.parse e)) ↔
      ∃ op kind v, (Lexer.ofText t).Announces cs op kind ∧ Param (some kind) v ∧
        v <+: lx.rest := by
    rw [Parser.next_eq_parse_error_iff]
    constructor
    · intro h
      obtain ⟨kind, v, hkind, hv, hp⟩ := h
      obtain ⟨op, hop⟩ := (howed kind).mp hkind
      exact ⟨op, kind, v, hop, hv, hp⟩
    · intro h
      obtain ⟨op, kind, v, hop, hv, hp⟩ := h
      exact ⟨kind, v, (howed kind).mpr ⟨op, hop⟩, hv, hp⟩
  refine ⟨hparse, ?_, ?_, Parser.next_ne_needs lx⟩
  · intro op kind hop
    have hparam : op.param = some kind := hop.param_eq
    have hlx : lx = ⟨lx.rest, some kind⟩ := by rw [← (howed kind).mpr ⟨op, hop⟩]
    constructor
    · intro v rest hv hrest
      rw [hrest] at hlx
      rw [hlx, Parser.next_of_literal hv]
      refine ⟨_, rfl, ?_⟩
      cases kind <;> rfl
    · intro hno
      obtain ⟨e, rest, hnext, hcomplaint⟩ := Parser.next_of_no_literal hno
      rw [← hlx] at hnext
      exact ⟨e, rest, hnext, hcomplaint op hparam⟩
  · intro hall e he
    obtain ⟨op, kind, v, hop, -⟩ := hparse.mp ⟨e, he⟩
    exact Lexer.not_announces_of_instrs hall op hop

end WhitespaceLang
