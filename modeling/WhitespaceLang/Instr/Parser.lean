import WhitespaceLang.Token
import WhitespaceLang.Instr

/-!
Reading instructions from a token source: an opcode, and the number or label it asks for.
-/

namespace WhitespaceLang

inductive ParseError where
  | expectedInstruction (got : ParamKind)
  | needs (op : Opcode) (kind : ParamKind)
  deriving DecidableEq, Repr

namespace ParseError

def message : ParseError → Text
  | expectedInstruction got => "Expected an instruction, got a " ++ got.word
  | needs op kind => op.name ++ " needs a " ++ kind.word

end ParseError

/-- Why the next instruction cannot be read: its tokens are broken or do not fit together. -/
inductive SourceError where
  | lex (e : LexError)
  | parse (e : ParseError)
  deriving DecidableEq, Repr

namespace SourceError

def message : SourceError → Text
  | lex e => e.message
  | parse e => e.message

end SourceError

namespace Parser

variable {σ ν κ : Type} [TokenSource σ ν κ]

/-- Completes an opcode with what it asks for. -/
def finish (op : Opcode) (s : σ) : Except SourceError (InstrOf ν κ) × σ :=
  match op.completion with
  | .whole i => (.ok i, s)
  | .number f =>
      match TokenSource.next s with
      | (.ok (some (.number n)), s) => (.ok (f n), s)
      | (.ok _, s) => (.error (.parse (.needs op .number)), s)
      | (.error e, s) => (.error (.lex e), s)
  | .label f =>
      match TokenSource.next s with
      | (.ok (some (.label l)), s) => (.ok (f l), s)
      | (.ok _, s) => (.error (.parse (.needs op .label)), s)
      | (.error e, s) => (.error (.lex e), s)

/-- The next instruction, or none at the end. -/
def next (s : σ) : Except SourceError (Option (InstrOf ν κ)) × σ :=
  match TokenSource.next s with
  | (.ok none, s) => (.ok none, s)
  | (.ok (some (.number _)), s) => (.error (.parse (.expectedInstruction .number)), s)
  | (.ok (some (.label _)), s) => (.error (.parse (.expectedInstruction .label)), s)
  | (.error e, s) => (.error (.lex e), s)
  | (.ok (some (.op op)), s) =>
      match finish op s with
      | (.ok i, s) => (.ok (some i), s)
      | (.error e, s) => (.error e, s)

theorem finish_size_le {op : Opcode} {s s' : σ} {i : InstrOf ν κ}
    (h : finish op s = (.ok i, s')) : TokenSource.size s' ≤ TokenSource.size s := by
  unfold finish at h
  split at h
  · obtain ⟨-, rfl⟩ := Prod.mk.inj h
    exact Nat.le_refl _
  · split at h
    · next hn =>
        obtain ⟨-, rfl⟩ := Prod.mk.inj h
        exact Nat.le_of_lt (TokenSource.size_lt hn)
    · simp at h
    · simp at h
  · split at h
    · next hn =>
        obtain ⟨-, rfl⟩ := Prod.mk.inj h
        exact Nat.le_of_lt (TokenSource.size_lt hn)
    · simp at h
    · simp at h

theorem next_size_lt {s s' : σ} {i : InstrOf ν κ}
    (h : next s = (.ok (some i), s')) : TokenSource.size s' < TokenSource.size s := by
  unfold next at h
  split at h
  · simp at h
  · simp at h
  · simp at h
  · simp at h
  · next hn =>
      split at h
      · next hf =>
          obtain ⟨-, rfl⟩ := Prod.mk.inj h
          exact Nat.lt_of_le_of_lt (finish_size_le hf) (TokenSource.size_lt hn)
      · simp at h

/-- The instructions up to the end or the first error. -/
def instrs (s : σ) : List (InstrOf ν κ) × Option SourceError :=
  match h : next s with
  | (.error e, _) => ([], some e)
  | (.ok none, _) => ([], none)
  | (.ok (some i), s') =>
      have := next_size_lt h
      let (is, e) := instrs s'
      (i :: is, e)
termination_by TokenSource.size s

theorem instrs_of_next_instr {s s' : σ} {i : InstrOf ν κ} (h : next s = (.ok (some i), s')) :
    instrs s = (i :: (instrs s').1, (instrs s').2) := by
  rw [instrs]
  split
  · next heq => rw [h] at heq; cases heq
  · next heq => rw [h] at heq; cases heq
  · next heq =>
      rw [h] at heq
      cases heq
      rfl

theorem instrs_of_next_ended {s s' : σ} (h : next s = (.ok (none : Option (InstrOf ν κ)), s')) :
    instrs s = ([], none) := by
  rw [instrs]
  split
  · next heq => rw [h] at heq; cases heq
  · rfl
  · next heq => rw [h] at heq; cases heq

theorem instrs_of_next_error {s s' : σ} {e : SourceError} (h : next s = (.error e, s')) :
    instrs s = ([], some e) := by
  rw [instrs]
  split
  · next heq =>
      rw [h] at heq
      cases heq
      rfl
  · next heq => rw [h] at heq; cases heq
  · next heq => rw [h] at heq; cases heq

end Parser
end WhitespaceLang
