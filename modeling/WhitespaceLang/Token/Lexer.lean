import WhitespaceLang.Token

/-!
Reading tokens from the symbols of a program. An opcode with a parameter leaves the lexer owing a
number or a label, and whatever the next token turns out to be, the debt is gone after it.
-/

namespace WhitespaceLang

structure Lexer where
  rest : List Symbol
  owed : Option ParamKind
  deriving DecidableEq, Repr

namespace Lexer

def ofSymbols (w : List Symbol) : Lexer := ⟨w, none⟩

def ofText (t : Text) : Lexer := ofSymbols t.symbols

/-- Reads on until the symbols spell an opcode; those in `seen` are read already. -/
def readOpcode (seen : List Symbol) : List Symbol → Except LexError (Option Opcode) × List Symbol
  | [] => if seen = [] then (.ok none, []) else (.error (.insideInstruction seen), [])
  | s :: rest =>
      match Opcode.ofCode? (seen ++ [s]) with
      | some op => (.ok (some op), rest)
      | none =>
          if Opcode.isPartialCode (seen ++ [s]) then readOpcode (seen ++ [s]) rest
          else (.error (.unknownInstruction (seen ++ [s])), rest)

/-- The bits before the next feed and the symbols behind it, if there is a feed. -/
def readBits (w : List Symbol) : Option (List Bool × List Symbol) :=
  match w.dropWhile (· != .feed) with
  | [] => none
  | _ :: rest => some ((w.takeWhile (· != .feed)).map (· == .tab), rest)

def ofBits (bits : List Bool) : Nat := bits.foldl (fun n b => 2 * n + b.toNat) 0

def signedValue (sign : Symbol) (bits : List Bool) : Int :=
  if sign = .tab then -(ofBits bits : Int) else ofBits bits

def readNumber : List Symbol → Except LexError Int × List Symbol
  | [] => (.error .insideNumber, [])
  | .feed :: rest => (.error .noSign, rest)
  | sign :: rest =>
      match readBits rest with
      | none => (.error .insideNumber, [])
      | some ([], rest) => (.error .noDigits, rest)
      | some (bits, rest) => (.ok (signedValue sign bits), rest)

def readLabel (w : List Symbol) : Except LexError Label × List Symbol :=
  match readBits w with
  | none => (.error .insideLabel, [])
  | some (bits, rest) => (.ok bits, rest)

def next (lx : Lexer) : Except LexError (Option Token) × Lexer :=
  match lx.owed with
  | some .number =>
      match readNumber lx.rest with
      | (.ok n, rest) => (.ok (some (.number n)), ofSymbols rest)
      | (.error e, rest) => (.error e, ofSymbols rest)
  | some .label =>
      match readLabel lx.rest with
      | (.ok l, rest) => (.ok (some (.label l)), ofSymbols rest)
      | (.error e, rest) => (.error e, ofSymbols rest)
  | none =>
      match readOpcode [] lx.rest with
      | (.ok (some op), rest) => (.ok (some (.op op)), ⟨rest, op.param⟩)
      | (.ok none, rest) => (.ok none, ofSymbols rest)
      | (.error e, rest) => (.error e, ofSymbols rest)

theorem readOpcode_length_lt {seen w rest : List Symbol} {op : Opcode}
    (h : readOpcode seen w = (.ok (some op), rest)) : rest.length < w.length := by
  induction w generalizing seen with
  | nil =>
      simp only [readOpcode] at h
      split at h <;> simp at h
  | cons s w ih =>
      simp only [readOpcode] at h
      split at h
      · simp only [Prod.mk.injEq] at h
        simp [h.2]
      · split at h
        · exact Nat.lt_succ_of_lt (ih h)
        · simp at h

theorem readBits_length_lt {w rest : List Symbol} {bits : List Bool}
    (h : readBits w = some (bits, rest)) : rest.length < w.length := by
  have hd := (List.dropWhile_sublist (· != Symbol.feed) (l := w)).length_le
  unfold readBits at h
  split at h
  · simp at h
  · next r heq =>
      simp only [Option.some.injEq, Prod.mk.injEq] at h
      rw [heq, List.length_cons, h.2] at hd
      omega

theorem readNumber_length_lt {w rest : List Symbol} {n : Int}
    (h : readNumber w = (.ok n, rest)) : rest.length < w.length := by
  unfold readNumber at h
  split at h
  · simp at h
  · simp at h
  · split at h
    · simp at h
    · simp at h
    · next hb =>
        obtain ⟨-, rfl⟩ := Prod.mk.inj h
        exact Nat.lt_succ_of_lt (readBits_length_lt hb)

theorem readLabel_length_lt {w rest : List Symbol} {l : Label}
    (h : readLabel w = (.ok l, rest)) : rest.length < w.length := by
  unfold readLabel at h
  split at h
  · simp at h
  · next hb =>
      obtain ⟨-, rfl⟩ := Prod.mk.inj h
      exact readBits_length_lt hb

/-- A token takes at least one symbol. -/
theorem next_rest_length_lt {lx lx' : Lexer} {t : Token}
    (h : next lx = (.ok (some t), lx')) : lx'.rest.length < lx.rest.length := by
  unfold next at h
  split at h
  · split at h
    · next hr =>
        obtain ⟨-, rfl⟩ := Prod.mk.inj h
        exact readNumber_length_lt hr
    · simp at h
  · split at h
    · next hr =>
        obtain ⟨-, rfl⟩ := Prod.mk.inj h
        exact readLabel_length_lt hr
    · simp at h
  · split at h
    · next hr =>
        obtain ⟨-, rfl⟩ := Prod.mk.inj h
        exact readOpcode_length_lt hr
    · simp at h
    · simp at h

instance : TokenSource Lexer Int Label where
  next := next
  size lx := lx.rest.length
  size_lt := next_rest_length_lt

end Lexer
end WhitespaceLang
