import WhitespaceLang.Opcode
import WhitespaceLang.Label

/-!
Tokens, and the places they come from. A token source gives one token at a time and has less left
afterwards, which is what makes reading it to the end terminate.
-/

namespace WhitespaceLang

inductive TokenOf (ν κ : Type) where
  | op (o : Opcode)
  | number (n : ν)
  | label (l : κ)
  deriving DecidableEq, Repr

abbrev Token := TokenOf Int Label

/-- Why the next token of a program text cannot be read. -/
inductive LexError where
  | insideInstruction (code : List Symbol)
  | unknownInstruction (code : List Symbol)
  | noSign
  | noDigits
  | insideNumber
  | insideLabel
  deriving DecidableEq, Repr

namespace LexError

def message : LexError → Text
  | insideInstruction code => "Source ends inside instruction " ++ Symbol.letters code
  | unknownInstruction code => "Unknown instruction " ++ Symbol.letters code
  | noSign => "Number has no sign"
  | noDigits => "Number has no digits"
  | insideNumber => "Source ends inside number"
  | insideLabel => "Source ends inside label"

end LexError

/-- `next` gives the token at the front and what is left, no token at the end. -/
class TokenSource (σ : Type) (ν κ : outParam Type) where
  next : σ → Except LexError (Option (TokenOf ν κ)) × σ
  size : σ → Nat
  size_lt : ∀ {s s' : σ} {t : TokenOf ν κ}, next s = (.ok (some t), s') → size s' < size s

/-- A ready-made list of tokens. -/
instance {ν κ : Type} : TokenSource (List (TokenOf ν κ)) ν κ where
  next ts := (.ok ts.head?, ts.tail)
  size := List.length
  size_lt := by
    intro s s' t h
    cases s with
    | nil => simp at h
    | cons a rest =>
        obtain ⟨-, rfl⟩ := Prod.mk.inj h
        simp

namespace TokenSource

variable {σ ν κ : Type} [TokenSource σ ν κ]

/-- The tokens up to the end or the first error. -/
def tokens (s : σ) : List (TokenOf ν κ) × Option LexError :=
  match h : next s with
  | (.error e, _) => ([], some e)
  | (.ok none, _) => ([], none)
  | (.ok (some t), s') =>
      have := size_lt h
      let (ts, e) := tokens s'
      (t :: ts, e)
termination_by size s

end TokenSource
end WhitespaceLang
