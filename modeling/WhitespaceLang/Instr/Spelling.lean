import WhitespaceLang.Instr

/-!
How instructions are written. An opcode has one code and a label one spelling, but a number may
have any number of leading zeros, and 0 either sign.
-/

namespace WhitespaceLang
namespace Spelling

/-- The binary digits of a number, most significant first and none for 0. -/
def binary (n : Nat) : List Bool :=
  if n = 0 then [] else binary (n / 2) ++ [n % 2 == 1]
termination_by n

def bitSymbol (b : Bool) : Symbol := if b then .tab else .space

/-- Bits and the feed that ends them. -/
def bits (bs : List Bool) : List Symbol := bs.map bitSymbol ++ [.feed]

/-- A sign that `n` may have. -/
def MaySign (n : Int) (sign : Symbol) : Prop :=
  (sign = .space ∧ 0 ≤ n) ∨ (sign = .tab ∧ n ≤ 0)

def Number (n : Int) (w : List Symbol) : Prop :=
  ∃ sign leadingZeros, MaySign n sign ∧
    List.replicate leadingZeros false ++ binary n.natAbs ≠ [] ∧
    w = sign :: bits (List.replicate leadingZeros false ++ binary n.natAbs)

end Spelling

/-- The symbols `w` are a way to write the instruction. -/
def InstrOf.Spells (i : Instr) (w : List Symbol) : Prop :=
  match i.number?, i.label? with
  | some n, _ => ∃ v, Spelling.Number n v ∧ w = i.opcode.code ++ v
  | none, some l => w = i.opcode.code ++ Spelling.bits l
  | none, none => w = i.opcode.code

/-- The shortest spelling, in which 0 is positive. -/
def InstrOf.spell (i : Instr) : List Symbol :=
  match i.number?, i.label? with
  | some n, _ =>
      i.opcode.code ++ Spelling.bitSymbol (n < 0) ::
        Spelling.bits (if n = 0 then [false] else Spelling.binary n.natAbs)
  | none, some l => i.opcode.code ++ Spelling.bits l
  | none, none => i.opcode.code

/-- A program text without comments. -/
def sourceOf (is : List Instr) : Text := Symbol.source (is.flatMap InstrOf.spell)

end WhitespaceLang
