import WhitespaceLang.Decimal
import WhitespaceLang.Flow.Load

/-!
Listings of programs, one line for each instruction. Marks stand at the left margin and everything
else is indented:

    L_01:
        push 72
        printc
        jump L_01
-/

namespace WhitespaceLang
namespace Listing

def indent : Text := "    "

def labelName (l : Label) : Text := "L_" ++ l.text

/-- What follows the mnemonic. -/
def operand (i : Instr) : Except Decimal.TooLong Text :=
  match i.number?, i.label? with
  | some n, _ => (Decimal.write n).map (" " ++ ·)
  | none, some l => .ok (" " ++ labelName l)
  | none, none => .ok []

def line (i : Instr) : Except Decimal.TooLong Text :=
  match i with
  | .mark l => .ok (labelName l ++ ":")
  | i => (operand i).map ((indent ++ i.opcode.mnemonic) ++ ·)

/-- The lines up to the first number that is too long. -/
def lines : List Instr → List Text × Option Decimal.TooLong
  | [] => ([], none)
  | i :: rest =>
      match line i with
      | .ok l =>
          let (ls, e) := lines rest
          (l :: ls, e)
      | .error e => ([], some e)

inductive Problem where
  | source (e : SourceError)
  | tooLong (e : Decimal.TooLong)
  deriving DecidableEq, Repr

/-- The listing of a program text as far as it goes, and what ends it early. -/
def ofText (t : Text) : Text × Option Problem :=
  let (is, problem) := Flow.instrsOf t
  match lines is with
  | (ls, some e) => (Text.unlines ls, some (.tooLong e))
  | (ls, none) => (Text.unlines ls, problem.map .source)

end Listing
end WhitespaceLang
