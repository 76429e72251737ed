import WhitespaceLang.Decimal
import WhitespaceLang.Instr

/-!
What can go wrong while an instruction runs. A fault belongs to the program and is reported with
the instruction's position. A number with too many digits is refused by the conversion itself, and
that refusal is not among the faults.
-/

namespace WhitespaceLang

inductive Fault where
  | underflow
  | cannotCopy (n : Int)
  | cannotSlide (n : Int)
  | returnOutside
  | undefinedLabel (l : Label)
  | divisionByZero (op : Arith)
  | readFailed (why : Text)
  | writeFailed (why : Text)
  | flushFailed (why : Text)
  | notACharacter (n : Int)
  | noNumberLeft
  | notANumber (word : Text)
  deriving DecidableEq, Repr

namespace Fault

def message : Fault → Text
  | underflow => "Stack underflow"
  | cannotCopy n => "Cannot copy item " ++ Decimal.text n
  | cannotSlide n => "Cannot slide " ++ Decimal.text n ++ " items"
  | returnOutside => "Return outside a subroutine"
  | undefinedLabel l => "Undefined label " ++ l.quoted
  | divisionByZero op => op.opcode.name ++ " by zero"
  | readFailed why => "Read failed: " ++ why
  | writeFailed why => "Write failed: " ++ why
  | flushFailed why => "Flush failed: " ++ why
  | notACharacter n => "Not a character: " ++ Decimal.text n
  | noNumberLeft => "No number left in input"
  | notANumber word => "Not a number: " ++ word.quoted

end Fault

inductive Failure where
  | fault (f : Fault)
  | tooLong (e : Decimal.TooLong)
  deriving DecidableEq, Repr

namespace Failure

/-- A fault that names a number, if the number can be written. -/
def naming (n : Int) (f : Fault) : Failure :=
  if Decimal.Fits n then .fault f else .tooLong .writing

def message : Failure → Text
  | fault f => f.message
  | tooLong e => e.message

end Failure
end WhitespaceLang
