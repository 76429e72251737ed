import WhitespaceLang.Text.Basic

/-!
Decimal text of integers. Numbers of any size are computed with, but only numbers of at most
`maxDigits` digits are written or read.
-/

namespace WhitespaceLang
namespace Decimal

/-- Signs do not count, leading zeros of a number that is read do. Proofs never unfold the value,
which would write out numbers with that many digits. -/
@[irreducible] def maxDigits : Nat := 4300

/-- A conversion that was refused. Writing does not count the digits, reading does. -/
inductive TooLong where
  | writing
  | reading (digits : Nat)
  deriving DecidableEq, Repr

def digit (n : Nat) : CodePoint := CodePoint.ofNat (0x30 + n % 10)

/-- The digits of `n` in front of a text. -/
def digitsBefore (n : Nat) (rest : Text) : Text :=
  if n < 10 then digit n :: rest else digitsBefore (n / 10) (digit n :: rest)
termination_by n

def natText (n : Nat) : Text := digitsBefore n []

/-- The decimal text of any integer, whatever its length. -/
def text : Int → Text
  | .ofNat n => natText n
  | .negSucc n => CodePoint.ofChar '-' :: natText (n + 1)

def Fits (n : Int) : Prop := n.natAbs < Nat.pow 10 maxDigits

instance (n : Int) : Decidable (Fits n) := inferInstanceAs (Decidable (_ < _))

def write (n : Int) : Except TooLong Text :=
  if Fits n then .ok (text n) else .error .writing

def isDigit (c : CodePoint) : Bool := 0x30 ≤ c.val && c.val ≤ 0x39

/-- The number that a run of digits stands for. -/
def value (digits : Text) : Nat := digits.foldl (fun n c => 10 * n + (c.val - 0x30)) 0

inductive ReadError where
  | malformed
  | tooLong (e : TooLong)
  deriving DecidableEq, Repr

/-- Whether a minus sign leads the text, and the text without its sign. -/
def signed : Text → Bool × Text
  | [] => (false, [])
  | c :: rest =>
      if c = CodePoint.ofChar '-' then (true, rest)
      else if c = CodePoint.ofChar '+' then (false, rest)
      else (false, c :: rest)

/-- An optional sign, then one digit or more and nothing else. -/
def IsNumeral (t : Text) : Prop :=
  (signed t).2 ≠ [] ∧ (signed t).2.all isDigit = true

instance (t : Text) : Decidable (IsNumeral t) := inferInstanceAs (Decidable (_ ∧ _))

/-- The number that a numeral stands for. -/
def numeralValue (t : Text) : Int :=
  if (signed t).1 then -(value (signed t).2 : Int) else value (signed t).2

def read (t : Text) : Except ReadError Int :=
  if IsNumeral t then
    if (signed t).2.length ≤ maxDigits then .ok (numeralValue t)
    else .error (.tooLong (.reading (signed t).2.length))
  else .error .malformed

namespace TooLong

def message : TooLong → Text
  | writing =>
      "Exceeds the limit (4300 digits) for integer string conversion; " ++
        "use sys.set_int_max_str_digits() to increase the limit"
  | reading digits =>
      "Exceeds the limit (4300 digits) for integer string conversion: value has " ++
        natText digits ++ " digits; use sys.set_int_max_str_digits() to increase the limit"

end TooLong
end Decimal
end WhitespaceLang
