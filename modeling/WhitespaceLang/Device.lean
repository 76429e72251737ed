import WhitespaceLang.Device.Input
import WhitespaceLang.Device.Output
import WhitespaceLang.Fault

/-!
Character and number input and output of a running program.
-/

namespace WhitespaceLang

structure Device where
  input : Input
  output : Output
  deriving DecidableEq, Repr

namespace Device

/-- Reads from a text and keeps the output as text. -/
def ofText (t : Text) : Device := ⟨.ofText t, .plain⟩

/-- The number of the next character, or -1 at the end of the input. -/
def readChar (d : Device) : Except Failure Int × Device :=
  match d.input.read with
  | (.ok (some c), input) => (.ok c.val, { d with input })
  | (.ok none, input) => (.ok (-1), { d with input })
  | (.error why, input) => (.error (.fault (.readFailed why)), { d with input })

/-- The number that a word of input stands for. -/
def numberOfWord (word : Text) : Except Failure Int :=
  match Decimal.read word with
  | .ok n => .ok n
  | .error .malformed => .error (.fault (.notANumber word))
  | .error (.tooLong e) => .error (.tooLong e)

/-- Skips blanks and reads one word, with the blank that ends it. -/
def readNumber (d : Device) : Except Failure Int × Device :=
  match d.input.readPastBlanks with
  | (.error why, input) => (.error (.fault (.readFailed why)), { d with input })
  | (.ok none, input) => (.error (.fault .noNumberLeft), { d with input })
  | (.ok (some c), input) =>
      match input.readWord with
      | (.error why, input) => (.error (.fault (.readFailed why)), { d with input })
      | (.ok word, input) => (numberOfWord (c :: word), { d with input })

def write (t : Text) (d : Device) : Except Failure Unit × Device :=
  match d.output.write t with
  | (.ok (), output) => (.ok (), { d with output })
  | (.error why, output) => (.error (.fault (.writeFailed why)), { d with output })

def printChar (n : Int) (d : Device) : Except Failure Unit × Device :=
  match CodePoint.ofInt? n with
  | some c => d.write [c]
  | none => (.error (.naming n (.notACharacter n)), d)

def printNumber (n : Int) (d : Device) : Except Failure Unit × Device :=
  match Decimal.write n with
  | .ok t => d.write t
  | .error e => (.error (.tooLong e), d)

def flush (d : Device) : Except Fault Unit × Device :=
  match d.output.flush with
  | (.ok (), output) => (.ok (), { d with output })
  | (.error why, output) => (.error (.flushFailed why), { d with output })

end Device
end WhitespaceLang
