import WhitespaceLang.ErrorKind
import WhitespaceLang.Machine.Run

/-!
A table of small programs with the output or the kind of error that each must give.
-/

namespace WhitespaceLang
namespace SelfTest

inductive Result where
  | output (t : Text)
  | failure (kind : ErrorKind)
  deriving DecidableEq, Repr

structure Case where
  /-- The program in visible letters. -/
  letters : Text
  stdin : Text
  expected : Result
  deriving Repr

def prints (letters stdin out : String) : Case := ⟨letters, stdin, .output out⟩

def fails (letters stdin : String) (kind : ErrorKind) : Case := ⟨letters, stdin, .failure kind⟩

def arithmetic : List Case :=
  [prints "SSSTL SSSTSL TSSS TLST LLL" "" "3",
    prints "SSSTSTL SSSTSL TSST TLST LLL" "" "3",
    prints "SSSTTL SSSTSL TSSL TLST LLL" "" "6",
    prints "SSTTTTL SSSTSL TSTS TLST LLL" "" "-4",
    prints "SSTTTTL SSSTSL TSTT TLST LLL" "" "1"]

def stack : List Case :=
  [prints "SSSTTL SLS TSSL TLST LLL" "" "9",
    prints "SSSTL SSSTSL STSSTL TLST TLST TLST LLL" "" "121",
    prints "SSSTL SSSTSL SSSTTL STLSTSL TLST LLL" "" "3",
    prints "SSSTSSTSSSL SSSTTSTSSTL SLT TLSS TLSS LLL" "" "Hi",
    prints "SSSTL SSSTSL SLL TLST LLL" "" "1"]

def heap : List Case :=
  [prints "SSSTSTSL SSSTSSSSSTL TTS SSSTSTSL TTT TLSS LLL" "" "A",
    prints "SSSTSTL TTT TLST LLL" "" "0"]

def flow : List Case :=
  [prints "SSSTL LSSSL SLS TLST SSSTL TSSS SLS SSSTSSL TSST LTSTL LSLSL LSSTL LLL" "" "123",
    prints "SSSTTTL LSTSL LLL LSSSL TLST LTL" "" "7",
    prints "LSLTL SSSTL TLST LSSTL SSSTSL TLST" "" "2",
    prints "SSTTL LTTSL SSSTL TLST LLL LSSSL SSSTSL TLST" "" "2"]

def input : List Case :=
  [prints "SSSSL TLTT SSSSL TTT TLST LLL" "42\n" "42",
    prints "SSSSL TLTS SSSSL TTT TLSS LLL" "x" "x",
    prints "SSSSL TLTS SSSSL TTT TLST LLL" "" "-1"]

def errors : List Case :=
  [fails "LTL" "" .underflow,
    fails "SLS" "" .underflow,
    fails "LSLTL" "" .undefinedLabel,
    fails "SSSTL SSSSL TSTS" "" .divisionByZero,
    fails "SSSTL SSSSL TSTT" "" .divisionByZero,
    fails "SSSSL TLTT" "abc" .numberFormat,
    fails "SSSSL TLTT" "" .numberFormat,
    fails "SSL" "" .lex,
    fails "SSSL" "" .lex,
    fails "STT" "" .lex,
    fails "SS" "" .lex,
    fails "LSSSL LSSSL" "" .duplicateLabel]

def cases : List Case := arithmetic ++ stack ++ heap ++ flow ++ input ++ errors

/-- More steps than any case takes. -/
def fuel : Nat := 1000

/-- What a case gives, if it comes to an end, and what is logged on the way. -/
def Case.run (c : Case) : Option Result × List Event :=
  match Flow.load c.letters.lettersToSource with
  | .error e => (some (.failure e.kind), [])
  | .ok f =>
      match f.run fuel (.ofText c.stdin) with
      | .error e => (some (.failure e.kind), [f.loadedEvent])
      | .ok none => (none, [f.loadedEvent])
      | .ok (some report) =>
          let result := match report.ending with
            | .finished => .output report.machine.data.device.output.text
            | .fault _ e => .failure e.kind
            | .tooLong _ => .failure .tooLong
          (some result, f.loadedEvent :: report.events)

def Case.passes (c : Case) : Bool := c.run.1 == some c.expected

def passed : Nat := cases.countP Case.passes

def allPass : Bool := passed == cases.length

def events : List Event := cases.flatMap fun c => c.run.2

def summary : Text :=
  "Tests: " ++ Decimal.natText passed ++ "/" ++ Decimal.natText cases.length ++ " passed\n"

end SelfTest
end WhitespaceLang
