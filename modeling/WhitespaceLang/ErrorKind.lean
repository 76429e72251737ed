import WhitespaceLang.Flow.Load

/-!
The kinds that errors are told apart by, coarser than their causes.
-/

namespace WhitespaceLang

inductive ErrorKind where
  | lex
  | parse
  /-- A misuse of a program as a whole. -/
  | program
  | duplicateLabel
  | undefinedLabel
  | underflow
  | divisionByZero
  | device
  | numberFormat
  | tooLong
  deriving DecidableEq, Repr

def SourceError.kind : SourceError → ErrorKind
  | lex _ => .lex
  | parse _ => .parse

def ProgramError.kind : ProgramError → ErrorKind
  | duplicateLabel _ => .duplicateLabel
  | alreadyLoaded | stillLoading => .program

def LoadError.kind : LoadError → ErrorKind
  | source e => e.kind
  | program e => e.kind

def Fault.kind : Fault → ErrorKind
  | underflow | cannotCopy _ | cannotSlide _ | returnOutside => .underflow
  | undefinedLabel _ => .undefinedLabel
  | divisionByZero _ => .divisionByZero
  | readFailed _ | writeFailed _ | flushFailed _ | notACharacter _ => .device
  | noNumberLeft | notANumber _ => .numberFormat

def Failure.kind : Failure → ErrorKind
  | fault f => f.kind
  | tooLong _ => .tooLong

end WhitespaceLang
