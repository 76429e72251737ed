import WhitespaceLang.Flow
import WhitespaceLang.Instr.Parser
import WhitespaceLang.Token.Lexer

/-!
Loading a program text. Of two problems in a text the earlier one is reported, so a label defined
twice wins over a broken instruction behind it.
-/

namespace WhitespaceLang

inductive LoadError where
  | source (e : SourceError)
  | program (e : ProgramError)
  deriving DecidableEq, Repr

namespace LoadError

def message : LoadError → Text
  | source e => e.message
  | program e => e.message

end LoadError

namespace Flow

/-- The instructions of a text up to its end or its first error. -/
def instrsOf (t : Text) : List Instr × Option SourceError := Parser.instrs (Lexer.ofText t)

/-- Adds the instructions to come one by one, up to the end or the first problem. -/
def loadFrom (lx : Lexer) (f : Flow) : Except LoadError Flow :=
  match h : Parser.next lx with
  | (.error e, _) => .error (.source e)
  | (.ok none, _) => .ok f.finish
  | (.ok (some i), lx') =>
      have := Parser.next_size_lt h
      match f.add i with
      | .error e => .error (.program e)
      | .ok f => loadFrom lx' f
termination_by TokenSource.size lx

def load (t : Text) : Except LoadError Flow := loadFrom (Lexer.ofText t) empty

end Flow
end WhitespaceLang
