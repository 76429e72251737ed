import WhitespaceLang.Text.Basic

/-!
Line ends of a text stream: a carriage return and a pair of carriage return and line feed each
become one line feed.
-/

namespace WhitespaceLang
namespace Text

def carriageReturn : CodePoint := CodePoint.ofChar '\r'

def lineFeed : CodePoint := CodePoint.ofChar '\n'

/-- A line feed right after a carriage return belongs to it and is dropped. -/
def unifyLineEndsFrom (afterReturn : Bool) : Text → Text
  | [] => []
  | c :: rest =>
      if c = carriageReturn then lineFeed :: unifyLineEndsFrom true rest
      else if afterReturn ∧ c = lineFeed then unifyLineEndsFrom false rest
      else c :: unifyLineEndsFrom false rest

def unifyLineEnds (t : Text) : Text := unifyLineEndsFrom false t

end Text
end WhitespaceLang
