import WhitespaceLang.Text.Printable

/-!
Text in quotes, the way error messages name a label, a word of input or a file.
-/

namespace WhitespaceLang
namespace Text

def hexDigit (n : Nat) : CodePoint :=
  if n % 16 < 10 then CodePoint.ofNat (0x30 + n % 16) else CodePoint.ofNat (0x57 + n % 16)

/-- The last `width` hexadecimal digits of `n`, in lower case. -/
def hex : (width : Nat) → (n : Nat) → Text
  | 0, _ => []
  | width + 1, n => hex width (n / 16) ++ [hexDigit n]

/-- A character inside quotes of the given kind. Unprintable characters are written in hexadecimal,
in the shortest of three widths. -/
def escape (quote c : CodePoint) : Text :=
  if c = quote ∨ c = CodePoint.ofChar '\\' then [CodePoint.ofChar '\\', c]
  else if c = CodePoint.ofChar '\t' then ofString "\\t"
  else if c = CodePoint.ofChar '\n' then ofString "\\n"
  else if c = CodePoint.ofChar '\r' then ofString "\\r"
  else if c.isPrintable then [c]
  else if c.val < 0x100 then ofString "\\x" ++ hex 2 c.val
  else if c.val < 0x10000 then ofString "\\u" ++ hex 4 c.val
  else ofString "\\U" ++ hex 8 c.val

/-- Single quotes, unless the text holds a single quote and no double quote. -/
def quoteFor (t : Text) : CodePoint :=
  if CodePoint.ofChar '\'' ∈ t ∧ CodePoint.ofChar '"' ∉ t then CodePoint.ofChar '"'
  else CodePoint.ofChar '\''

def quoted (t : Text) : Text :=
  [quoteFor t] ++ t.flatMap (escape (quoteFor t)) ++ [quoteFor t]

end Text
end WhitespaceLang
