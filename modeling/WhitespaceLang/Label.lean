import WhitespaceLang.Text.Quoted

/-!
Labels are runs of bits. Leading zeros count: `0` and `00` are different labels, and the empty run
is a label too.
-/

namespace WhitespaceLang

abbrev Label := List Bool

namespace Label

/-- The bits of the label as the characters `0` and `1`. -/
def text (l : Label) : Text :=
  l.map fun b => if b then CodePoint.ofChar '1' else CodePoint.ofChar '0'

def ofText? (t : Text) : Option Label :=
  t.mapM fun c =>
    if c = CodePoint.ofChar '0' then some false
    else if c = CodePoint.ofChar '1' then some true
    else none

def quoted (l : Label) : Text := Text.quoted l.text

end Label
end WhitespaceLang
