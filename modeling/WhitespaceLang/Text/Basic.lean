/-!
Text as a sequence of code points. Surrogates count as code points, since a program may print one,
so text is wider than `String`, whose characters leave them out.
-/

namespace WhitespaceLang

abbrev CodePoint := Fin 0x110000

namespace CodePoint

theorem toNat_char_lt (c : Char) : c.toNat < 0x110000 := by
  have h := c.valid
  simp only [UInt32.isValidChar, Nat.isValidChar] at h
  change c.val.toNat < _
  omega

/-- The code point with this number; numbers beyond the last code point start again at 0. -/
def ofNat (n : Nat) : CodePoint := ⟨n % 0x110000, Nat.mod_lt n (by decide)⟩

def ofChar (c : Char) : CodePoint := ⟨c.toNat, toNat_char_lt c⟩

/-- The code point with this number, for the numbers that have one. -/
def ofInt? (n : Int) : Option CodePoint :=
  if h : 0 ≤ n ∧ n < 0x110000 then some ⟨n.toNat, by omega⟩ else none

def isSurrogate (c : CodePoint) : Bool := 0xD800 ≤ c.val && c.val ≤ 0xDFFF

def replacement : CodePoint := ofNat 0xFFFD

@[simp] theorem ofNat_val (c : CodePoint) : ofNat c.val = c := by
  ext
  exact Nat.mod_eq_of_lt c.isLt

@[simp] theorem ofInt?_val (c : CodePoint) : ofInt? c.val = some c := by
  have h : 0 ≤ (c.val : Int) ∧ (c.val : Int) < 0x110000 := by omega
  simp [ofInt?, h]

theorem ofInt?_eq_none_iff (n : Int) : ofInt? n = none ↔ n < 0 ∨ 0x110000 ≤ n := by
  unfold ofInt?
  split <;> simp <;> omega

end CodePoint

abbrev Text := List CodePoint

namespace Text

def ofString (s : String) : Text := s.toList.map CodePoint.ofChar

instance : Coe String Text := ⟨ofString⟩

/-- The text as a string, if it holds no surrogate. -/
def toString? (t : Text) : Option String :=
  if t.any CodePoint.isSurrogate then none
  else some (String.ofList (t.map fun c => Char.ofNat c.val))

def unlines (lines : List Text) : Text := lines.flatMap fun line => line ++ [CodePoint.ofChar '\n']

def join (separator : Text) : List Text → Text
  | [] => []
  | [t] => t
  | t :: rest => t ++ separator ++ join separator rest

end Text
end WhitespaceLang
