import WhitespaceLang.Text.Basic

/-!
The three characters that mean something in a Whitespace program. Every other character is a
comment, wherever it stands.
-/

namespace WhitespaceLang

inductive Symbol where
  | space
  | tab
  | feed
  deriving DecidableEq, Repr

namespace Symbol

def codePoint : Symbol → CodePoint
  | space => CodePoint.ofChar ' '
  | tab => CodePoint.ofChar '\t'
  | feed => CodePoint.ofChar '\n'

def ofCodePoint? (c : CodePoint) : Option Symbol :=
  if c = space.codePoint then some space
  else if c = tab.codePoint then some tab
  else if c = feed.codePoint then some feed
  else none

/-- The visible letter for a symbol in written notation. -/
def letter : Symbol → CodePoint
  | space => CodePoint.ofChar 'S'
  | tab => CodePoint.ofChar 'T'
  | feed => CodePoint.ofChar 'L'

def ofLetter? (c : CodePoint) : Option Symbol :=
  if c = space.letter then some space
  else if c = tab.letter then some tab
  else if c = feed.letter then some feed
  else none

@[simp] theorem ofCodePoint?_codePoint (s : Symbol) : ofCodePoint? s.codePoint = some s := by
  cases s <;> decide

@[simp] theorem ofLetter?_letter (s : Symbol) : ofLetter? s.letter = some s := by
  cases s <;> decide

end Symbol

/-- The symbols of a text, comments left out. -/
def Text.symbols (t : Text) : List Symbol := t.filterMap Symbol.ofCodePoint?

/-- The text that a list of symbols is written as. -/
def Symbol.source (w : List Symbol) : Text := w.map Symbol.codePoint

/-- A list of symbols in visible letters. -/
def Symbol.letters (w : List Symbol) : Text := w.map Symbol.letter

/-- The symbols that a text names by their letters, all else left out. -/
def Text.lettersToSymbols (t : Text) : List Symbol := t.filterMap Symbol.ofLetter?

/-- Letters turned into program text. -/
def Text.lettersToSource (t : Text) : Text := Symbol.source t.lettersToSymbols

end WhitespaceLang
