import WhitespaceLang.Decimal
import WhitespaceLang.Text.Quoted

/-!
UTF-8. A byte string is cut into pieces, each a character, bytes that cannot begin or continue one,
or a character that the end of the bytes cuts short. Strict decoding stops at the first piece that
is no character; lenient decoding puts one replacement character for it.
-/

namespace WhitespaceLang
namespace Utf8

def continuation (n : Nat) : UInt8 := UInt8.ofNat (0x80 + n % 0x40)

/-- Surrogates get the three bytes their number would have. -/
def encodeChar (c : CodePoint) : List UInt8 :=
  let n := c.val
  if n < 0x80 then [UInt8.ofNat n]
  else if n < 0x800 then [UInt8.ofNat (0xC0 + n / 0x40), continuation n]
  else if n < 0x10000 then
    [UInt8.ofNat (0xE0 + n / 0x1000), continuation (n / 0x40), continuation n]
  else
    [UInt8.ofNat (0xF0 + n / 0x40000), continuation (n / 0x1000), continuation (n / 0x40),
      continuation n]

def encode (t : Text) : List UInt8 := t.flatMap encodeChar

/-- A character begun but not finished: the bytes so far, the bits they carry, how many bytes are
owed and between which bounds the next one lies. -/
structure Pending where
  seen : List UInt8
  value : Nat
  owed : Nat
  low : UInt8
  high : UInt8
  deriving DecidableEq, Repr

/-- Bytes that are no character. -/
inductive Flaw where
  /-- A byte that begins no character. -/
  | start (b : UInt8)
  /-- The beginning of a character that the next byte does not continue. -/
  | continuation (seen : List UInt8)
  /-- The beginning of a character at the end of the bytes. -/
  | cut (seen : List UInt8)
  deriving DecidableEq, Repr

namespace Flaw

def bytes : Flaw → List UInt8
  | start b => [b]
  | continuation seen | cut seen => seen

def reason : Flaw → Text
  | start _ => "invalid start byte"
  | continuation _ => "invalid continuation byte"
  | cut _ => "unexpected end of data"

end Flaw

inductive Piece where
  | char (c : CodePoint)
  | flaw (f : Flaw)
  deriving DecidableEq, Repr

def start (b : UInt8) : List Piece × Option Pending :=
  if b < 0x80 then ([.char (CodePoint.ofNat b.toNat)], none)
  else if b < 0xC2 then ([.flaw (.start b)], none)
  else if b < 0xE0 then ([], some ⟨[b], b.toNat - 0xC0, 1, 0x80, 0xBF⟩)
  else if b = 0xE0 then ([], some ⟨[b], 0, 2, 0xA0, 0xBF⟩)
  else if b = 0xED then ([], some ⟨[b], 0xD, 2, 0x80, 0x9F⟩)
  else if b < 0xF0 then ([], some ⟨[b], b.toNat - 0xE0, 2, 0x80, 0xBF⟩)
  else if b = 0xF0 then ([], some ⟨[b], 0, 3, 0x90, 0xBF⟩)
  else if b < 0xF4 then ([], some ⟨[b], b.toNat - 0xF0, 3, 0x80, 0xBF⟩)
  else if b = 0xF4 then ([], some ⟨[b], 4, 3, 0x80, 0x8F⟩)
  else ([.flaw (.start b)], none)

/-- The pieces that one more byte completes, and the character it leaves unfinished. -/
def step : Option Pending → UInt8 → List Piece × Option Pending
  | none, b => start b
  | some p, b =>
      if p.low ≤ b ∧ b ≤ p.high then
        let value := p.value * 0x40 + (b.toNat - 0x80)
        if p.owed ≤ 1 then ([.char (CodePoint.ofNat value)], none)
        else ([], some ⟨p.seen ++ [b], value, p.owed - 1, 0x80, 0xBF⟩)
      else
        let (pieces, q) := start b
        (.flaw (.continuation p.seen) :: pieces, q)

def piecesFrom : Option Pending → List UInt8 → List Piece
  | none, [] => []
  | some p, [] => [.flaw (.cut p.seen)]
  | q, b :: rest => (step q b).1 ++ piecesFrom (step q b).2 rest

theorem piecesFrom_cons (q : Option Pending) (b : UInt8) (rest : List UInt8) :
    piecesFrom q (b :: rest) = (step q b).1 ++ piecesFrom (step q b).2 rest := by
  cases q <;> rfl

def pieces (bytes : List UInt8) : List Piece := piecesFrom none bytes

/-- Lenient decoding. -/
def decodeReplacing (bytes : List UInt8) : Text :=
  (pieces bytes).map fun
    | .char c => c
    | .flaw _ => CodePoint.replacement

/-- A flaw and the number of bytes before it. -/
structure DecodeError where
  position : Nat
  flaw : Flaw
  deriving DecidableEq, Repr

/-- The characters before the first flaw, and that flaw if there is one. -/
def decodeFrom (position : Nat) : List Piece → Text × Option DecodeError
  | [] => ([], none)
  | .char c :: rest =>
      let (t, e) := decodeFrom (position + (encodeChar c).length) rest
      (c :: t, e)
  | .flaw f :: _ => ([], some ⟨position, f⟩)

/-- Strict decoding. -/
def decode (bytes : List UInt8) : Text × Option DecodeError := decodeFrom 0 (pieces bytes)

/-- Names the bytes by value if there is one, by the range of their positions if there are more. -/
def DecodeError.message (e : DecodeError) : Text :=
  match e.flaw.bytes with
  | [b] =>
      "'utf-8' codec can't decode byte 0x" ++ Text.hex 2 b.toNat ++ " in position " ++
        Decimal.natText e.position ++ ": " ++ e.flaw.reason
  | bad =>
      "'utf-8' codec can't decode bytes in position " ++ Decimal.natText e.position ++ "-" ++
        Decimal.natText (e.position + bad.length - 1) ++ ": " ++ e.flaw.reason

/-- Whether the bytes begin like those of a surrogate. -/
def beginsSurrogate : List UInt8 → Bool
  | a :: b :: _ => a == 0xED && 0xA0 ≤ b && b ≤ 0xBF
  | _ => false

/-- How many bytes stand before the one that shows the flaw. Until then more bytes might mend it. A
character cut short shows at the end only, and a surrogate not before its third byte. -/
def DecodeError.shownAt (bytes : List UInt8) (e : DecodeError) : Nat :=
  if beginsSurrogate (bytes.drop e.position) then e.position + 2
  else
    match e.flaw with
    | .start _ => e.position
    | .continuation seen => e.position + seen.length
    | .cut _ => bytes.length

/-- The characters at the front of a text that fit into so many bytes. -/
def fitting (room : Nat) : Text → Text
  | [] => []
  | c :: t =>
      if (encodeChar c).length ≤ room then c :: fitting (room - (encodeChar c).length) t else []

/-- Names the surrogates from the first one that is `bad` up to the next other character. -/
def refusalFrom (bad : CodePoint → Bool) (t : Text) : Option Text :=
  let position := (t.takeWhile (!bad ·)).length
  match (t.dropWhile (!bad ·)).takeWhile (·.isSurrogate) with
  | [] => none
  | [c] =>
      some ("'utf-8' codec can't encode character '" ++ Text.escape (CodePoint.ofChar '\'') c ++
        "' in position " ++ Decimal.natText position ++ ": surrogates not allowed")
  | run =>
      some ("'utf-8' codec can't encode characters in position " ++ Decimal.natText position ++
        "-" ++ Decimal.natText (position + run.length - 1) ++ ": surrogates not allowed")

/-- Why a text cannot be encoded: its first run of surrogates, if it has one. -/
def refusal? (t : Text) : Option Text := refusalFrom CodePoint.isSurrogate t

theorem refusalFrom_eq_none {bad : CodePoint → Bool} {t : Text} (h : ∀ c ∈ t, bad c = false) :
    refusalFrom bad t = none := by
  have hdrop : t.dropWhile (!bad ·) = [] := by
    induction t with
    | nil => rfl
    | cons c t ih =>
        rw [List.dropWhile_cons_of_pos (by rw [h c List.mem_cons_self]; rfl)]
        exact ih fun d hd => h d (List.mem_cons_of_mem c hd)
  simp only [refusalFrom, hdrop, List.takeWhile_nil]

end Utf8
end WhitespaceLang
