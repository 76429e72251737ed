import WhitespaceLang.Text.Basic

/-!
Lenient decoding of UTF-16: a surrogate without its partner, and a byte left over at the end, become
replacement characters. A high surrogate at the end takes the byte behind it along.
-/

namespace WhitespaceLang
namespace Utf16

inductive Order where
  | little
  | big
  deriving DecidableEq, Repr

def Order.join (order : Order) (a b : UInt8) : Nat :=
  match order with
  | little => a.toNat + 0x100 * b.toNat
  | big => 0x100 * a.toNat + b.toNat

def isHigh (unit : Nat) : Bool := 0xD800 ≤ unit && unit < 0xDC00

def isLow (unit : Nat) : Bool := 0xDC00 ≤ unit && unit < 0xE000

/-- The character of a pair of surrogates. -/
def pair (high low : Nat) : CodePoint :=
  CodePoint.ofNat (0x10000 + (high - 0xD800) * 0x400 + (low - 0xDC00))

/-- Decodes the bytes behind a high surrogate, or behind a complete character. -/
def decodeFrom (order : Order) : Option Nat → List UInt8 → Text
  | none, [] => []
  | some _, [] => [.replacement]
  | _, [_] => [.replacement]
  | high, a :: b :: rest =>
      let unit := order.join a b
      match high with
      | some h =>
          if isLow unit then pair h unit :: decodeFrom order none rest
          else if isHigh unit then .replacement :: decodeFrom order (some unit) rest
          else .replacement :: CodePoint.ofNat unit :: decodeFrom order none rest
      | none =>
          if isHigh unit then decodeFrom order (some unit) rest
          else if isLow unit then .replacement :: decodeFrom order none rest
          else CodePoint.ofNat unit :: decodeFrom order none rest

def decodeReplacing (order : Order) (bytes : List UInt8) : Text := decodeFrom order none bytes

/-- The order that a byte order mark at the front announces, and the bytes behind the mark. -/
def byteOrder? : List UInt8 → Option (Order × List UInt8)
  | a :: b :: rest =>
      if a = 0xFF ∧ b = 0xFE then some (.little, rest)
      else if a = 0xFE ∧ b = 0xFF then some (.big, rest)
      else none
  | _ => none

end Utf16
end WhitespaceLang
