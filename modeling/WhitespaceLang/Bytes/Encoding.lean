import WhitespaceLang.Bytes.Utf8
import WhitespaceLang.Bytes.Utf16

/-!
The encodings a source file may be in, the names they go by, and their lenient decoding.
-/

namespace WhitespaceLang

inductive Encoding where
  | utf8
  | utf8Signed
  | ascii
  | latin1
  | windows1252
  | utf16
  | utf16Little
  | utf16Big
  deriving DecidableEq, Repr

namespace Encoding

def lowerAscii (c : CodePoint) : CodePoint :=
  if 0x41 ≤ c.val ∧ c.val ≤ 0x5A then CodePoint.ofNat (c.val + 0x20) else c

def isNameChar (c : CodePoint) : Bool :=
  (0x30 ≤ c.val && c.val ≤ 0x39) || (0x61 ≤ c.val && c.val ≤ 0x7A) || c == .ofChar '.'

/-- The parts of a name in lower case, where anything but letters, digits and dots separates. -/
def nameParts (name : Text) : List Text :=
  (name.map lowerAscii).splitBy (fun a b => isNameChar a == isNameChar b)
    |>.filter (·.all isNameChar)

/-- A name with its parts joined by underscores. -/
def normalName (name : Text) : Text := Text.join "_" (nameParts name)

def names : Encoding → List String
  | utf8 => ["utf_8", "u8", "utf", "utf8", "utf8_ucs2", "utf8_ucs4", "cp65001"]
  | utf8Signed => ["utf_8_sig"]
  | ascii =>
      ["ascii", "646", "ansi_x3.4_1968", "ansi_x3_4_1968", "ansi_x3.4_1986", "cp367", "csascii",
        "ibm367", "iso646_us", "iso_646.irv_1991", "iso_ir_6", "us", "us_ascii"]
  | latin1 =>
      ["latin_1", "8859", "cp819", "csisolatin1", "ibm819", "iso8859", "iso8859_1", "iso_8859_1",
        "iso_8859_1_1987", "iso_ir_100", "l1", "latin", "latin1"]
  | windows1252 => ["cp1252", "1252", "windows_1252"]
  | utf16 => ["utf_16", "u16", "utf16"]
  | utf16Little => ["utf_16_le", "unicodelittleunmarked", "utf_16le"]
  | utf16Big => ["utf_16_be", "unicodebigunmarked", "utf_16be"]

def all : List Encoding :=
  [utf8, utf8Signed, ascii, latin1, windows1252, utf16, utf16Little, utf16Big]

def ofName? (name : Text) : Option Encoding :=
  all.find? fun e => e.names.any fun n => Text.ofString n == normalName name

/-- The characters of Windows-1252 from 0x80 to 0x9F; five of these bytes have none. -/
def windows1252High : List CodePoint :=
  [0x20AC, 0xFFFD, 0x201A, 0x0192, 0x201E, 0x2026, 0x2020, 0x2021, 0x02C6, 0x2030, 0x0160, 0x2039,
    0x0152, 0xFFFD, 0x017D, 0xFFFD, 0xFFFD, 0x2018, 0x2019, 0x201C, 0x201D, 0x2022, 0x2013, 0x2014,
    0x02DC, 0x2122, 0x0161, 0x203A, 0x0153, 0xFFFD, 0x017E, 0x0178].map CodePoint.ofNat

def latin1Char (b : UInt8) : CodePoint := CodePoint.ofNat b.toNat

def asciiChar (b : UInt8) : CodePoint := if b < 0x80 then latin1Char b else .replacement

def windows1252Char (b : UInt8) : CodePoint :=
  if 0x80 ≤ b ∧ b < 0xA0 then windows1252High.getD (b.toNat - 0x80) .replacement
  else latin1Char b

def signature : List UInt8 := [0xEF, 0xBB, 0xBF]

/-- Drops a signature at the front, also one that the end of the bytes cuts short. -/
def dropSignature (bytes : List UInt8) : List UInt8 :=
  if signature.isPrefixOf bytes then bytes.drop signature.length
  else if bytes.isPrefixOf signature then []
  else bytes

/-- Lenient decoding; the only thing that is refused is UTF-16 of unknown byte order. -/
def decodeReplacing (e : Encoding) (bytes : List UInt8) : Except Text Text :=
  match e with
  | utf8 => .ok (Utf8.decodeReplacing bytes)
  | utf8Signed => .ok (Utf8.decodeReplacing (dropSignature bytes))
  | ascii => .ok (bytes.map asciiChar)
  | latin1 => .ok (bytes.map latin1Char)
  | windows1252 => .ok (bytes.map windows1252Char)
  | utf16 =>
      match Utf16.byteOrder? bytes with
      | some (order, rest) => .ok (Utf16.decodeReplacing order rest)
      | none =>
          if bytes.length < 2 then .ok (Utf16.decodeReplacing .little bytes)
          else .error "UTF-16 stream does not start with BOM"
  | utf16Little => .ok (Utf16.decodeReplacing .little bytes)
  | utf16Big => .ok (Utf16.decodeReplacing .big bytes)

end Encoding
end WhitespaceLang
