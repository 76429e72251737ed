import WhitespaceLang.Device.Schedule
import WhitespaceLang.Bytes.Utf8

/-!
The output of a running program. A write that fails writes nothing.
-/

namespace WhitespaceLang

structure Output where
  written : Array CodePoint
  /-- Whether the stream encodes in UTF-8, which has no room for surrogates. -/
  utf8 : Bool
  writes : Schedule
  flushes : Schedule
  deriving DecidableEq, Repr

namespace Output

/-- Keeps what is written as text. -/
def plain : Output := ⟨#[], false, .never, .never⟩

/-- Keeps what is written as bytes of UTF-8. -/
def encoded : Output := ⟨#[], true, .never, .never⟩

def text (o : Output) : Text := o.written.toList

def bytes (o : Output) : List UInt8 := Utf8.encode o.text

def refusal? (o : Output) (t : Text) : Option Text := if o.utf8 then Utf8.refusal? t else none

def write (t : Text) (o : Output) : Except Text Unit × Output :=
  match o.refusal? t with
  | some why => (.error why, o)
  | none =>
      match o.writes.next with
      | (some why, writes) => (.error why, { o with writes })
      | (none, writes) => (.ok (), { o with written := o.written ++ t, writes })

def flush (o : Output) : Except Text Unit × Output :=
  match o.flushes.next with
  | (some why, flushes) => (.error why, { o with flushes })
  | (none, flushes) => (.ok (), { o with flushes })

@[simp] theorem write_plain (t : Text) (w : Array CodePoint) :
    ({ plain with written := w } : Output).write t =
      (.ok (), { plain with written := w ++ t }) := rfl

end Output
end WhitespaceLang
