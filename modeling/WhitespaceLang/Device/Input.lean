import WhitespaceLang.Device.Schedule
import WhitespaceLang.Text.Blank
import WhitespaceLang.Text.LineEnd
import WhitespaceLang.Bytes.Utf8

/-!
The input of a running program. A read takes one character from the text that is left, or finds the
end; a read that fails takes nothing.
-/

namespace WhitespaceLang

structure Input where
  text : Text
  faults : Schedule
  deriving DecidableEq, Repr

namespace Input

def ofText (t : Text) : Input := ⟨t, .never⟩

/-- How many bytes of a stream are decoded at once. -/
def chunkSize : Nat := 8192

/-- A stream of UTF-8 with unified line ends, decoded chunk by chunk. The first read that needs the
chunk in which a flaw shows reports it, with the position counted from the beginning of the chunk or
of the character that it completes. A program ends there, so what lies behind is left out. A flaw
that shows only at the end is noticed by the read that would need more bytes, and by all after it. A
carriage return just before such reads is never delivered, since what belongs to it is not known. -/
def ofChunks (size : Nat) (bytes : List UInt8) : Input :=
  match Utf8.decode bytes with
  | (t, none) => ofText t.unifyLineEnds
  | (t, some e) =>
      let shown := e.shownAt bytes
      let arrived := if shown < bytes.length then shown / size * size else shown
      let complete := Utf8.fitting arrived t
      let delivered := Text.unifyLineEnds <|
        if complete.getLast? = some Text.carriageReturn then complete.dropLast else complete
      let why := { e with position := e.position - (Utf8.encode complete).length }.message
      ⟨delivered,
        if shown < bytes.length then .failingOnceAfter delivered.length why
        else .failingAfter delivered.length why⟩

def ofBytes (bytes : List UInt8) : Input := ofChunks chunkSize bytes

/-- One character, or none at the end. -/
def read (i : Input) : Except Text (Option CodePoint) × Input :=
  match i.faults.next with
  | (some why, faults) => (.error why, { i with faults })
  | (none, faults) => (.ok i.text.head?, ⟨i.text.tail, faults⟩)

theorem read_text_length_lt {i i' : Input} {c : CodePoint} (h : i.read = (.ok (some c), i')) :
    i'.text.length < i.text.length := by
  unfold read at h
  split at h
  · simp at h
  · obtain ⟨hc, rfl⟩ := Prod.mk.inj h
    cases ht : i.text with
    | nil => simp [ht] at hc
    | cons d rest => simp

/-- The next character that is not blank, or none if the input ends before it. -/
def readPastBlanks (i : Input) : Except Text (Option CodePoint) × Input :=
  match h : i.read with
  | (.ok (some c), i') =>
      have := read_text_length_lt h
      if c.isBlank then readPastBlanks i' else (.ok (some c), i')
  | r => r
termination_by i.text.length

/-- The characters up to the next blank, which is taken too, or up to the end. -/
def readWord (i : Input) : Except Text Text × Input :=
  match h : i.read with
  | (.ok (some c), i') =>
      have := read_text_length_lt h
      if c.isBlank then (.ok [], i')
      else
        match readWord i' with
        | (.ok word, i'') => (.ok (c :: word), i'')
        | (.error why, i'') => (.error why, i'')
  | (.ok none, i') => (.ok [], i')
  | (.error why, i') => (.error why, i')
termination_by i.text.length

@[simp] theorem read_ofText_nil : (ofText []).read = (.ok none, ofText []) := rfl

@[simp] theorem read_ofText_cons (c : CodePoint) (t : Text) :
    (ofText (c :: t)).read = (.ok (some c), ofText t) := rfl

end Input
end WhitespaceLang
