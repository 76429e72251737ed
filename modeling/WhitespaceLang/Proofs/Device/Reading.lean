import WhitespaceLang.Device
import Mathlib.Data.List.TakeWhile

/-!
Numbers read from an input that never fails. Blanks are skipped, a word is taken up to the next
blank, and that blank goes with it, so the input left is what stands behind the word.
-/

namespace WhitespaceLang
namespace Input

theorem readPastBlanks_ofText (t : Text) :
    (ofText t).readPastBlanks =
      match t.dropWhile (·.isBlank) with
      | [] => (.ok none, ofText [])
      | c :: rest => (.ok (some c), ofText rest) := by
  induction t with
  | nil =>
      rw [readPastBlanks]
      rfl
  | cons c t ih =>
      rw [readPastBlanks]
      split
      · next d i h =>
          rw [read_ofText_cons] at h
          cases h
          by_cases hc : c.isBlank = true
          · rw [if_pos hc, ih, List.dropWhile_cons_of_pos hc]
          · rw [if_neg hc, List.dropWhile_cons_of_neg hc]
      · next h => exact absurd (read_ofText_cons c t) (h c _)

theorem readWord_ofText (t : Text) :
    (ofText t).readWord =
      (.ok (t.takeWhile (!·.isBlank)), ofText ((t.dropWhile (!·.isBlank)).drop 1)) := by
  induction t with
  | nil =>
      rw [readWord]
      rfl
  | cons c t ih =>
      rw [readWord]
      split
      · next d i h =>
          rw [read_ofText_cons] at h
          cases h
          by_cases hc : c.isBlank = true
          · simp [hc]
          · simp [hc, ih]
      · next h => cases h
      · next h => cases h

end Input

namespace Device

/-- A number is read from the first word behind the blanks, and the blank after it is dropped. -/
theorem readNumber_ofText (t : Text) (out : Output) :
    (⟨.ofText t, out⟩ : Device).readNumber =
      match t.dropWhile (·.isBlank) with
      | [] => (.error (.fault .noNumberLeft), ⟨.ofText [], out⟩)
      | c :: rest =>
          (numberOfWord (c :: rest.takeWhile (!·.isBlank)),
            ⟨.ofText ((rest.dropWhile (!·.isBlank)).drop 1), out⟩) := by
  rw [readNumber, Input.readPastBlanks_ofText]
  cases t.dropWhile (·.isBlank) with
  | nil => rfl
  | cons c rest => simp only [Input.readWord_ofText]

theorem numberOfWord_eq_ok_iff {word : Text} {n : Int} :
    numberOfWord word = .ok n ↔ Decimal.read word = .ok n := by
  simp only [numberOfWord]
  cases Decimal.read word with
  | ok k => simp
  | error e => cases e <;> simp

end Device

namespace Text

/-- The input `t` is a number behind blanks and then `rest`, from which the blank that ends the
number is gone. -/
def ReadsNumber (t : Text) (n : Int) (rest : Text) : Prop :=
  ∃ blanks word tail : Text, t = blanks ++ (word ++ tail) ∧ (∀ c ∈ blanks, c.isBlank = true) ∧
    word ≠ [] ∧ (∀ c ∈ word, c.isBlank = false) ∧ (∀ c ∈ tail.head?, c.isBlank = true) ∧
    rest = tail.drop 1 ∧ Decimal.read word = .ok n

section Words

variable {word tail : Text}

theorem takeWhile_word_append (hw : ∀ c ∈ word, c.isBlank = false)
    (ht : ∀ c ∈ tail.head?, c.isBlank = true) :
    (word ++ tail).takeWhile (!·.isBlank) = word := by
  rw [List.takeWhile_append_of_pos fun c hc => by rw [hw c hc]; rfl]
  cases tail with
  | nil => exact List.append_nil word
  | cons c tail =>
      have hc : c.isBlank = true := ht c rfl
      rw [List.takeWhile_cons_of_neg (by simp [hc]), List.append_nil]

theorem dropWhile_word_append (hw : ∀ c ∈ word, c.isBlank = false)
    (ht : ∀ c ∈ tail.head?, c.isBlank = true) :
    (word ++ tail).dropWhile (!·.isBlank) = tail := by
  rw [List.dropWhile_append_of_pos fun c hc => by rw [hw c hc]; rfl]
  cases tail with
  | nil => rfl
  | cons c tail =>
      have hc : c.isBlank = true := ht c rfl
      rw [List.dropWhile_cons_of_neg (by simp [hc])]

end Words

/-- Where dropping stops, the first character is one that is not dropped. -/
theorem head?_dropWhile_eq {p : CodePoint → Bool} (t : Text) :
    ∀ c ∈ (t.dropWhile p).head?, p c = false := by
  intro c hc
  have h := List.head?_dropWhile_not p t
  rw [hc] at h
  exact h

theorem readsNumber_iff {t rest : Text} {n : Int} :
    ReadsNumber t n rest ↔
      ∃ c word, t.dropWhile (·.isBlank) = c :: word ∧
        Decimal.read (c :: word.takeWhile (!·.isBlank)) = .ok n ∧
        rest = (word.dropWhile (!·.isBlank)).drop 1 := by
  constructor
  · intro h
    obtain ⟨blanks, word, tail, rfl, hblanks, hne, hword, htail, rfl, hread⟩ := h
    obtain ⟨c, word, rfl⟩ := List.exists_cons_of_ne_nil hne
    have hc : c.isBlank = false := hword c List.mem_cons_self
    have hrest : ∀ d ∈ word, d.isBlank = false := fun d hd => hword d (List.mem_cons_of_mem c hd)
    refine ⟨c, word ++ tail, ?_, ?_, ?_⟩
    · rw [List.dropWhile_append_of_pos hblanks]
      exact List.dropWhile_cons_of_neg (by simp [hc])
    · rw [takeWhile_word_append hrest htail]
      exact hread
    · rw [dropWhile_word_append hrest htail]
  · intro h
    obtain ⟨c, word, ht, hread, rfl⟩ := h
    have hc : c.isBlank = false := by
      have hhead := head?_dropWhile_eq (p := (·.isBlank)) t
      rw [ht] at hhead
      exact hhead c rfl
    refine ⟨t.takeWhile (·.isBlank), c :: word.takeWhile (!·.isBlank),
      word.dropWhile (!·.isBlank), ?_, ?_, List.cons_ne_nil _ _, ?_, ?_, rfl, hread⟩
    · rw [List.cons_append, List.takeWhile_append_dropWhile, ← ht,
        List.takeWhile_append_dropWhile]
    · intro d hd
      exact List.mem_takeWhile_imp hd
    · intro d hd
      cases List.mem_cons.mp hd with
      | inl heq => rw [heq, hc]
      | inr hd => simpa using List.mem_takeWhile_imp hd
    · intro d hd
      simpa using head?_dropWhile_eq word d hd

end Text

theorem Device.readNumber_eq_ok_iff {t : Text} {out : Output} {n : Int} {device : Device} :
    (⟨.ofText t, out⟩ : Device).readNumber = (.ok n, device) ↔
      ∃ rest, Text.ReadsNumber t n rest ∧ device = ⟨.ofText rest, out⟩ := by
  rw [readNumber_ofText]
  simp only [Text.readsNumber_iff]
  cases t.dropWhile (·.isBlank) with
  | nil => simp
  | cons c word =>
      simp only [Prod.mk.injEq, numberOfWord_eq_ok_iff, List.cons.injEq]
      constructor
      · intro h
        obtain ⟨hread, rfl⟩ := h
        exact ⟨_, ⟨c, word, ⟨rfl, rfl⟩, hread, rfl⟩, rfl⟩
      · intro h
        obtain ⟨rest, ⟨c, word, ⟨rfl, rfl⟩, hread, rfl⟩, rfl⟩ := h
        exact ⟨hread, rfl⟩

end WhitespaceLang
