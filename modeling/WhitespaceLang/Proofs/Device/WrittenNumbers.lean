import WhitespaceLang.ErrorKind
import WhitespaceLang.Proofs.Device.Plain
import WhitespaceLang.Proofs.Listing.Numeral
import WhitespaceLang.Proofs.Machine.DigitLimit

/-!
Numbers that a device writes, read back by a device. A number is written as one word and read as
one, and the read takes a single blank behind the word, so blanks of any kind and number keep the
numbers apart.
-/

namespace WhitespaceLang
namespace Decimal

/-- The numbers that are converted are those whose digits are not too many. -/
theorem fits_iff_length {n : Int} : Fits n ↔ (natText n.natAbs).length ≤ maxDigits := by
  obtain ⟨k, hk⟩ := Nat.exists_eq_add_of_le' seven_le_maxDigits
  rw [Fits, hk, length_natText_le_iff]

/-- What is written is read as the number that was written. -/
theorem read_text {n : Int} (h : Fits n) : read (text n) = .ok n := by
  rw [read, if_pos (isNumeral_text n), signed_text, if_pos (fits_iff_length.mp h),
    numeralValue_text]

theorem isBlank_of_mem_text {n : Int} {c : CodePoint} (h : c ∈ text n) :
    c.isBlank = false := by
  obtain hdigit | rfl := mem_text h
  · simp only [isDigit, Bool.and_eq_true, decide_eq_true_eq] at hdigit
    simp only [CodePoint.isBlank, Bool.or_eq_false_iff, Bool.and_eq_false_iff, beq_eq_false_iff_ne,
      decide_eq_false_iff_not]
    omega
  · decide

theorem text_ne_nil (n : Int) : text n ≠ [] := by
  cases n with
  | ofNat n => exact natText_ne_nil n
  | negSucc n => exact List.cons_ne_nil _ _

/-- The text of numbers, each with its separators behind it. -/
def separated (pairs : List (Int × Text)) : Text := pairs.flatMap fun p => text p.1 ++ p.2

end Decimal

namespace Device

section Calls

variable {α : Type}

/-- The answers of operations that are called one after another, and the device that they leave. -/
def calls : List (Device → α × Device) → Device → List α × Device
  | [], d => ([], d)
  | op :: ops, d => ((op d).1 :: (calls ops (op d).2).1, (calls ops (op d).2).2)

variable {ops ops' : List (Device → α × Device)} {as as' : List α} {d d' d'' : Device}

theorem calls_cons {op : Device → α × Device} {a : α} (h : op d = (a, d'))
    (hs : calls ops d' = (as, d'')) : calls (op :: ops) d = (a :: as, d'') := by
  rw [calls, h, hs]

theorem calls_append (h : calls ops d = (as, d')) (h' : calls ops' d' = (as', d'')) :
    calls (ops ++ ops') d = (as ++ as', d'') := by
  induction ops generalizing as d with
  | nil =>
      cases h
      exact h'
  | cons op ops ih =>
      cases h
      exact calls_cons rfl (ih rfl)

/-- An operation that always answers the same and changes nothing. -/
theorem calls_replicate {op : Device → α × Device} {a : α} (h : op d = (a, d)) (k : Nat) :
    calls (List.replicate k op) d = (List.replicate k a, d) := by
  induction k with
  | zero => rfl
  | succ k ih => exact calls_cons h ih

end Calls

/-- The operations that write numbers, each with separators behind it. -/
def printing (pairs : List (Int × Text)) : List (Device → Except Failure Unit × Device) :=
  pairs.flatMap fun p => printNumber p.1 :: p.2.map fun c => printChar c.val

variable {pairs : List (Int × Text)} (i o : Text)

theorem calls_printChar (t : Text) :
    calls (t.map fun c => printChar c.val) (plain i o) =
      (t.map fun _ => .ok (), plain i (o ++ t)) := by
  induction t generalizing o with
  | nil => rw [List.append_nil]; rfl
  | cons c t ih =>
      have hc : (plain i o).printChar c.val = (.ok (), plain i (o ++ [c])) :=
        printChar_plain_iff i o |>.mpr ⟨c, rfl, rfl⟩
      have ht := calls_cons hc (ih (o ++ [c]))
      rw [List.append_assoc] at ht
      exact ht

theorem calls_printing (hfits : ∀ p ∈ pairs, Decimal.Fits p.1) :
    calls (printing pairs) (plain i o) =
      ((printing pairs).map fun _ => .ok (), plain i (o ++ Decimal.separated pairs)) := by
  induction pairs generalizing o with
  | nil => rw [Decimal.separated, List.flatMap_nil, List.append_nil]; rfl
  | cons p pairs ih =>
      have hn : (plain i o).printNumber p.1 = (.ok (), plain i (o ++ Decimal.text p.1)) :=
        printNumber_plain_iff i o |>.mpr ⟨hfits p List.mem_cons_self, rfl⟩
      have hpair := calls_append (calls_cons hn (calls_printChar i _ p.2))
        (ih _ fun q hq => hfits q (List.mem_cons_of_mem p hq))
      simp only [printing, Decimal.separated, List.flatMap_cons, List.append_assoc, List.map_append,
        List.map_cons, List.map_map] at hpair ⊢
      exact hpair

variable {blanks seps : Text} {n : Int} (rest : Text) (out : Output)

/-- Behind blanks a number is read back, and one of its separators with it. -/
theorem readNumber_text (hblanks : ∀ c ∈ blanks, c.isBlank = true) (hn : Decimal.Fits n)
    (hne : seps ≠ []) (hseps : ∀ c ∈ seps, c.isBlank = true) :
    (⟨.ofText (blanks ++ (Decimal.text n ++ (seps ++ rest))), out⟩ : Device).readNumber =
      (.ok n, ⟨.ofText (seps.tail ++ rest), out⟩) := by
  obtain ⟨c, seps, rfl⟩ := List.exists_cons_of_ne_nil hne
  have hhead : ∀ d ∈ (c :: seps ++ rest).head?, d.isBlank = true := by
    intro d hd
    cases hd
    exact hseps c List.mem_cons_self
  exact readNumber_eq_ok_iff.mpr ⟨_, ⟨blanks, Decimal.text n, c :: seps ++ rest, rfl, hblanks,
    Decimal.text_ne_nil n, fun d => Decimal.isBlank_of_mem_text, hhead, rfl,
    Decimal.read_text hn⟩, rfl⟩

theorem readNumber_blanks (hblanks : ∀ c ∈ blanks, c.isBlank = true) :
    (⟨.ofText blanks, out⟩ : Device).readNumber =
      (.error (.fault .noNumberLeft), ⟨.ofText [], out⟩) := by
  rw [readNumber_ofText, List.dropWhile_eq_nil_iff.mpr hblanks]

/-- Once only blanks are left, every read finds no number. -/
theorem calls_readNumber_blanks (hblanks : ∀ c ∈ blanks, c.isBlank = true) (k : Nat) :
    (calls (List.replicate k readNumber) ⟨.ofText blanks, out⟩).1 =
      List.replicate k (.error (.fault .noNumberLeft)) := by
  cases k with
  | zero => rfl
  | succ k =>
      have hempty : (⟨.ofText [], out⟩ : Device).readNumber = _ := readNumber_blanks out nofun
      have hcalls := calls_cons (readNumber_blanks out hblanks) (calls_replicate hempty k)
      rw [List.replicate_succ, hcalls]
      rfl

/-- The induction over the numbers has to allow for what the read before has left of its
separators. -/
theorem calls_readNumber_separated (hne : pairs ≠ []) (hfits : ∀ p ∈ pairs, Decimal.Fits p.1)
    (hseps : ∀ p ∈ pairs, p.2 ≠ [] ∧ ∀ c ∈ p.2, c.isBlank = true)
    (hblanks : ∀ c ∈ blanks, c.isBlank = true) :
    calls (List.replicate pairs.length readNumber)
        ⟨.ofText (blanks ++ Decimal.separated pairs), out⟩ =
      (pairs.map fun p => .ok p.1, ⟨.ofText (pairs.getLast hne).2.tail, out⟩) := by
  induction pairs generalizing blanks with
  | nil => exact absurd rfl hne
  | cons p pairs ih =>
      obtain ⟨hp, hps⟩ := hseps p List.mem_cons_self
      have hread := readNumber_text (Decimal.separated pairs) out hblanks
        (hfits p List.mem_cons_self) hp hps
      have hleft : ∀ c ∈ p.2.tail, c.isBlank = true := fun c hc => hps c (List.mem_of_mem_tail hc)
      have htext : Decimal.separated (p :: pairs) =
          Decimal.text p.1 ++ (p.2 ++ Decimal.separated pairs) := List.append_assoc _ _ _
      rw [htext]
      cases pairs with
      | nil =>
          rw [Decimal.separated, List.flatMap_nil, List.append_nil p.2.tail] at hread
          exact calls_cons hread rfl
      | cons q pairs =>
          exact calls_cons hread (ih (List.cons_ne_nil q pairs)
            (fun q hq => hfits q (List.mem_cons_of_mem p hq))
            (fun q hq => hseps q (List.mem_cons_of_mem p hq)) hleft)

end Device

/-- Numbers that a device writes with blanks behind each are the numbers that are read from what it
has written. The last read leaves the separators of the last number without the first, and no number
is found after it. -/
theorem written_numbers {pairs : List (Int × Text)} (hne : pairs ≠ [])
    (hfits : ∀ p ∈ pairs, Decimal.Fits p.1)
    (hseps : ∀ p ∈ pairs, p.2 ≠ [] ∧ ∀ c ∈ p.2, c.isBlank = true) (stdin : Text) :
    ∃ writer, Device.calls (Device.printing pairs) (.ofText stdin) =
        ((Device.printing pairs).map fun _ => .ok (), writer) ∧
      Device.calls (List.replicate pairs.length Device.readNumber) (.ofText writer.output.text) =
        (pairs.map fun p => .ok p.1, .ofText (pairs.getLast hne).2.tail) ∧
      ∃ e : Failure, e.kind = .numberFormat ∧ e.message = "No number left in input" ∧
        ∀ k, (Device.calls (List.replicate k Device.readNumber)
            (.ofText (pairs.getLast hne).2.tail)).1 = List.replicate k (.error e) := by
  have hwritten := Device.calls_printing stdin [] hfits
  have hnone : ∀ c ∈ ([] : Text), c.isBlank = true := nofun
  have hlast : ∀ c ∈ (pairs.getLast hne).2.tail, c.isBlank = true := fun c hc =>
    (hseps _ (List.getLast_mem hne)).2 c (List.mem_of_mem_tail hc)
  exact ⟨_, hwritten, Device.calls_readNumber_separated .plain hne hfits hseps hnone,
    .fault .noNumberLeft, rfl, rfl, Device.calls_readNumber_blanks .plain hlast⟩

/-- Separators of several kinds, a wide one among them. -/
theorem written_numbers_of_mixed_separators :
    let pairs : List (Int × Text) := [(-12, " \t"), (0, [.ofNat 0x3000]), (345, "\n\r")]
    ∃ writer, Device.calls (Device.printing pairs) (.ofText []) =
        (List.replicate 8 (.ok ()), writer) ∧
      Device.calls (List.replicate 3 Device.readNumber) (.ofText writer.output.text) =
        ([.ok (-12), .ok 0, .ok 345], .ofText "\r") := by
  intro pairs
  have hfits : ∀ p ∈ pairs, Decimal.Fits p.1 := by
    intro p hp
    apply Decimal.fits_of_lt
    revert p
    decide
  have hseps : ∀ p ∈ pairs, p.2 ≠ [] ∧ ∀ c ∈ p.2, c.isBlank = true := by
    simp only [← List.all_eq_true]
    decide
  obtain ⟨writer, hwritten, hread, -⟩ := written_numbers (List.cons_ne_nil _ _) hfits hseps []
  exact ⟨writer, hwritten, hread⟩

end WhitespaceLang
