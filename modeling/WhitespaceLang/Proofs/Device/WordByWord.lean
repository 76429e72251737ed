import WhitespaceLang.Proofs.Device.WrittenNumbers
import Mathlib.Data.List.Induction
import Mathlib.Data.Nat.Digits.Defs

/-!
Input read number by number. The words of a text are its maximal runs of characters that are not
blank, and the reads take them one by one, each with the blank behind it. A word that is no number
fails its own read and no other.
-/

namespace WhitespaceLang
namespace Text

/-- The word `w` is a run of characters of the text that are not blank, with nothing or a blank
before it and nothing or a blank behind it. It is followed by `rest`. -/
structure IsRun (t w rest : Text) : Prop where
  before : ∃ before, t = before ++ (w ++ rest) ∧ ∀ c ∈ before.getLast?, c.isBlank = true
  ne_nil : w ≠ []
  unbroken : ∀ c ∈ w, c.isBlank = false
  behind : ∀ c ∈ rest.head?, c.isBlank = true

/-- The words of a text, each with what follows it. -/
def runs : Text → List (Text × Text)
  | [] => []
  | c :: t =>
      if c.isBlank then runs t
      else
        (c :: t.takeWhile (!·.isBlank), t.dropWhile (!·.isBlank)) ::
          runs (t.dropWhile (!·.isBlank))
termination_by t => t.length
decreasing_by
  · simp
  · have h := (List.dropWhile_sublist (!·.isBlank) (l := t)).length_le
    simp only [List.length_cons]
    omega

section Runs

variable {t w rest : Text} {c : CodePoint}

theorem IsRun.length_lt (h : IsRun t w rest) : rest.length < t.length := by
  obtain ⟨⟨before, rfl, -⟩, hne, -, -⟩ := h
  have hpos := List.length_pos_iff.mpr hne
  simp only [List.length_append]
  omega

theorem not_isRun_nil : ¬ IsRun [] w rest := fun h => Nat.not_lt_zero _ h.length_lt

/-- Runs of a text that begins with a blank are runs of the text behind the blank. -/
theorem isRun_cons_iff (hc : c.isBlank = true) : IsRun (c :: t) w rest ↔ IsRun t w rest := by
  constructor
  · intro h
    obtain ⟨⟨before, heq, hlast⟩, hne, hw, hbehind⟩ := h
    refine ⟨?_, hne, hw, hbehind⟩
    cases before with
    | nil =>
        obtain ⟨d, w, rfl⟩ := List.exists_cons_of_ne_nil hne
        cases heq
        have hd := hw c List.mem_cons_self
        rw [hc] at hd
        cases hd
    | cons d before =>
        cases heq
        refine ⟨before, rfl, fun d hd => hlast d ?_⟩
        rw [List.getLast?_cons, Option.mem_def.mp hd]
        rfl
  · intro h
    obtain ⟨⟨before, rfl, hlast⟩, hne, hw, hbehind⟩ := h
    refine ⟨⟨c :: before, rfl, ?_⟩, hne, hw, hbehind⟩
    rw [List.getLast?_cons]
    intro d hd
    cases Option.mem_some.mp hd
    cases hl : before.getLast? with
    | none => exact hc
    | some d => exact hlast d hl

/-- Of a text that begins with a word, the word is a run, and the others are the runs of what
follows it. -/
theorem isRun_append_iff {u v : Text} (hne : u ≠ []) (hu : ∀ c ∈ u, c.isBlank = false)
    (hv : ∀ c ∈ v.head?, c.isBlank = true) :
    IsRun (u ++ v) w rest ↔ w = u ∧ rest = v ∨ IsRun v w rest := by
  constructor
  · intro h
    obtain ⟨⟨before, heq, hlast⟩, hw, hunbroken, hbehind⟩ := h
    obtain ⟨more, rfl, hv'⟩ | ⟨more, rfl, hrest⟩ := List.append_eq_append_iff.mp heq
    · refine .inr ⟨⟨more, hv', fun c hc => hlast c ?_⟩, hw, hunbroken, hbehind⟩
      rw [List.getLast?_append, Option.mem_def.mp hc]
      rfl
    · -- What stands before the run is part of the word `u`, so it cannot end with a blank.
      have hbefore : before = [] := by
        rw [← List.getLast?_eq_none_iff, Option.eq_none_iff_forall_not_mem]
        intro c hc
        have hmem : c ∈ before := List.mem_of_getLast? hc
        have hblank := hlast c hc
        rw [hu c (List.mem_append_left more hmem)] at hblank
        cases hblank
      subst hbefore
      rw [List.nil_append] at hu
      have htake := congrArg (List.takeWhile (!·.isBlank)) hrest
      have hdrop := congrArg (List.dropWhile (!·.isBlank)) hrest
      rw [takeWhile_word_append hunbroken hbehind, takeWhile_word_append hu hv] at htake
      rw [dropWhile_word_append hunbroken hbehind, dropWhile_word_append hu hv] at hdrop
      exact .inl ⟨htake, hdrop⟩
  · intro h
    obtain ⟨rfl, rfl⟩ | ⟨⟨before, rfl, hlast⟩, hw, hunbroken, hbehind⟩ := h
    · exact ⟨⟨[], rfl, nofun⟩, hne, hu, hv⟩
    · refine ⟨⟨u ++ before, (List.append_assoc _ _ _).symm, ?_⟩, hw, hunbroken, hbehind⟩
      intro c hc
      cases before with
      | nil =>
          -- The run cannot follow the word `u` at once.
          obtain ⟨d, w, rfl⟩ := List.exists_cons_of_ne_nil hw
          have hd := hunbroken d List.mem_cons_self
          rw [hv d rfl] at hd
          cases hd
      | cons d before =>
          apply hlast
          rw [List.getLast?_append, List.getLast?_cons] at hc
          rw [List.getLast?_cons]
          exact hc

theorem mem_runs_iff : (w, rest) ∈ runs t ↔ IsRun t w rest := by
  fun_induction runs t with
  | case1 => simp [not_isRun_nil]
  | case2 c t hc ih => rw [isRun_cons_iff hc, ih]
  | case3 c t hc ih =>
      have hu : ∀ d ∈ c :: t.takeWhile (!·.isBlank), d.isBlank = false := by
        intro d hd
        cases List.mem_cons.mp hd with
        | inl heq => simpa [heq] using hc
        | inr hd => simpa using List.mem_takeWhile_imp hd
      have hv : ∀ d ∈ (t.dropWhile (!·.isBlank)).head?, d.isBlank = true := by
        intro d hd
        simpa using head?_dropWhile_eq t d hd
      have hsplit : c :: t = (c :: t.takeWhile (!·.isBlank)) ++ t.dropWhile (!·.isBlank) := by
        rw [List.cons_append, List.takeWhile_append_dropWhile]
      rw [hsplit, isRun_append_iff (List.cons_ne_nil c _) hu hv, List.mem_cons, Prod.mk.injEq, ih]

theorem pairwise_runs (t : Text) : (runs t).Pairwise fun p q => q.2.length < p.2.length := by
  fun_induction runs t with
  | case1 => exact .nil
  | case2 c t hc ih => exact ih
  | case3 c t hc ih => exact .cons (fun q hq => (mem_runs_iff.mp hq).length_lt) ih

theorem map_fst_runs (t : Text) : (runs t).map Prod.fst = t.words := by
  fun_induction runs t with
  | case1 => exact (words.eq_def []).symm
  | case2 c t hc ih =>
      rw [ih, words.eq_def (c :: t)]
      exact (if_pos hc).symm
  | case3 c t hc ih =>
      rw [List.map_cons, ih, words.eq_def (c :: t)]
      exact (if_neg hc).symm

theorem runs_nil : runs [] = [] := runs.eq_def []

theorem runs_cons_of_blank (hc : c.isBlank = true) (t : Text) : runs (c :: t) = runs t := by
  rw [runs.eq_def]
  exact if_pos hc

theorem runs_cons_of_not_blank (hc : ¬ c.isBlank = true) (t : Text) :
    runs (c :: t) =
      (c :: t.takeWhile (!·.isBlank), t.dropWhile (!·.isBlank)) ::
        runs (t.dropWhile (!·.isBlank)) := by
  rw [runs.eq_def]
  exact if_neg hc

theorem runs_tail (h : ∀ c ∈ t.head?, c.isBlank = true) : runs (t.drop 1) = runs t := by
  cases t with
  | nil => rfl
  | cons c t => exact (runs_cons_of_blank (h c rfl) t).symm

/-- The first word is found behind the blanks. -/
theorem runs_eq (t : Text) :
    runs t =
      match t.dropWhile (·.isBlank) with
      | [] => []
      | c :: t =>
          (c :: t.takeWhile (!·.isBlank), t.dropWhile (!·.isBlank)) ::
            runs (t.dropWhile (!·.isBlank)) := by
  induction t with
  | nil => exact runs_nil
  | cons c t ih =>
      by_cases hc : c.isBlank = true
      · rw [runs_cons_of_blank hc, ih, List.dropWhile_cons_of_pos hc]
      · rw [runs_cons_of_not_blank hc, List.dropWhile_cons_of_neg hc]

end Runs
end Text

namespace Decimal

/-- The word is an optional sign and then digits, at least one. -/
structure Numeral (w sign digits : Text) : Prop where
  eq : w = sign ++ digits
  sign : sign = [] ∨ sign = "+" ∨ sign = "-"
  ne_nil : digits ≠ []
  digits : ∀ c ∈ digits, 0x30 ≤ c.val ∧ c.val ≤ 0x39

/-- The number that a sign and digits stand for. -/
def Numeral.number (sign digits : Text) : Int :=
  let n : Nat := Nat.ofDigits 10 (digits.reverse.map fun c => c.val - 0x30)
  if sign = "-" then -n else n

section Numeral

variable {w sign digits : Text}

theorem value_eq_ofDigits (t : Text) :
    value t = Nat.ofDigits 10 (t.reverse.map fun c => c.val - 0x30) := by
  induction t using List.reverseRecOn with
  | nil => rfl
  | append_singleton t c ih =>
      rw [value_append_digit, ih, List.reverse_append, List.reverse_singleton,
        List.singleton_append, List.map_cons, Nat.ofDigits_cons, Nat.add_comm]

theorem isDigit_iff {c : CodePoint} : isDigit c = true ↔ 0x30 ≤ c.val ∧ c.val ≤ 0x39 := by
  simp only [isDigit, Bool.and_eq_true, decide_eq_true_eq]

theorem Numeral.signed_eq (h : Numeral w sign digits) :
    signed w = (decide (sign = "-"), digits) := by
  obtain ⟨rfl, rfl | rfl | rfl, -, hdigits⟩ := h
  · rw [List.nil_append, signed_of_isDigit fun c hc => isDigit_iff.mpr (hdigits c hc)]
    rfl
  · rfl
  · rfl

theorem exists_sign (w : Text) :
    ∃ sign : Text, w = sign ++ (signed w).2 ∧ (sign = [] ∨ sign = "+" ∨ sign = "-") := by
  cases w with
  | nil => exact ⟨[], rfl, .inl rfl⟩
  | cons c w =>
      by_cases hminus : c = .ofChar '-'
      · subst hminus
        exact ⟨"-", rfl, .inr (.inr rfl)⟩
      · by_cases hplus : c = .ofChar '+'
        · subst hplus
          exact ⟨"+", rfl, .inr (.inl rfl)⟩
        · rw [signed, if_neg hminus, if_neg hplus]
          exact ⟨[], rfl, .inl rfl⟩

theorem isNumeral_iff : IsNumeral w ↔ ∃ sign digits, Numeral w sign digits := by
  constructor
  · intro h
    obtain ⟨hne, hall⟩ := h
    obtain ⟨sign, heq, hsign⟩ := exists_sign w
    exact ⟨sign, (signed w).2, heq, hsign, hne, fun c hc =>
      isDigit_iff.mp (List.all_eq_true.mp hall c hc)⟩
  · intro h
    obtain ⟨sign, digits, h⟩ := h
    rw [IsNumeral, h.signed_eq, List.all_eq_true]
    exact ⟨h.ne_nil, fun c hc => isDigit_iff.mpr (h.digits c hc)⟩

theorem Numeral.numeralValue_eq (h : Numeral w sign digits) :
    numeralValue w = Numeral.number sign digits := by
  rw [numeralValue, h.signed_eq, Numeral.number, value_eq_ofDigits]
  simp only [decide_eq_true_eq]

end Numeral
end Decimal

namespace Device

section Words

variable {w sign digits : Text}

theorem numberOfWord_of_numeral (h : Decimal.Numeral w sign digits) :
    numberOfWord w =
      if digits.length ≤ Decimal.maxDigits then .ok (Decimal.Numeral.number sign digits)
      else .error (.tooLong (.reading digits.length)) := by
  rw [numberOfWord, Decimal.read, if_pos (Decimal.isNumeral_iff.mpr ⟨sign, digits, h⟩),
    h.numeralValue_eq, h.signed_eq]
  by_cases hlen : digits.length ≤ Decimal.maxDigits
  · rw [if_pos hlen, if_pos hlen]
  · rw [if_neg hlen, if_neg hlen]

theorem numberOfWord_of_not_numeral (h : ¬ ∃ sign digits, Decimal.Numeral w sign digits) :
    numberOfWord w = .error (.fault (.notANumber w)) := by
  rw [numberOfWord, Decimal.read, if_neg (mt Decimal.isNumeral_iff.mp h)]

end Words

section Reads

variable {t w rest : Text} {ws : List (Text × Text)} (out : Output)

theorem readNumber_of_runs_nil (h : t.runs = []) :
    (⟨.ofText t, out⟩ : Device).readNumber =
      (.error (.fault .noNumberLeft), ⟨.ofText [], out⟩) := by
  rw [readNumber_ofText]
  rw [Text.runs_eq] at h
  cases hdrop : t.dropWhile (·.isBlank) with
  | nil => rfl
  | cons c t =>
      rw [hdrop] at h
      cases h

/-- A read takes the first word and the blank behind it, and leaves the other words. -/
theorem readNumber_of_runs_cons (h : t.runs = (w, rest) :: ws) :
    (⟨.ofText t, out⟩ : Device).readNumber =
        (numberOfWord w, ⟨.ofText (rest.drop 1), out⟩) ∧ Text.runs (rest.drop 1) = ws := by
  rw [readNumber_ofText]
  rw [Text.runs_eq] at h
  cases hdrop : t.dropWhile (·.isBlank) with
  | nil =>
      rw [hdrop] at h
      cases h
  | cons c t =>
      rw [hdrop] at h
      cases h
      refine ⟨rfl, Text.runs_tail fun d hd => ?_⟩
      simpa using Text.head?_dropWhile_eq t d hd

/-- What earlier reads leave has the words that they have not taken. -/
theorem calls_readNumber_runs (t : Text) (k : Nat) :
    ∃ t' : Text, (calls (List.replicate k readNumber) ⟨.ofText t, out⟩).2 = ⟨.ofText t', out⟩ ∧
      t'.runs = t.runs.drop k := by
  induction k generalizing t with
  | zero => exact ⟨t, rfl, rfl⟩
  | succ k ih =>
      rw [List.replicate_succ, calls]
      cases hruns : t.runs with
      | nil =>
          obtain ⟨t', hcalls, ht'⟩ := ih []
          rw [readNumber_of_runs_nil out hruns]
          refine ⟨t', hcalls, ?_⟩
          rw [ht', Text.runs_nil, List.drop_nil, List.drop_nil]
      | cons p ws =>
          obtain ⟨w, rest⟩ := p
          obtain ⟨hread, hrest⟩ := readNumber_of_runs_cons out hruns
          obtain ⟨t', hcalls, ht'⟩ := ih (rest.drop 1)
          rw [hread]
          refine ⟨t', hcalls, ?_⟩
          rw [ht', hrest]
          rfl

end Reads
end Device

/-- The reads of a text take its words in order, whatever the words are. Each leaves what follows
its word without the blank behind it, so the word decides about its own read alone. Reads after the
last word find no number. -/
theorem read_word_by_word (t : Text) (out : Output) :
    ∃ ws : List (Text × Text), (∀ w rest, (w, rest) ∈ ws ↔ t.IsRun w rest) ∧
      ws.Pairwise (fun p q => q.2.length < p.2.length) ∧ ws.map Prod.fst = t.words ∧
      (∀ i w rest, ws[i]? = some (w, rest) →
        let d := (Device.calls (List.replicate i Device.readNumber) ⟨.ofText t, out⟩).2
        d.readNumber.2 = ⟨.ofText (rest.drop 1), out⟩ ∧
        (∀ sign digits, Decimal.Numeral w sign digits →
          (digits.length ≤ 4300 → d.readNumber.1 = .ok (Decimal.Numeral.number sign digits)) ∧
          (4300 < digits.length → ∃ e, d.readNumber.1 = .error e ∧ e.kind = .tooLong)) ∧
        ((¬ ∃ sign digits, Decimal.Numeral w sign digits) → ∃ e, d.readNumber.1 = .error e ∧
          e.kind = .numberFormat ∧ e.message = "Not a number: " ++ w.quoted)) ∧
      ∃ e : Failure, e.kind = .numberFormat ∧ e.message = "No number left in input" ∧
        ∀ i, ws.length ≤ i →
          (Device.calls (List.replicate i Device.readNumber) ⟨.ofText t, out⟩).2.readNumber =
            (.error e, ⟨.ofText [], out⟩) := by
  refine ⟨t.runs, fun w rest => Text.mem_runs_iff, Text.pairwise_runs t, Text.map_fst_runs t, ?_,
    .fault .noNumberLeft, rfl, rfl, ?_⟩
  · intro i w rest hi d
    obtain ⟨t', ht', hruns⟩ := Device.calls_readNumber_runs out t i
    rw [List.drop_eq_getElem?_toList_append, hi] at hruns
    obtain ⟨hread, -⟩ := Device.readNumber_of_runs_cons out hruns
    have hd : d.readNumber = _ := (congrArg Device.readNumber ht').trans hread
    have hmax : Decimal.maxDigits = 4300 := by unfold Decimal.maxDigits; rfl
    refine ⟨congrArg Prod.snd hd, fun sign digits hw => ?_, fun hw => ?_⟩
    · rw [hd, Device.numberOfWord_of_numeral hw, hmax]
      refine ⟨fun hlen => if_pos hlen, fun hlen => ?_⟩
      exact ⟨_, if_neg (Nat.not_le_of_lt hlen), rfl⟩
    · exact ⟨_, (congrArg Prod.fst hd).trans (Device.numberOfWord_of_not_numeral hw), rfl, rfl⟩
  · intro i hi
    obtain ⟨t', ht', hruns⟩ := Device.calls_readNumber_runs out t i
    rw [List.drop_eq_nil_of_le hi] at hruns
    rw [ht', Device.readNumber_of_runs_nil out hruns]

end WhitespaceLang
