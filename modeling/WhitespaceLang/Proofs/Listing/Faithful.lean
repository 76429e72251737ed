import WhitespaceLang.Proofs.Listing.Line
import WhitespaceLang.Proofs.Machine.DigitLimit
import WhitespaceLang.Proofs.Source.Spelled

/-!
Listings are faithful. A program that is loaded has a line for each of its instructions, with the
marks at the margin, and two texts with the same listing hold the same program.
-/

namespace WhitespaceLang

/-- The lines of a text can be told from the text, if none of them holds a line feed. -/
theorem Text.unlines_injective {ls ls' : List Text} (h : ∀ l ∈ ls, lineFeed ∉ l)
    (h' : ∀ l ∈ ls', lineFeed ∉ l) (heq : unlines ls = unlines ls') : ls = ls' := by
  induction ls generalizing ls' with
  | nil =>
      cases ls' with
      | nil => rfl
      | cons l' ls' => simp [unlines] at heq
  | cons l ls ih =>
      cases ls' with
      | nil => simp [unlines] at heq
      | cons l' ls' =>
          rw [List.forall_mem_cons] at h h'
          simp only [unlines, List.flatMap_cons, List.append_assoc] at heq
          obtain ⟨rfl, htail⟩ := append_inj_of_not_mem h.1 h'.1 rfl rfl heq
          rw [ih h.2 h'.2 (List.append_cancel_left htail)]

namespace Listing

variable {is : List Instr} {ls : List Text} {t : Text}

theorem lines_eq_iff : lines is = (ls, none) ↔ List.Forall₂ Line is ls := by
  induction is generalizing ls with
  | nil => simp [lines, eq_comm]
  | cons i is ih =>
      cases hl : line i with
      | error e =>
          simp only [lines, hl, Prod.mk.injEq, reduceCtorEq, and_false, false_iff]
          intro h
          cases h with
          | cons hline htail =>
              rw [line_eq_ok_iff.mpr hline] at hl
              cases hl
      | ok l =>
          have hline (l' : Text) : Line i l' ↔ l' = l := by
            rw [← line_eq_ok_iff, hl, Except.ok.injEq, eq_comm]
          simp only [lines, hl, List.forall₂_cons_left_iff, hline, ← ih, Prod.mk.injEq]
          constructor
          · intro h
            exact ⟨l, _, rfl, Prod.ext rfl h.2, h.1.symm⟩
          · rintro ⟨_, ls', rfl, htail, rfl⟩
            rw [htail]
            exact ⟨rfl, rfl⟩

/-- A listing is complete if the text is read to its end and every instruction has a line. -/
theorem ofText_eq_iff {out : Text} :
    ofText t = (out, none) ↔
      ∃ is ls, Flow.instrsOf t = (is, none) ∧ List.Forall₂ Line is ls ∧
        out = Text.unlines ls := by
  simp only [← lines_eq_iff, ofText]
  obtain ⟨is, problem⟩ := Flow.instrsOf t
  cases hlines : lines is with
  | mk ls e =>
      cases e with
      | some e => simp [hlines]
      | none => cases problem <;> simp [hlines, eq_comm]

theorem lineFeed_not_mem_of_lines (h : List.Forall₂ Line is ls) : ∀ l ∈ ls, Text.lineFeed ∉ l := by
  induction h with
  | nil => exact List.forall_mem_nil _
  | cons hline _ ih => exact List.forall_mem_cons.mpr ⟨hline.lineFeed_not_mem, ih⟩

theorem exists_instr_of_line (h : List.Forall₂ Line is ls) {p : Nat} {l : Text}
    (hl : ls[p]? = some l) : ∃ i, is[p]? = some i ∧ Line i l := by
  induction h generalizing p with
  | nil => cases hl
  | cons hline _ ih =>
      cases p with
      | zero =>
          cases hl
          exact ⟨_, rfl, hline⟩
      | succ p => exact ih hl

theorem exists_lines (h : ∀ i ∈ is, ∀ n, i.number? = some n → Decimal.Fits n) :
    ∃ ls, List.Forall₂ Line is ls := by
  induction is with
  | nil => exact ⟨[], .nil⟩
  | cons i is ih =>
      rw [List.forall_mem_cons] at h
      obtain ⟨l, hl⟩ := exists_line h.1
      obtain ⟨ls, hls⟩ := ih h.2
      exact ⟨l :: ls, .cons hl hls⟩

/-- The listing tells the instructions that were read. -/
theorem instrsOf_eq_of_ofText_eq {t' out : Text} (h : ofText t = (out, none))
    (h' : ofText t' = (out, none)) : Flow.instrsOf t = Flow.instrsOf t' := by
  obtain ⟨is, ls, his, hlines, rfl⟩ := ofText_eq_iff.mp h
  obtain ⟨is', ls', his', hlines', heq⟩ := ofText_eq_iff.mp h'
  obtain rfl := Text.unlines_injective (lineFeed_not_mem_of_lines hlines)
    (lineFeed_not_mem_of_lines hlines') heq
  have hunique : Relator.LeftUnique Line := fun _ _ _ => Line.injective
  rw [his, his', List.left_unique_forall₂' hunique hlines hlines']

end Listing

/-- The listing of a loaded program has a line for each instruction, in order. The lines that are
not indented are the marks, and they stand where the label table says. Two texts with the same
listing hold the same instructions, and so they are loaded and run alike. -/
theorem listing_faithful (t t' : Text) :
    (∀ f, Flow.load t = .ok f →
      (∀ i ∈ f.program.toList, ∀ n, i.number? = some n → Decimal.Fits n) →
      ∃ ls, Listing.ofText t = (Text.unlines ls, none) ∧ (∀ l ∈ ls, Text.lineFeed ∉ l) ∧
        ls.length = f.program.size ∧
        ∀ p l, ls[p]? = some l →
          (∃ i, f.program[p]? = some i ∧ Listing.line i = .ok l) ∧
          (¬ Listing.indent <+: l ↔ ∃ label, f.labels.lookup label = some p) ∧
          ∀ label, f.labels.lookup label = some p → l = "L_" ++ label.text ++ ":") ∧
    ∀ out, Listing.ofText t = (out, none) → Listing.ofText t' = (out, none) →
      Flow.instrsOf t = Flow.instrsOf t' ∧ Flow.load t = Flow.load t' ∧
        ∀ fuel stdin, interpret fuel t stdin = interpret fuel t' stdin := by
  refine ⟨?_, ?_⟩
  · intro f hload hfits
    have hmarks := (Flow.Loaded.text hload).labelsMatch
    obtain ⟨is, his, -, rfl⟩ := Flow.load_eq_ok_iff.mp hload
    have hfits : ∀ i ∈ is, ∀ n, i.number? = some n → Decimal.Fits n := hfits
    obtain ⟨ls, hls⟩ := Listing.exists_lines hfits
    refine ⟨ls, Listing.ofText_eq_iff.mpr ⟨is, ls, his, hls, rfl⟩,
      Listing.lineFeed_not_mem_of_lines hls, hls.length_eq.symm, ?_⟩
    intro p l hl
    obtain ⟨i, hi, hline⟩ := Listing.exists_instr_of_line hls hl
    -- The margin and the label table both tell whether this instruction is a mark.
    have hmark (label : Label) :
        (Flow.ofInstrs is).finish.labels.lookup label = some p ↔ i.mark? = some label := by
      rw [hmarks, Flow.getElem?_ofInstrs, hi, Option.some.injEq, InstrOf.mark?_eq_some_iff]
    refine ⟨⟨i, (Flow.getElem?_ofInstrs is p).trans hi, Listing.line_eq_ok_iff.mpr hline⟩, ?_, ?_⟩
    · simp only [hmark, hline.indent_isPrefix_iff, Option.ne_none_iff_exists', ← ne_eq]
    · intro label hlabel
      obtain rfl := InstrOf.mark?_eq_some_iff.mp ((hmark label).mp hlabel)
      exact (Except.ok.inj (Listing.line_eq_ok_iff.mpr hline)).symm
  · intro out h h'
    have hinstrs := Listing.instrsOf_eq_of_ofText_eq h h'
    have hload : Flow.load t = Flow.load t' := by simp only [Flow.load_eq, hinstrs]
    refine ⟨hinstrs, hload, ?_⟩
    intro fuel stdin
    simp only [interpret, hload]

/-- A loop that is loaded and listed, and the same loop behind a comment. -/
theorem listing_faithful_of_loop :
    let is : List Instr := [.mark [true], .push (-2), .jump [true]]
    let t := sourceOf is
    let t' := .ofChar '#' :: t
    (∃ ls, Listing.ofText t = (Text.unlines ls, none) ∧ ls.length = 3 ∧
      ∀ l, ls[0]? = some l → ¬ Listing.indent <+: l ∧ l = "L_1:") ∧
    Flow.instrsOf t = Flow.instrsOf t' := by
  intro is t t'
  have hspelled : Spelled is t := spelled_sourceOf is
  have hspelled' : Spelled is t' := by
    obtain ⟨es, hes, hcomment⟩ := hspelled
    exact ⟨es, hes, .comment (fun s => by cases s <;> decide) hcomment⟩
  have hload : Flow.load t = .ok (Flow.ofInstrs is).finish :=
    Flow.load_of_spelled hspelled (List.nodup_singleton _)
  have hfits : ∀ i ∈ (Flow.ofInstrs is).finish.program.toList, ∀ n, i.number? = some n →
      Decimal.Fits n := by
    have hfits : Decimal.Fits (-2) := Decimal.fits_of_lt (by decide)
    intro i hi n hn
    obtain rfl | rfl | rfl : i = .mark [true] ∨ i = .push (-2) ∨ i = .jump [true] := by
      simpa [Flow.ofInstrs, Flow.finish, is] using hi
    all_goals cases hn
    exact hfits
  have hsame : Listing.ofText t' = Listing.ofText t := by
    simp only [Listing.ofText, Flow.instrsOf_of_spelled hspelled,
      Flow.instrsOf_of_spelled hspelled']
  obtain ⟨hlisting, hread⟩ := listing_faithful t t'
  obtain ⟨ls, hls, -, hlength, hlines⟩ := hlisting _ hload hfits
  refine ⟨⟨ls, hls, hlength, ?_⟩, ?_⟩
  · intro l hl
    obtain ⟨-, hmargin, hmark⟩ := hlines 0 l hl
    exact ⟨hmargin.mpr ⟨[true], rfl⟩, hmark [true] rfl⟩
  · exact (hread _ hls (hsame.trans hls)).1

end WhitespaceLang
