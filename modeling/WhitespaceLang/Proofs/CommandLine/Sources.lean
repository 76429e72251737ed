import Mathlib.Data.List.TakeWhile
import WhitespaceLang.CommandLine
import WhitespaceLang.Proofs.Listing.Faithful
import WhitespaceLang.Proofs.Source.LineEnds

/-!
Listings of a program from a file and from standard input. Both are listings of the text that the
bytes decode to, but the line ends of standard input are unified first, so the two agree as long as
no carriage return stands alone.
-/

namespace WhitespaceLang

namespace Utf8

theorem exists_decodeFrom_of_cons {p : Piece} {ps : List Piece} {position : Nat} {t : Text}
    (h : decodeFrom position (p :: ps) = (t, none)) :
    ∃ c rest position', p = .char c ∧ t = c :: rest ∧ decodeFrom position' ps = (rest, none) := by
  cases p with
  | char c =>
      simp only [decodeFrom] at h
      obtain ⟨rfl, hnone⟩ := Prod.mk.inj h
      exact ⟨c, _, _, rfl, rfl, Prod.ext rfl hnone⟩
  | flaw f => cases h

/-- Where strict decoding succeeds, lenient decoding gives the same text. -/
theorem decodeReplacing_of_decode {bytes : List UInt8} {t : Text}
    (h : decode bytes = (t, none)) : decodeReplacing bytes = t := by
  rw [decode] at h
  rw [decodeReplacing]
  generalize pieces bytes = ps at h
  generalize 0 = position at h
  induction ps generalizing position t with
  | nil =>
      cases h
      rfl
  | cons p ps ih =>
      obtain ⟨c, rest, position', rfl, rfl, hrest⟩ := exists_decodeFrom_of_cons h
      rw [List.map_cons, ih position' hrest]

end Utf8

namespace CommandLine

/-- A name that is no option and that a file may have. -/
structure IsFileName (name : Text) : Prop where
  operand : ∃ c rest, name = c :: rest ∧ c ≠ dash
  encodable : ∀ c ∈ name, c.isSurrogate → standsForByte c
  noNul : .ofNat 0 ∉ name

/-- Most names are encoded without surrogates. -/
theorem isFileName_of_all {name : Text} (hop : ∃ c rest, name = c :: rest ∧ c ≠ dash)
    (h : name.all fun c => !c.isSurrogate && c != .ofNat 0) : IsFileName name := by
  simp only [List.all_eq_true, Bool.and_eq_true, Bool.not_eq_true', bne_iff_ne] at h
  refine ⟨hop, ?_, fun hnul => (h _ hnul).2 rfl⟩
  intro c hc hs
  rw [(h c hc).1] at hs
  cases hs

def listing (program : Text) : Settings := { Settings.default with program, pseudo := true }

theorem classify_of_ne_dash {c : CodePoint} {rest : Text} (h : c ≠ dash) :
    classify (c :: rest) = .ok (.operand (c :: rest)) := by
  cases rest with
  | nil => rfl
  | cons d rest => exact if_pos h

theorem parse_listing {program : Text} (hword : classify program = .ok (.operand program))
    (hsep : isSeparator program = false) :
    parse ["--pseudo", program] = .ok (listing program) := by
  have hflag : classify "--pseudo" = .ok (.long .pseudo none) := rfl
  have hflagsep : isSeparator "--pseudo" = false := rfl
  have hwords : classifyAll ["--pseudo", program] = .ok [.long .pseudo none, .operand program] := by
    simp only [classifyAll, List.takeWhile_cons, List.dropWhile_cons, hflagsep, hsep,
      Bool.not_false, ↓reduceIte, List.takeWhile_nil, List.dropWhile_nil, List.mapM_cons,
      List.mapM_nil, hflag, hword]
    rfl
  simp only [parse, hwords]
  rfl

theorem parse_stdin : parse ["--pseudo", "-"] = .ok (listing "-") := parse_listing rfl rfl

theorem parse_program {program : Text} (hword : classify program = .ok (.operand program))
    (hsep : isSeparator program = false) :
    parse [program] = .ok { Settings.default with program } := by
  have hwords : classifyAll [program] = .ok [.operand program] := by
    simp only [classifyAll, List.takeWhile_cons, List.dropWhile_cons, hsep, Bool.not_false,
      ↓reduceIte, List.takeWhile_nil, List.dropWhile_nil, List.mapM_cons, List.mapM_nil, hword]
    rfl
  simp only [parse, hwords]
  rfl

theorem IsFileName.ne_nil {name : Text} (h : IsFileName name) : name ≠ [] := by
  obtain ⟨c, rest, rfl, -⟩ := h.operand
  exact List.cons_ne_nil c rest

theorem IsFileName.classify {name : Text} (h : IsFileName name) :
    classify name = .ok (.operand name) := by
  obtain ⟨c, rest, rfl, hc⟩ := h.operand
  exact classify_of_ne_dash hc

theorem IsFileName.isSeparator {name : Text} (h : IsFileName name) : isSeparator name = false := by
  obtain ⟨c, rest, rfl, hc⟩ := h.operand
  rw [CommandLine.isSeparator, beq_eq_false_iff_ne]
  intro heq
  exact hc (List.head_eq_of_cons_eq heq)

theorem IsFileName.parse {name : Text} (h : IsFileName name) :
    parse ["--pseudo", name] = .ok (listing name) :=
  parse_listing h.classify h.isSeparator

theorem IsFileName.refusal {name : Text} (h : IsFileName name) :
    Utf8.refusalFrom (fun c => c.isSurrogate && !standsForByte c) name = none := by
  apply Utf8.refusalFrom_eq_none
  intro c hc
  cases hs : c.isSurrogate with
  | false => rfl
  | true => rw [h.encodable c hc hs]; rfl

theorem ofName?_default : Encoding.ofName? Settings.default.encoding = some .utf8 := by decide

theorem IsFileName.readSource {name : Text} (h : IsFileName name) {read : FileReader}
    {bytes : List UInt8} (hread : read name = .ok bytes) {settings : Settings}
    (hsettings : settings.encoding = Settings.default.encoding) (stdin : List UInt8) :
    readSource settings name read stdin = .text (Utf8.decodeReplacing bytes) (.ofBytes stdin) := by
  have hdash : name ≠ "-" := by
    intro hdash
    obtain ⟨c, rest, heq, hc⟩ := h.operand
    exact hc (List.head_eq_of_cons_eq (heq.symm.trans hdash))
  have hnul : name.contains (.ofNat 0) = false := by
    rw [List.contains_eq_mem, decide_eq_false_iff_not]
    exact h.noNul
  have hencoding : Encoding.ofName? settings.encoding = some .utf8 := by
    rw [hsettings, ofName?_default]
  rw [CommandLine.readSource, if_neg hdash]
  simp only [CommandLine.readFile, h.refusal, hnul, hread, hencoding, Encoding.decodeReplacing]
  rfl

section Sources

variable {name : Text} {bytes : List UInt8} {t : Text} {read : FileReader}

/-- What is listed or run is the text that is read. -/
theorem run_of_settings {args : List Text} {settings : Settings}
    (hparse : parse args = .ok settings) (htest : settings.test = false)
    (hprogram : settings.program = some name) (hname : name ≠ []) {stdin : List UInt8}
    {input : Input} (hread : readSource settings name read stdin = .text t input) (fuel : Nat) :
    run fuel args read stdin =
      if settings.pseudo then some (listText t) else runText fuel settings.verbose t input := by
  cases name with
  | nil => exact absurd rfl hname
  | cons c rest =>
      simp only [run, hparse, htest, hprogram, Option.getD_some, hread]
      rfl

theorem run_listing (hparse : parse ["--pseudo", name] = .ok (listing name)) (hname : name ≠ [])
    {stdin : List UInt8} {input : Input}
    (hread : readSource (listing name) name read stdin = .text t input) (fuel : Nat) :
    run fuel ["--pseudo", name] read stdin = some (listText t) :=
  run_of_settings hparse rfl rfl hname hread fuel

/-- The program in a file is the text that its bytes stand for, wrong ones replaced. -/
theorem run_listed (h : IsFileName name) (hread : read name = .ok bytes) (fuel : Nat)
    (stdin : List UInt8) :
    run fuel ["--pseudo", name] read stdin = some (listText (Utf8.decodeReplacing bytes)) :=
  run_listing h.parse h.ne_nil (h.readSource hread rfl stdin) fuel

theorem run_program (h : IsFileName name) (hread : read name = .ok bytes) (fuel : Nat)
    (stdin : List UInt8) :
    run fuel [name] read stdin =
      runText fuel false (Utf8.decodeReplacing bytes) (.ofBytes stdin) :=
  run_of_settings (parse_program h.classify h.isSeparator) rfl rfl h.ne_nil
    (h.readSource hread rfl stdin) fuel

theorem run_file (h : IsFileName name) (hread : read name = .ok bytes)
    (ht : Utf8.decode bytes = (t, none)) (fuel : Nat) (stdin : List UInt8) :
    run fuel ["--pseudo", name] read stdin = some (listText t) := by
  rw [run_listed h hread, Utf8.decodeReplacing_of_decode ht]

theorem run_stdin (ht : Utf8.decode bytes = (t, none)) (fuel : Nat) (read : FileReader) :
    run fuel ["--pseudo", "-"] read bytes = some (listText t.unifyLineEnds) := by
  have hsource : readSource (listing "-") "-" read bytes =
      .text t.unifyLineEnds (.ofText []) := by
    rw [readSource, if_pos rfl, readStdin, ht]
  exact run_listing parse_stdin (by decide) hsource fuel

/-- A listing depends on the symbols of a text only. -/
theorem listText_symbols (t : Text) : listText t = listText (Symbol.source t.symbols) := by
  simp only [listText, Listing.ofText, Flow.instrsOf, Lexer.ofText, Text.symbols_source]

theorem listText_eq_returned_iff {out : Text} :
    listText t = ⟨.returned 0, out, []⟩ ↔ Listing.ofText t = (out, none) := by
  simp only [listText]
  obtain ⟨out', problem⟩ := Listing.ofText t
  cases problem with
  | none => simp
  | some problem => cases problem <;> simp

theorem listText_unifyLineEnds (h : t.loneReturns = 0) : listText t.unifyLineEnds = listText t := by
  rw [listText_symbols, Text.symbols_unifyLineEnds h, ← listText_symbols]

/-- A listing that is complete is the same with unified line ends just if no carriage return stands
alone. -/
theorem listText_unifyLineEnds_iff {out : Text} (h : listText t = ⟨.returned 0, out, []⟩) :
    listText t.unifyLineEnds = listText t ↔ t.loneReturns = 0 := by
  constructor
  · intro hsame
    rw [h, listText_eq_returned_iff] at hsame
    rw [listText_eq_returned_iff] at h
    obtain ⟨is, ls, hread, -, -⟩ := Listing.ofText_eq_iff.mp h
    -- The same listing means the same instructions, and they fix the number of feeds.
    have heq := Listing.instrsOf_eq_of_ofText_eq h hsame
    exact loneReturns_eq_zero_of_instrsOf_eq hread (heq ▸ hread)
  · exact listText_unifyLineEnds

end Sources

/-- Whatever it is read from, a program is listed by its spaces, tabs and line feeds. From a file
these are the ones in it, and from standard input the ones with its line ends unified. No more is
needed for the two to agree than that no carriage return stands alone, and no less where the file is
listed to its end. -/
theorem listing_of_sources {name : Text} {bytes : List UInt8} {t : Text} {read : FileReader}
    (hname : IsFileName name) (hread : read name = .ok bytes)
    (ht : Utf8.decode bytes = (t, none)) (fuel : Nat) (stdin : List UInt8) :
    let fromFile := run fuel ["--pseudo", name] read stdin
    let fromStdin := run fuel ["--pseudo", "-"] read bytes
    fromFile = some (listText (Symbol.source t.symbols)) ∧
    fromStdin = some (listText (Symbol.source t.unifyLineEnds.symbols)) ∧
    (t.loneReturns = 0 → fromStdin = fromFile) ∧
    ∀ out, fromFile = some ⟨.returned 0, out, []⟩ →
      (fromStdin = fromFile ↔ t.loneReturns = 0) := by
  simp only [run_file hname hread ht, run_stdin ht, ← listText_symbols, Option.some.injEq, true_and]
  exact ⟨listText_unifyLineEnds, fun out hout => listText_unifyLineEnds_iff hout⟩

/-- The instruction that ends a program, with a carriage return before each line feed. -/
theorem listing_of_sources_of_paired_returns :
    let bytes : List UInt8 := [0x0D, 0x0A, 0x0D, 0x0A, 0x0D, 0x0A]
    let read : FileReader := fun _ => .ok bytes
    IsFileName "exit.ws" ∧ Utf8.decode bytes = (("\r\n\r\n\r\n" : Text), none) ∧
      run 1 ["--pseudo", "-"] read bytes = run 1 ["--pseudo", "exit.ws"] read [] := by
  intro bytes read
  have hname : IsFileName "exit.ws" := isFileName_of_all ⟨_, _, rfl, by decide⟩ (by decide)
  have ht : Utf8.decode bytes = (("\r\n\r\n\r\n" : Text), none) := by decide
  have hread : read "exit.ws" = .ok bytes := rfl
  obtain ⟨-, -, hsame, -⟩ := listing_of_sources hname hread ht 1 []
  exact ⟨hname, ht, hsame (by decide)⟩

/-- Three carriage returns are a comment in a file and a program on standard input. -/
theorem listing_differs_on_lone_returns :
    let bytes : List UInt8 := [0x0D, 0x0D, 0x0D]
    let read : FileReader := fun _ => .ok bytes
    run 1 ["--pseudo", "exit.ws"] read [] = some ⟨.returned 0, [], []⟩ ∧
      run 1 ["--pseudo", "-"] read bytes = some ⟨.returned 0, "    exit\n", []⟩ := by
  intro bytes read
  have hname : IsFileName "exit.ws" := isFileName_of_all ⟨_, _, rfl, by decide⟩ (by decide)
  have ht : Utf8.decode bytes = (("\r\r\r" : Text), none) := by decide
  have hfile : Flow.instrsOf "\r\r\r" = ([], none) := Parser.instrs_nil
  have hspelled : Spelled [.exit] (Text.unifyLineEnds "\r\r\r") := spelled_sourceOf [.exit]
  have hstdin := Flow.instrsOf_of_spelled hspelled
  have hline : Listing.Line .exit "    exit" := .indented rfl rfl
  rw [run_file hname rfl ht, run_stdin ht]
  refine ⟨congrArg some (listText_eq_returned_iff.mpr ?_),
    congrArg some (listText_eq_returned_iff.mpr ?_)⟩
  · exact Listing.ofText_eq_iff.mpr ⟨[], [], hfile, .nil, rfl⟩
  · exact Listing.ofText_eq_iff.mpr ⟨[.exit], _, hstdin, .cons hline .nil, rfl⟩

end CommandLine
end WhitespaceLang
