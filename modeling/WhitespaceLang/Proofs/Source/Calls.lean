import WhitespaceLang.Proofs.Source.Decoding
import Mathlib.Logic.Function.Iterate

/-!
Calls of the lexer one after another, whatever they answer. They take the symbols of a text in
order, none twice and none left out. What an earlier call can leave to a later one is no more than
the literal of an opcode, so the lexer is as good as new behind everything else.
-/

namespace WhitespaceLang
open Spelling

theorem Opcode.one_lt_length_code (op : Opcode) : 1 < op.code.length := by
  cases op <;> decide

namespace Text

/-- The text `t'` is what is left of `t` when the symbols `w` have been read. The comments between
these and the next symbol may be read or not. -/
def Unread (t : Text) (w : List Symbol) (t' : Text) : Prop :=
  ∃ t₀, t = t₀ ++ t' ∧ Commented (Symbol.source w) t₀

theorem exists_unread {t : Text} {w w' : List Symbol} (h : t.symbols = w ++ w') :
    ∃ t', t.Unread w t' := by
  obtain ⟨t₀, t', ht, hw, -⟩ := List.filterMap_eq_append_iff.mp h
  exact ⟨t', t₀, ht, commented_source_iff.mpr hw.symm⟩

theorem Unread.symbols_eq {t t' : Text} {w : List Symbol} (h : t.Unread w t') :
    t.symbols = w ++ t'.symbols := by
  obtain ⟨t₀, rfl, hw⟩ := h
  rw [commented_source_iff.mp hw]
  exact List.filterMap_append

end Text

namespace Lexer

section Literals

variable {w rest : List Symbol} {e : LexError}

theorem isSuffix_of_readNumber (h : readNumber w = (.error e, rest)) : rest <:+ w := by
  have hw := numberReading w
  rw [h] at hw
  cases hw with
  | noSign => exact List.suffix_cons _ _
  | noDigits => exact ⟨[_, _], rfl⟩
  | empty => exact List.nil_suffix
  | unended => exact List.nil_suffix

theorem not_isPrefix_of_readNumber (h : readNumber w = (.error e, rest)) {v : List Symbol}
    (hv : Param (some .number) v) : ¬ v <+: w := by
  intro hp
  obtain ⟨n, hn⟩ := exists_number_of_param hv
  obtain ⟨rest', rfl⟩ := hp
  rw [readNumber_spelled hn] at h
  cases h

theorem not_isPrefix_of_not_mem (h : .feed ∉ w) {v : List Symbol} (hv : Param (some .label) v) :
    ¬ v <+: w := by
  intro hp
  cases hv with
  | label hb => exact h (hp.subset (by simp))

end Literals

/-- The ways a call can go: the symbols it takes, its answer and the lexer behind it. Where a
literal is owed, a call that fails has not come to one. -/
inductive Answering : Lexer → List Symbol → Except LexError (Option Token) × Lexer → Prop
  | ended : Answering (ofSymbols []) [] (.ok none, ofSymbols [])
  | op (op : Opcode) (rest : List Symbol) :
      Answering (ofSymbols (op.code ++ rest)) op.code (.ok (some (.op op)), ⟨rest, op.param⟩)
  | number {n : Int} {v : List Symbol} (h : Spelling.Number n v) (rest : List Symbol) :
      Answering ⟨v ++ rest, some .number⟩ v (.ok (some (.number n)), ofSymbols rest)
  | label (l : Label) (rest : List Symbol) :
      Answering ⟨bits l ++ rest, some .label⟩ (bits l) (.ok (some (.label l)), ofSymbols rest)
  | noCode {u : List Symbol} {e : LexError} (rest : List Symbol) (hne : u ≠ [])
      (h : Complaint (u ++ rest) e.message) :
      Answering (ofSymbols (u ++ rest)) u (.error e, ofSymbols rest)
  | noLiteral {kind : ParamKind} {u : List Symbol} {e : LexError} (rest : List Symbol)
      (hno : ∀ v, Param (some kind) v → ¬ v <+: u ++ rest)
      (h : ∀ op : Opcode, op.param = some kind → Complaint (op.code ++ (u ++ rest)) e.message) :
      Answering ⟨u ++ rest, some kind⟩ u (.error e, ofSymbols rest)

theorem next_opcode (w : List Symbol) :
    (ofSymbols w).next =
      match readOpcode [] w with
      | (.ok (some op), rest) => (.ok (some (.op op)), ⟨rest, op.param⟩)
      | (.ok none, rest) => (.ok none, ofSymbols rest)
      | (.error e, rest) => (.error e, ofSymbols rest) := rfl

theorem next_number (w : List Symbol) :
    next ⟨w, some .number⟩ =
      ((readNumber w).1.map fun n => some (.number n), ofSymbols (readNumber w).2) := by
  simp only [next]
  obtain ⟨e | n, rest⟩ := readNumber w <;> rfl

theorem next_label (w : List Symbol) :
    next ⟨w, some .label⟩ =
      ((readLabel w).1.map fun l => some (.label l), ofSymbols (readLabel w).2) := by
  simp only [next]
  obtain ⟨e | l, rest⟩ := readLabel w <;> rfl

theorem exists_answering_opcode (w : List Symbol) :
    ∃ u, Answering (ofSymbols w) u (ofSymbols w).next := by
  have hw := opcodeReading w
  rw [next_opcode]
  generalize hr : readOpcode [] w = r at hw
  cases hw with
  | op op rest => exact ⟨_, .op op rest⟩
  | ended => exact ⟨_, .ended⟩
  | inside hne _ =>
      have hcomplaint := complaint_of_readOpcode hr
      rw [← List.append_nil w] at hcomplaint ⊢
      exact ⟨_, .noCode [] hne hcomplaint⟩
  | @unknown seen s rest =>
      have hcomplaint := complaint_of_readOpcode hr
      rw [List.append_cons] at hcomplaint ⊢
      exact ⟨_, .noCode rest (by simp) hcomplaint⟩

theorem exists_answering_number (w : List Symbol) :
    ∃ u, Answering ⟨w, some .number⟩ u (next ⟨w, some .number⟩) := by
  have hw := numberReading w
  rw [next_number]
  cases hr : readNumber w with
  | mk r rest =>
      rw [hr] at hw
      cases r with
      | ok n =>
          cases hw with
          | number rest hv => exact ⟨_, .number hv rest⟩
      | error e =>
          obtain ⟨u, rfl⟩ := isSuffix_of_readNumber hr
          refine ⟨u, .noLiteral rest (fun v => not_isPrefix_of_readNumber hr) fun op hop => ?_⟩
          rw [message_of_readNumber hr]
          exact .number hop _

theorem exists_answering_label (w : List Symbol) :
    ∃ u, Answering ⟨w, some .label⟩ u (next ⟨w, some .label⟩) := by
  rw [next_label]
  cases hb : readBits w with
  | some r =>
      rw [readBits_eq_some_iff.mp hb, readLabel_spelled]
      exact ⟨_, .label r.1 r.2⟩
  | none =>
      have hw := readBits_eq_none_iff.mp hb
      rw [readLabel_unended hw]
      rw [← List.append_nil w] at hw ⊢
      exact ⟨_, .noLiteral [] (fun v => not_isPrefix_of_not_mem hw) fun op hop => .label hop _⟩

theorem exists_answering (lx : Lexer) : ∃ u, lx.Answering u lx.next := by
  obtain ⟨w, owed⟩ := lx
  match owed with
  | none => exact exists_answering_opcode w
  | some .number => exact exists_answering_number w
  | some .label => exact exists_answering_label w

section Call

variable {lx : Lexer} {u : List Symbol} {r : Except LexError (Option Token) × Lexer}

theorem Answering.rest_eq (h : lx.Answering u r) : lx.rest = u ++ r.2.rest := by
  cases h <;> rfl

theorem next_eq_ended_iff : lx.next.1 = .ok none ↔ lx = ofSymbols [] := by
  constructor
  · intro hend
    obtain ⟨u, h⟩ := exists_answering lx
    generalize lx.next = r at h hend
    cases h with
    | ended => rfl
    | op | number | label | noCode | noLiteral => cases hend
  · intro h
    subst h
    rfl

/-- Only an opcode that asks for a literal leaves something owed. -/
theorem next_eq_ofSymbols (h : ∀ op, lx.next.1 = .ok (some (.op op)) → op.param = none) :
    lx.next.2 = ofSymbols lx.next.2.rest := by
  obtain ⟨u, ha⟩ := exists_answering lx
  generalize lx.next = r at h ha
  cases ha with
  | op op rest => rw [h op rfl, ofSymbols]
  | ended | number | label | noCode | noLiteral => rfl

/-- A bound on the calls to come: one for each symbol, and one for a literal that is owed, since it
may be missing. -/
def due (lx : Lexer) : Nat := lx.rest.length + lx.owed.toList.length

theorem due_ofSymbols (w : List Symbol) : (ofSymbols w).due = w.length := rfl

theorem Answering.due_lt (h : lx.Answering u r) (hr : r.1 ≠ .ok none) : r.2.due < lx.due := by
  cases h with
  | ended => exact absurd rfl hr
  | op op rest =>
      have hcode := op.one_lt_length_code
      have howed : op.param.toList.length ≤ 1 := by cases op.param <;> simp
      simp only [due, ofSymbols, List.length_append]
      omega
  | noCode rest hne =>
      have hpos := List.length_pos_of_ne_nil hne
      simp only [due_ofSymbols, List.length_append]
      omega
  | number | label | noLiteral =>
      simp only [due, ofSymbols, List.length_append, Option.toList_some, Option.toList_none,
        List.length_cons, List.length_nil]
      omega

end Call

/-- The lexer behind `n` calls. A call that fails counts. -/
def after (lx : Lexer) (n : Nat) : Lexer := (·.next.2)^[n] lx

theorem after_succ (lx : Lexer) (n : Nat) : lx.after (n + 1) = (lx.after n).next.2 :=
  Function.iterate_succ_apply' _ n lx

theorem after_succ' (lx : Lexer) (n : Nat) : lx.after (n + 1) = lx.next.2.after n := rfl

theorem after_add (lx : Lexer) (m n : Nat) : lx.after (m + n) = (lx.after m).after n := by
  rw [Nat.add_comm]
  exact Function.iterate_add_apply _ n m lx

theorem after_ended (n : Nat) : (ofSymbols []).after n = ofSymbols [] :=
  Function.iterate_fixed rfl n

/-- The calls take the segments `ws` one after another. Those behind find the end. -/
structure Takes (lx : Lexer) (ws : List (List Symbol)) : Prop where
  flatten_eq : ws.flatten = lx.rest
  length_le : ws.length ≤ lx.due
  ended_iff : ∀ n, (lx.after n).next.1 = .ok none ↔ ws.length ≤ n
  rest_eq : ∀ n, (lx.after n).rest = (ws.drop n).flatten

theorem takes_ended : (ofSymbols []).Takes [] where
  flatten_eq := rfl
  length_le := Nat.zero_le _
  ended_iff n := by
    rw [after_ended, next_eq_ended_iff]
    simp
  rest_eq n := by
    rw [after_ended, List.drop_nil]
    rfl

theorem Takes.cons {lx : Lexer} {u : List Symbol} {ws : List (List Symbol)}
    (h : lx.Answering u lx.next) (hr : lx.next.1 ≠ .ok none) (hws : lx.next.2.Takes ws) :
    lx.Takes (u :: ws) where
  flatten_eq := by rw [List.flatten_cons, hws.flatten_eq, h.rest_eq]
  length_le := Nat.lt_of_le_of_lt hws.length_le (h.due_lt hr)
  ended_iff n := by
    cases n with
    | zero => exact iff_of_false hr (Nat.not_succ_le_zero _)
    | succ n => rw [after_succ', hws.ended_iff, List.length_cons, Nat.succ_le_succ_iff]
  rest_eq n := by
    cases n with
    | zero => rw [List.drop_zero, List.flatten_cons, hws.flatten_eq, ← h.rest_eq]
              rfl
    | succ n => rw [after_succ', hws.rest_eq, List.drop_succ_cons]

/-- By induction on the calls that can be to come. -/
theorem exists_takes (lx : Lexer) : ∃ ws, lx.Takes ws := by
  induction hn : lx.due using Nat.strong_induction_on generalizing lx with
  | _ n ih =>
      by_cases hend : lx.next.1 = .ok none
      · rw [next_eq_ended_iff.mp hend]
        exact ⟨[], takes_ended⟩
      · obtain ⟨u, h⟩ := exists_answering lx
        have hlt := h.due_lt hend
        rw [hn] at hlt
        obtain ⟨ws, hws⟩ := ih _ hlt lx.next.2 rfl
        exact ⟨u :: ws, hws.cons h hend⟩

theorem Takes.rest_after {lx : Lexer} {ws : List (List Symbol)} (h : lx.Takes ws) {n : Nat}
    (hn : n < ws.length) : (lx.after n).rest = ws[n] ++ (lx.after (n + 1)).rest := by
  rw [h.rest_eq, h.rest_eq, List.drop_eq_getElem_cons hn, List.flatten_cons]

end Lexer

/-- The calls that answer with a token or an error take the symbols of a text, and none of its
comments, in consecutive segments. These are at most as many as there are symbols, and all calls
after them find the end. After an error, a literal or an opcode that stands alone, all later answers
are those of a new lexer over what is left of the text. -/
theorem resumed_lexer (t : Text) :
    let lx := Lexer.ofText t
    ∃ (w : List Symbol) (ws : List (List Symbol)),
      (∀ w', Text.Commented (Symbol.source w') t ↔ w' = w) ∧
      ws.flatten = w ∧ ws.length ≤ w.length ∧
      (∀ n, (lx.after n).next.1 = .ok none ↔ ws.length ≤ n) ∧
      (∀ n (hn : n < ws.length), (lx.after n).rest = ws[n] ++ (lx.after (n + 1)).rest) ∧
      ∀ n, (∀ op, (lx.after n).next.1 = .ok (some (.op op)) → op.param = none) →
        (∃ t', t.Unread (ws.take (n + 1)).flatten t') ∧
        ∀ t', t.Unread (ws.take (n + 1)).flatten t' →
          ∀ k, (lx.after (n + 1 + k)).next.1 = ((Lexer.ofText t').after k).next.1 := by
  intro lx
  obtain ⟨ws, h⟩ := lx.exists_takes
  refine ⟨t.symbols, ws, fun _ => Text.commented_source_iff, h.flatten_eq, h.length_le, h.ended_iff,
    fun n hn => h.rest_after hn, ?_⟩
  intro n hop
  have hcut : t.symbols = (ws.take (n + 1)).flatten ++ (ws.drop (n + 1)).flatten := by
    rw [← List.flatten_append, List.take_append_drop]
    exact h.flatten_eq.symm
  refine ⟨Text.exists_unread hcut, fun t' ht' k => ?_⟩
  have hrest : (lx.after (n + 1)).rest = t'.symbols := by
    rw [h.rest_eq]
    exact List.append_cancel_left (hcut.symm.trans ht'.symbols_eq)
  have hnew : lx.after (n + 1) = Lexer.ofText t' := by
    rw [Lexer.ofText, ← hrest, Lexer.after_succ]
    exact Lexer.next_eq_ofSymbols hop
  rw [Lexer.after_add, hnew]

/-- Behind three symbols that begin no instruction, and a comment, a new instruction begins. -/
theorem resumed_lexer_of_unknown_instruction :
    let t : Text := "\t\n\nx \n "
    let lx := Lexer.ofText t
    let unknown : List Symbol := [.tab, .feed, .feed]
    lx.next.1 = .error (.unknownInstruction unknown) ∧ t.Unread unknown "x \n " ∧
      (lx.after 1).next.1 = ((Lexer.ofText "x \n ").after 0).next.1 ∧
      (lx.after 1).next.1 = .ok (some (.op .dup)) := by
  intro t lx unknown
  have hfails : lx.next.1 = .error (.unknownInstruction unknown) := rfl
  have hunread : t.Unread unknown "x \n " := ⟨"\t\n\n", rfl, Text.commented_source_iff.mpr rfl⟩
  obtain ⟨w, ws, -, -, -, hended, hrest, hresume⟩ := resumed_lexer t
  have hsome : 0 < ws.length := by
    rw [← Nat.not_le, ← hended]
    nofun
  have hcut : unknown ++ [.space, .feed, .space] = ws[0] ++ [.space, .feed, .space] := hrest 0 hsome
  have htake : (ws.take 1).flatten = unknown := by
    rw [List.take_one, List.head?_eq_getElem?, List.getElem?_eq_getElem hsome,
      ← List.append_cancel_right hcut]
    rfl
  obtain ⟨-, hnew⟩ := hresume 0 nofun
  rw [htake] at hnew
  exact ⟨hfails, hunread, hnew _ hunread 0, rfl⟩

end WhitespaceLang
