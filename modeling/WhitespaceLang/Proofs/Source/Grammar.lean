import WhitespaceLang.Proofs.Source.Decoding

/-!
The grammar that the parser accepts. The symbols of every text are in one way a run of words and a
rest that no word begins. The parser reads the words, and it complains of a rest in the one way that
the rest deserves.
-/

namespace WhitespaceLang
open Spelling Lexer

/-- At most one message fits the symbols. -/
theorem Complaint.unique {w : List Symbol} {m m' : Text} (h : Complaint w m)
    (h' : Complaint w m') : m = m' := by
  cases h with
  | unfinished hno hopen =>
      cases h' with
      | unfinished => rfl
      | unknown _ hu hdead _ => exact absurd (hopen.of_isPrefix hu) hdead
      | number | label => exact absurd (List.prefix_append _ _) (hno _)
  | @unknown _ u hno hu hdead hleast =>
      cases h' with
      | unfinished _ hopen => exact absurd (hopen.of_isPrefix hu) hdead
      | @unknown _ u' _ hu' hdead' hleast' =>
          have heq : u = u' := by
            by_contra hne
            obtain hp | hp := List.prefix_or_prefix_of_prefix hu hu'
            · exact hdead (hleast' u hp hne)
            · exact hdead' (hleast u' hp (Ne.symm hne))
          rw [heq]
      | number | label => exact absurd (List.prefix_append _ _) (hno _)
  | @number op hp v =>
      generalize hw : op.code ++ v = w at h'
      cases h' with
      | unfinished hno | unknown hno => exact absurd ⟨v, hw⟩ (hno op)
      | @number op' _ v' =>
          obtain rfl := Opcode.eq_of_codes_isPrefix ⟨v, hw⟩ (List.prefix_append op'.code v')
          rw [List.append_cancel_left hw]
      | @label op' hp' v' =>
          obtain rfl := Opcode.eq_of_codes_isPrefix ⟨v, hw⟩ (List.prefix_append op'.code v')
          rw [hp] at hp'
          cases hp'
  | @label op hp v =>
      generalize hw : op.code ++ v = w at h'
      cases h' with
      | unfinished hno | unknown hno => exact absurd ⟨v, hw⟩ (hno op)
      | @number op' hp' v' =>
          obtain rfl := Opcode.eq_of_codes_isPrefix ⟨v, hw⟩ (List.prefix_append op'.code v')
          rw [hp] at hp'
          cases hp'
      | label => rfl

namespace Spelling

theorem word_ne_nil {w : List Symbol} (h : Word w) : w ≠ [] := by
  obtain ⟨op, v, -, rfl⟩ := h
  simp [Opcode.code_ne_nil]

/-- The parser takes one word and leaves the rest, so no two words begin the same symbols. -/
theorem word_append_inj {e e' r r' : List Symbol} (h : Word e) (h' : Word e')
    (heq : e ++ r = e' ++ r') : e = e' ∧ r = r' := by
  obtain ⟨i, hi⟩ := exists_spells_of_word h
  obtain ⟨j, hj⟩ := exists_spells_of_word h'
  have hr := Parser.next_spelled hi r
  rw [heq, Parser.next_spelled hj r'] at hr
  have hrest : r = r' := (congrArg (fun p => p.2.rest) hr).symm
  subst hrest
  exact ⟨List.append_cancel_right heq, rfl⟩

/-- The symbols `w` are the words `es` and then a rest `r` that no word begins. -/
structure Split (w : List Symbol) (es : List (List Symbol)) (r : List Symbol) : Prop where
  eq : w = es.flatten ++ r
  words : ∀ e ∈ es, Word e
  stuck : ∀ p, p <+: r → ¬ Word p

theorem Split.cons {w r e : List Symbol} {es : List (List Symbol)} (he : Word e)
    (h : Split w es r) : Split (e ++ w) (e :: es) r where
  eq := by rw [h.eq, List.flatten_cons, List.append_assoc]
  words := List.forall_mem_cons.mpr ⟨he, h.words⟩
  stuck := h.stuck

theorem Split.unique {w r r' : List Symbol} {es es' : List (List Symbol)} (h : Split w es r)
    (h' : Split w es' r') : es' = es ∧ r' = r := by
  induction es generalizing w es' with
  | nil =>
      cases es' with
      | nil => exact ⟨rfl, h'.eq.symm.trans h.eq⟩
      | cons e es' =>
          refine absurd (h'.words e List.mem_cons_self) (h.stuck e ⟨es'.flatten ++ r', ?_⟩)
          have heq := h'.eq.symm.trans h.eq
          simpa using heq
  | cons e es ih =>
      have he := h.words e List.mem_cons_self
      cases es' with
      | nil =>
          refine absurd he (h'.stuck e ⟨es.flatten ++ r, ?_⟩)
          have heq := h.eq.symm.trans h'.eq
          simpa using heq
      | cons e' es' =>
          have heq : e ++ (es.flatten ++ r) = e' ++ (es'.flatten ++ r') := by
            have heq := h.eq.symm.trans h'.eq
            simpa using heq
          obtain ⟨rfl, htail⟩ := word_append_inj he (h'.words e' List.mem_cons_self) heq
          have tail : Split (es.flatten ++ r) es r :=
            ⟨rfl, fun x hx => h.words x (List.mem_cons_of_mem _ hx), h.stuck⟩
          have tail' : Split (es.flatten ++ r) es' r' :=
            ⟨htail, fun x hx => h'.words x (List.mem_cons_of_mem _ hx), h'.stuck⟩
          obtain ⟨rfl, rfl⟩ := ih tail tail'
          exact ⟨rfl, rfl⟩

end Spelling

namespace Parser

theorem not_word_of_next_error {w p : List Symbol} {e : SourceError} {lx : Lexer}
    (h : next (ofSymbols w) = ((.error e : Except SourceError (Option Instr)), lx))
    (hp : p <+: w) : ¬ Word p := by
  intro hword
  obtain ⟨i, hi⟩ := exists_spells_of_word hword
  obtain ⟨rest, rfl⟩ := hp
  rw [next_spelled hi rest] at h
  cases h

/-- Reading symbols to the end, by induction on how many there are. -/
theorem exists_split (w : List Symbol) :
    ∃ es r is, Split w es r ∧ List.Forall₂ InstrOf.Spells is es ∧
      (r = [] ∧ instrs (ofSymbols w) = (is, none) ∨
        r ≠ [] ∧ ∃ e : LexError, instrs (ofSymbols w) = (is, some (.lex e)) ∧
          Complaint r e.message) := by
  induction hn : w.length using Nat.strong_induction_on generalizing w with
  | _ n ih =>
      have hw := reading w
      generalize hnext : next (ofSymbols w) = result at hw
      cases hw with
      | @instr i e rest hi =>
          have hword := word_of_spells hi
          have hpos := List.length_pos_of_ne_nil (word_ne_nil hword)
          have hlt : rest.length < n := by
            rw [List.length_append] at hn
            omega
          obtain ⟨es, r, is, hsplit, hspell, hend⟩ := ih rest.length hlt rest rfl
          refine ⟨e :: es, r, i :: is, hsplit.cons hword, .cons hi hspell, ?_⟩
          rw [instrs_of_next_instr hnext]
          obtain ⟨hr, h⟩ | ⟨hr, err, h, hc⟩ := hend
          · rw [h]
            exact .inl ⟨hr, rfl⟩
          · rw [h]
            exact .inr ⟨hr, err, rfl, hc⟩
      | ended =>
          refine ⟨[], [], [], ⟨rfl, by simp, ?_⟩, .nil, .inl ⟨rfl, instrs_nil⟩⟩
          intro p hp hword
          exact word_ne_nil hword (List.prefix_nil.mp hp)
      | @rejected _ err lx hne hc =>
          refine ⟨[], w, [], ⟨rfl, by simp, ?_⟩, .nil, .inr ⟨hne, err, ?_, hc⟩⟩
          · intro p hp
            exact not_word_of_next_error hnext hp
          · exact instrs_of_next_error hnext

end Parser

/-- A text is certain symbols and comments, and the symbols split in one way. The instructions read
are the ones the words spell, and they are followed by no error when nothing is left, and otherwise
by the one that what is left deserves. -/
theorem instrsOf_split (t : Text) :
    ∃ w es r is, (∀ w', Text.Commented (Symbol.source w') t ↔ w' = w) ∧
      (∀ es' r', Split w es' r' ↔ es' = es ∧ r' = r) ∧
      List.Forall₂ InstrOf.Spells is es ∧
      (r = [] ∧ Flow.instrsOf t = (is, none) ∨
        r ≠ [] ∧ ∃ e : LexError, Flow.instrsOf t = (is, some (.lex e)) ∧
          ∀ m, Complaint r m ↔ m = e.message) := by
  obtain ⟨es, r, is, hsplit, hspell, hend⟩ := Parser.exists_split t.symbols
  refine ⟨t.symbols, es, r, is, fun _ => Text.commented_source_iff, ?_, hspell, ?_⟩
  · intro es' r'
    constructor
    · exact hsplit.unique
    · intro h
      obtain ⟨rfl, rfl⟩ := h
      exact hsplit
  · obtain hdone | ⟨hr, e, he, hc⟩ := hend
    · exact .inl hdone
    · refine .inr ⟨hr, e, he, fun m => ⟨fun hm => hm.unique hc, ?_⟩⟩
      intro h
      subst h
      exact hc

/-- One word and, behind it, an opcode whose number has no sign, both after a comment. -/
theorem instrsOf_split_of_missing_sign :
    let t : Text := "1:   \t\n2:  \n"
    let word : List Symbol := [.space, .space, .space, .tab, .feed]
    let left : List Symbol := [.space, .space, .feed]
    Text.Commented (Symbol.source (word ++ left)) t ∧ Split (word ++ left) [word] left ∧
      ∃ i e, InstrOf.Spells i word ∧ Flow.instrsOf t = ([i], some (.lex e)) ∧
        e.message = "Number has no sign" := by
  intro t word left
  have hcomment : Text.Commented (Symbol.source (word ++ left)) t :=
    Text.commented_source_iff.mpr rfl
  have hsplit : Split (word ++ left) [word] left := by
    refine ⟨rfl, ?_, fun p => Parser.not_word_of_next_error rfl⟩
    intro e he
    obtain rfl := List.mem_singleton.mp he
    have hparam : Param (some .number) ([.space, .tab] ++ [.feed]) :=
      .number (by decide) (List.cons_ne_nil _ []) (by decide)
    exact ⟨.push, _, hparam, rfl⟩
  obtain ⟨w, es, r, is, hw, hunique, hspell, hend⟩ := instrsOf_split t
  obtain rfl := (hw _).mp hcomment
  obtain ⟨rfl, rfl⟩ := (hunique _ _).mp hsplit
  obtain ⟨i, _, hi, hnil, rfl⟩ := List.forall₂_cons_right_iff.mp hspell
  obtain rfl := List.forall₂_nil_right_iff.mp hnil
  obtain ⟨hleft, -⟩ | ⟨-, e, he, hmessage⟩ := hend
  · exact absurd hleft (List.cons_ne_nil _ _)
  · have hsign : Complaint (Opcode.push.code ++ [.feed]) "Number has no sign" := .number rfl _
    exact ⟨hcomment, hsplit, i, e, hi, he, ((hmessage _).mp hsign).symm⟩

end WhitespaceLang
