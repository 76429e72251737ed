import WhitespaceLang.Text.LineEnd
import WhitespaceLang.Proofs.Source.Grammar

/-!
Line ends in a program text. A carriage return that is followed by a line feed is a comment whether
line ends are unified or not. One that stands alone is a comment until they are unified, and a line
feed afterwards, which adds a feed to the symbols.
-/

namespace WhitespaceLang
namespace Text

/-- The carriage returns that no line feed follows. -/
def loneReturns : Text → Nat
  | [] => 0
  | c :: rest =>
      (if c = carriageReturn ∧ rest.head? ≠ some lineFeed then 1 else 0) + loneReturns rest

/-- How many line feeds in front are dropped because they belong to a carriage return before. -/
def dropped (afterReturn : Bool) (t : Text) : Nat :=
  if afterReturn ∧ t.head? = some lineFeed then 1 else 0

theorem symbols_lineFeed (t : Text) : symbols (lineFeed :: t) = .feed :: symbols t :=
  symbols_codePoint .feed t

theorem symbols_carriageReturn (t : Text) : symbols (carriageReturn :: t) = symbols t :=
  symbols_comment (fun s => by cases s <;> decide) t

theorem symbols_cons (c : CodePoint) (t : Text) : symbols (c :: t) = symbols [c] ++ symbols t := by
  rw [← List.singleton_append, symbols, List.filterMap_append]
  rfl

section Cases

variable {c : CodePoint} {rest : Text} {afterReturn : Bool}

theorem dropped_lineFeed : dropped true (lineFeed :: rest) = 1 := if_pos ⟨rfl, rfl⟩

theorem dropped_cons (h : ¬(afterReturn = true ∧ c = lineFeed)) :
    dropped afterReturn (c :: rest) = 0 := by
  rw [dropped, if_neg]
  rw [List.head?_cons, Option.some.injEq]
  exact h

theorem dropped_carriageReturn : dropped afterReturn (carriageReturn :: rest) = 0 :=
  dropped_cons fun h => absurd h.2 (by decide)

/-- A carriage return stands alone unless the line feed behind it is dropped. -/
theorem loneReturns_carriageReturn (rest : Text) :
    dropped true rest + loneReturns (carriageReturn :: rest) = loneReturns rest + 1 := by
  by_cases h : rest.head? = some lineFeed
  · rw [dropped, if_pos ⟨rfl, h⟩, loneReturns, if_neg fun hc => hc.2 h]
    omega
  · rw [dropped, if_neg fun hc => h hc.2, loneReturns, if_pos ⟨rfl, h⟩]
    omega

theorem loneReturns_cons (h : c ≠ carriageReturn) :
    loneReturns (c :: rest) = loneReturns rest := by
  rw [loneReturns, if_neg fun hc => h hc.1, Nat.zero_add]

end Cases

/-- Without lone carriage returns unifying the line ends changes nothing but comments. -/
theorem symbols_unifyLineEndsFrom {t : Text} (h : t.loneReturns = 0) (afterReturn : Bool) :
    List.replicate (dropped afterReturn t) .feed ++ symbols (unifyLineEndsFrom afterReturn t) =
      symbols t := by
  fun_induction unifyLineEndsFrom afterReturn t with
  | case1 afterReturn => cases afterReturn <;> rfl
  | case2 afterReturn rest ih =>
      have hrest := loneReturns_carriageReturn rest
      have hle : dropped true rest ≤ 1 := by
        rw [dropped]
        split <;> decide
      -- This return is not alone, so the line feed behind it is the one that is dropped.
      have ih := ih (by omega)
      have hone : dropped true rest = 1 := by omega
      rw [hone] at ih
      rw [dropped_carriageReturn, symbols_lineFeed, symbols_carriageReturn]
      exact ih
  | case3 afterReturn c rest hc hfeed ih =>
      obtain ⟨rfl, rfl⟩ := hfeed
      rw [loneReturns_cons hc] at h
      rw [dropped_lineFeed, symbols_lineFeed, ← ih h]
      rfl
  | case4 afterReturn c rest hc hfeed ih =>
      rw [loneReturns_cons hc] at h
      rw [dropped_cons hfeed, symbols_cons, symbols_cons c rest, ← ih h]
      rfl

/-- Each lone carriage return becomes a feed, and no other feed is added or lost. -/
theorem count_feed_unifyLineEndsFrom (t : Text) (afterReturn : Bool) :
    dropped afterReturn t + (symbols (unifyLineEndsFrom afterReturn t)).count .feed =
      (symbols t).count .feed + t.loneReturns := by
  fun_induction unifyLineEndsFrom afterReturn t with
  | case1 afterReturn => cases afterReturn <;> rfl
  | case2 afterReturn rest ih =>
      have hrest := loneReturns_carriageReturn rest
      rw [dropped_carriageReturn, symbols_lineFeed, symbols_carriageReturn, List.count_cons_self]
      omega
  | case3 afterReturn c rest hc hfeed ih =>
      obtain ⟨rfl, rfl⟩ := hfeed
      have hnone : dropped false rest = 0 := if_neg nofun
      rw [loneReturns_cons hc, dropped_lineFeed, symbols_lineFeed, List.count_cons_self]
      omega
  | case4 afterReturn c rest hc hfeed ih =>
      have hnone : dropped false rest = 0 := if_neg nofun
      rw [loneReturns_cons hc, dropped_cons hfeed, symbols_cons, symbols_cons c rest,
        List.count_append, List.count_append]
      omega

theorem symbols_unifyLineEnds {t : Text} (h : t.loneReturns = 0) :
    symbols t.unifyLineEnds = symbols t := symbols_unifyLineEndsFrom h false

theorem count_feed_unifyLineEnds (t : Text) :
    (symbols t.unifyLineEnds).count .feed = (symbols t).count .feed + t.loneReturns := by
  rw [← count_feed_unifyLineEndsFrom t false, dropped, if_neg nofun, Nat.zero_add]
  rfl

end Text

/-- The feeds that any spelling of an instruction with this opcode holds. -/
def Opcode.feeds (op : Opcode) : Nat := op.code.count .feed + if op.param = none then 0 else 1

theorem Spelling.count_feed_of_param {p : Option ParamKind} {v : List Symbol} (h : Param p v) :
    v.count .feed = if p = none then 0 else 1 := by
  cases h with
  | none => rfl
  | number hs hne hd =>
      rw [List.count_cons_of_ne hs, List.count_append, List.count_eq_zero.mpr hd]
      rfl
  | label hb =>
      rw [List.count_append, List.count_eq_zero.mpr hb]
      rfl

/-- Leading zeros and signs are spelled without feeds, so the instruction fixes their number. -/
theorem InstrOf.count_feed_of_spells {i : Instr} {w : List Symbol} (h : i.Spells w) :
    w.count .feed = i.opcode.feeds := by
  cases i.made with
  | whole op hc =>
      obtain rfl := (spells_whole hc w).mp h
      rw [(opcode_whole hc).1, Opcode.feeds, param_of_completion hc]
      rfl
  | number op hc n =>
      obtain ⟨v, hv, rfl⟩ := (spells_number hc n w).mp h
      rw [(opcode_number hc n).1, Opcode.feeds, List.count_append,
        Spelling.count_feed_of_param (Spelling.param_number hv), param_of_completion hc]
      rfl
  | label op hc l =>
      obtain rfl := (spells_label hc l w).mp h
      rw [(opcode_label hc l).1, Opcode.feeds, List.count_append,
        Spelling.count_feed_of_param (Spelling.param_bits l), param_of_completion hc]
      rfl

/-- The feeds that any spelling of the instructions holds. -/
def feedsOf : List Instr → Nat
  | [] => 0
  | i :: is => i.opcode.feeds + feedsOf is

theorem count_feed_of_forall₂_spells {is : List Instr} {es : List (List Symbol)}
    (h : List.Forall₂ InstrOf.Spells is es) : es.flatten.count .feed = feedsOf is := by
  induction h with
  | nil => rfl
  | cons hi _ ih =>
      rw [List.flatten_cons, List.count_append, InstrOf.count_feed_of_spells hi, ih, feedsOf]

/-- The instructions fix how many feeds the text has that they are read from. -/
theorem count_feed_of_instrsOf {is : List Instr} {t : Text} (h : Flow.instrsOf t = (is, none)) :
    t.symbols.count .feed = feedsOf is := by
  obtain ⟨es, r, is', hsplit, hspell, ⟨rfl, hread⟩ | ⟨-, e, hread, -⟩⟩ :=
    Parser.exists_split t.symbols
  · obtain ⟨rfl, -⟩ := Prod.mk.inj (h.symm.trans hread)
    rw [hsplit.eq, List.append_nil, count_feed_of_forall₂_spells hspell]
  · cases h.symm.trans hread

/-- Lone carriage returns do not go unnoticed in a text that is read to its end. -/
theorem loneReturns_eq_zero_of_instrsOf_eq {is : List Instr} {t : Text}
    (h : Flow.instrsOf t = (is, none)) (h' : Flow.instrsOf t.unifyLineEnds = (is, none)) :
    t.loneReturns = 0 := by
  have hcount := t.count_feed_unifyLineEnds
  rw [count_feed_of_instrsOf h, count_feed_of_instrsOf h'] at hcount
  omega

end WhitespaceLang
