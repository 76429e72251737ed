import WhitespaceLang.Proofs.Source.Decoding

/-!
Instructions out of ready-made tokens, whatever numbers and labels they carry. The parser takes the
longest run of groups at the front, a group being an opcode with the parameter that it asks for, and
complains of the token behind them. The tokens of instructions are read back as these instructions.
-/

namespace WhitespaceLang

variable {ν κ : Type}

namespace InstrOf

def tokens (i : InstrOf ν κ) : List (TokenOf ν κ) :=
  .op i.opcode :: (i.number?.toList.map .number ++ i.label?.toList.map .label)

/-- Only a copy whose depth was left unset is read as another instruction. -/
theorem settled_eq_self {i : InstrOf (Option ν) κ} (h : i ≠ .copy none) : i.settled = i := by
  cases i with
  | copy n =>
      cases n with
      | none => exact absurd rfl h
      | some n => rfl
  | _ => rfl

end InstrOf

namespace TokenOf

/-- The tokens of one instruction, by the kind of parameter that its opcode has. -/
inductive Group : List (TokenOf ν κ) → Prop
  | whole {op : Opcode} (h : op.param = none) : Group [.op op]
  | number {op : Opcode} (h : op.param = some .number) (n : ν) : Group [.op op, .number n]
  | label {op : Opcode} (h : op.param = some .label) (l : κ) : Group [.op op, .label l]

/-- The message that a token deserves when no group begins with it. -/
inductive Refusal : TokenOf ν κ → Text → Prop
  | number (n : ν) : Refusal (.number n) "Expected an instruction, got a number"
  | label (l : κ) : Refusal (.label l) "Expected an instruction, got a label"
  | needsNumber {op : Opcode} (h : op.param = some .number) :
      Refusal (.op op) (op.name ++ " needs a number")
  | needsLabel {op : Opcode} (h : op.param = some .label) :
      Refusal (.op op) (op.name ++ " needs a label")

/-- The groups `gs` are the longest run of groups at the front of `ts`, and `rest` is behind
them. -/
structure Grouped (ts : List (TokenOf ν κ)) (gs : List (List (TokenOf ν κ)))
    (rest : List (TokenOf ν κ)) : Prop where
  eq : ts = gs.flatten ++ rest
  groups : ∀ g ∈ gs, Group g
  longest : ∀ gs' : List (List (TokenOf ν κ)), (∀ g ∈ gs', Group g) → gs'.flatten <+: ts →
    gs'.length ≤ gs.length

end TokenOf

open TokenOf

section Completion

variable {op : Opcode}

theorem tokens_whole {i : InstrOf ν κ} (h : op.completion = .whole i) : i.tokens = [.op op] := by
  obtain ⟨hop, hn, hl⟩ := opcode_whole h
  rw [InstrOf.tokens, hop, hn, hl]
  rfl

theorem tokens_number {f : ν → InstrOf ν κ} (h : op.completion = .number f) (n : ν) :
    (f n).tokens = [.op op, .number n] := by
  obtain ⟨hop, hn, hl⟩ := opcode_number h n
  rw [InstrOf.tokens, hop, hn, hl]
  rfl

theorem tokens_label {f : κ → InstrOf ν κ} (h : op.completion = .label f) (l : κ) :
    (f l).tokens = [.op op, .label l] := by
  obtain ⟨hop, hn, hl⟩ := opcode_label h l
  rw [InstrOf.tokens, hop, hn, hl]
  rfl

end Completion

theorem group_tokens (i : InstrOf ν κ) : Group i.tokens := by
  cases i with
  | push n | copy n | slide n => exact .number rfl n
  | mark l | call l | jump l | jumpZero l | jumpNegative l => exact .label rfl l
  | arith a => cases a <;> exact .whole rfl
  | _ => exact .whole rfl

/-- Every group stands for an instruction. -/
theorem TokenOf.Group.exists_tokens {g : List (TokenOf ν κ)} (h : Group g) :
    ∃ i : InstrOf ν κ, i.tokens = g := by
  cases h with
  | @whole op h => cases op <;> cases h <;> exact ⟨_, tokens_whole rfl⟩
  | @number op h n => cases op <;> cases h <;> exact ⟨_, tokens_number rfl n⟩
  | @label op h l => cases op <;> cases h <;> exact ⟨_, tokens_label rfl l⟩

namespace Parser

theorem next_tokens (i : InstrOf ν κ) (rest : List (TokenOf ν κ)) :
    next (i.tokens ++ rest) = (.ok (some i), rest) := by
  cases i with
  | arith a => cases a <;> rfl
  | _ => rfl

/-- What the parser makes of a list of tokens. -/
inductive Taking :
    List (TokenOf ν κ) → Except SourceError (Option (InstrOf ν κ)) × List (TokenOf ν κ) → Prop
  | instr (i : InstrOf ν κ) (rest : List (TokenOf ν κ)) :
      Taking (i.tokens ++ rest) (.ok (some i), rest)
  | ended : Taking [] (.ok none, [])
  | refused {t : TokenOf ν κ} {e : ParseError} (rest after : List (TokenOf ν κ))
      (h : Refusal t e.message) : Taking (t :: rest) (.error (.parse e), after)

theorem taking_tokens {i : InstrOf ν κ} {ts rest : List (TokenOf ν κ)}
    (h : i.tokens ++ rest = ts) : Taking ts (next ts) := by
  rw [← h, next_tokens]
  exact .instr i rest

/-- An opcode with a parameter that is not given, whatever else follows it. -/
theorem taking_needs {op : Opcode} {kind : ParamKind} {rest after : List (TokenOf ν κ)}
    (hparam : op.param = some kind)
    (h : next (.op op :: rest) = (.error (.parse (.needs op kind)), after)) :
    Taking (.op op :: rest) (next (.op op :: rest)) := by
  rw [h]
  refine .refused rest after ?_
  cases kind with
  | number =>
      have hmessage : (ParseError.needs op .number).message = op.name ++ " needs a number" :=
        List.append_assoc _ _ _
      rw [hmessage]
      exact .needsNumber hparam
  | label =>
      have hmessage : (ParseError.needs op .label).message = op.name ++ " needs a label" :=
        List.append_assoc _ _ _
      rw [hmessage]
      exact .needsLabel hparam

/-- By what the opcode asks for, and whether the next token is that. -/
theorem taking_op (op : Opcode) (rest : List (TokenOf ν κ)) :
    Taking (.op op :: rest) (next (.op op :: rest)) := by
  cases hc : (op.completion : Completion ν κ) with
  | whole i => exact taking_tokens (congrArg (· ++ rest) (tokens_whole hc))
  | number f =>
      have hparam := param_of_completion hc
      by_cases h : ∃ n, rest.head? = some (.number n)
      · obtain ⟨n, hn⟩ := h
        obtain ⟨after, rfl⟩ := List.head?_eq_some_iff.mp hn
        exact taking_tokens (congrArg (· ++ after) (tokens_number hc n))
      · -- The side condition of the match in `finish` is `hno`.
        have hno := not_exists.mp h
        have hnext : next (.op op :: rest) = (.error (.parse (.needs op .number)), rest.tail) := by
          simp only [next, TokenSource.next, finish, hc, List.head?_cons, List.tail_cons]
        exact taking_needs hparam hnext
  | label f =>
      have hparam := param_of_completion hc
      by_cases h : ∃ l, rest.head? = some (.label l)
      · obtain ⟨l, hl⟩ := h
        obtain ⟨after, rfl⟩ := List.head?_eq_some_iff.mp hl
        exact taking_tokens (congrArg (· ++ after) (tokens_label hc l))
      · have hno := not_exists.mp h
        have hnext : next (.op op :: rest) = (.error (.parse (.needs op .label)), rest.tail) := by
          simp only [next, TokenSource.next, finish, hc, List.head?_cons, List.tail_cons]
        exact taking_needs hparam hnext

theorem taking (ts : List (TokenOf ν κ)) : Taking ts (next ts) := by
  cases ts with
  | nil => exact .ended
  | cons t rest =>
      cases t with
      | op op => exact taking_op op rest
      | number n => exact .refused rest rest (.number n)
      | label l => exact .refused rest rest (.label l)

end Parser

section Groups

variable {g g' r r' ts rest : List (TokenOf ν κ)} {gs gs' : List (List (TokenOf ν κ))}

/-- The parser takes one group and leaves the rest, so no two groups begin the same tokens. -/
theorem group_append_inj (h : Group g) (h' : Group g') (heq : g ++ r = g' ++ r') :
    g = g' ∧ r = r' := by
  obtain ⟨i, rfl⟩ := h.exists_tokens
  obtain ⟨j, rfl⟩ := h'.exists_tokens
  have hnext := Parser.next_tokens i r
  rw [heq, Parser.next_tokens j r'] at hnext
  cases hnext
  exact ⟨rfl, rfl⟩

namespace TokenOf.Grouped

theorem nil {r : Except SourceError (Option (InstrOf ν κ))} (h : Parser.next ts = (r, rest))
    (hne : ∀ i, r ≠ .ok (some i)) : Grouped ts [] ts where
  eq := rfl
  groups := nofun
  longest := by
    intro gs' hgroups hp
    cases gs' with
    | nil => exact Nat.le_refl 0
    | cons g gs' =>
        obtain ⟨i, rfl⟩ := (hgroups g List.mem_cons_self).exists_tokens
        obtain ⟨after, rfl⟩ := hp
        rw [List.flatten_cons, List.append_assoc, Parser.next_tokens] at h
        cases h
        exact absurd rfl (hne i)

theorem cons (hg : Group g) (h : Grouped ts gs rest) : Grouped (g ++ ts) (g :: gs) rest where
  eq := by rw [h.eq, List.flatten_cons, List.append_assoc]
  groups := List.forall_mem_cons.mpr ⟨hg, h.groups⟩
  longest := by
    intro gs' hgroups hp
    cases gs' with
    | nil => exact Nat.zero_le _
    | cons g' gs' =>
        obtain ⟨after, hafter⟩ := hp
        rw [List.flatten_cons, List.append_assoc] at hafter
        obtain ⟨hg', hgroups⟩ := List.forall_mem_cons.mp hgroups
        obtain ⟨-, htail⟩ := group_append_inj hg' hg hafter
        exact Nat.succ_le_succ (h.longest gs' hgroups ⟨after, htail⟩)

end TokenOf.Grouped

/-- Runs of equally many groups at the front of the same tokens are the same run. -/
theorem groups_append_inj (h : ∀ g ∈ gs, Group g) (h' : ∀ g ∈ gs', Group g)
    (hlen : gs.length = gs'.length) (heq : gs.flatten ++ r = gs'.flatten ++ r') :
    gs = gs' ∧ r = r' := by
  induction gs generalizing gs' with
  | nil =>
      obtain rfl := List.eq_nil_of_length_eq_zero hlen.symm
      exact ⟨rfl, heq⟩
  | cons g gs ih =>
      cases gs' with
      | nil => cases hlen
      | cons g' gs' =>
          obtain ⟨hg, hgs⟩ := List.forall_mem_cons.mp h
          obtain ⟨hg', hgs'⟩ := List.forall_mem_cons.mp h'
          rw [List.flatten_cons, List.flatten_cons, List.append_assoc, List.append_assoc] at heq
          obtain ⟨rfl, htail⟩ := group_append_inj hg hg' heq
          have hlen : gs.length = gs'.length := Nat.succ.inj hlen
          obtain ⟨rfl, rfl⟩ := ih hgs hgs' hlen htail
          exact ⟨rfl, rfl⟩

theorem TokenOf.Grouped.unique {rest' : List (TokenOf ν κ)} (h : Grouped ts gs rest)
    (h' : Grouped ts gs' rest') : gs' = gs ∧ rest' = rest := by
  have hle : gs'.length ≤ gs.length := h.longest gs' h'.groups ⟨rest', h'.eq.symm⟩
  have hge : gs.length ≤ gs'.length := h'.longest gs h.groups ⟨rest, h.eq.symm⟩
  exact groups_append_inj h'.groups h.groups (Nat.le_antisymm hle hge) (h'.eq.symm.trans h.eq)

end Groups

namespace Parser

/-- Reading tokens to the end, by induction along the parser. -/
theorem exists_grouped (ts : List (TokenOf ν κ)) :
    ∃ is rest, Grouped ts (is.map InstrOf.tokens) rest ∧
      (rest = [] ∧ instrs ts = (is, none) ∨
        ∃ t after e, rest = t :: after ∧ instrs ts = (is, some (.parse e)) ∧
          Refusal t e.message) := by
  induction ts using Parser.instrs.induct with
  | case1 ts e after hnext =>
      have htaking := taking ts
      have hgrouped : Grouped ts [] ts := .nil hnext nofun
      rw [hnext] at htaking
      cases htaking with
      | @refused t e rest after h =>
          exact ⟨[], t :: rest, hgrouped, .inr ⟨t, rest, e, rfl, instrs_of_next_error hnext, h⟩⟩
  | case2 ts after hnext =>
      have htaking := taking ts
      have hgrouped : Grouped ts [] ts := .nil hnext nofun
      rw [hnext] at htaking
      cases htaking with
      | ended => exact ⟨[], [], hgrouped, .inl ⟨rfl, instrs_of_next_ended hnext⟩⟩
  | case3 ts i after hnext _ _ _ _ ih =>
      have htaking := taking ts
      obtain ⟨is, rest, hgrouped, hend⟩ := ih
      rw [instrs_of_next_instr hnext]
      rw [hnext] at htaking
      cases htaking with
      | instr =>
          refine ⟨i :: is, rest, hgrouped.cons (group_tokens i), ?_⟩
          obtain ⟨hrest, h⟩ | ⟨t, behind, e, hrest, h, hrefusal⟩ := hend
          · rw [h]
            exact .inl ⟨hrest, rfl⟩
          · rw [h]
            exact .inr ⟨t, behind, e, hrest, rfl, hrefusal⟩

theorem instrs_flatMap_tokens (is : List (InstrOf ν κ)) :
    instrs (is.flatMap InstrOf.tokens) = (is, none) := by
  induction is with
  | nil =>
      have hnext : next ([] : List (TokenOf ν κ)) = (.ok none, []) := rfl
      exact instrs_of_next_ended hnext
  | cons i is ih => rw [List.flatMap_cons, instrs_of_next_instr (next_tokens i _), ih]

end Parser

/-- The parser gives the instructions of the longest run of groups. No error follows when nothing is
left, and otherwise the one that the next token deserves. So it gives back the instructions whose
tokens it reads, and a copy at a depth that is set is never read as a copy of the top. -/
theorem instrs_grouped :
    (∀ ts : List (TokenOf ν κ), ∃ gs rest,
      (∀ gs' rest', Grouped ts gs' rest' ↔ gs' = gs ∧ rest' = rest) ∧
      (Parser.instrs ts).1.map InstrOf.tokens = gs ∧
      ((Parser.instrs ts).2 = none ↔ rest = []) ∧
      ∀ t after, rest = t :: after →
        ∃ e : ParseError, (Parser.instrs ts).2 = some (.parse e) ∧ Refusal t e.message) ∧
    (∀ is : List (InstrOf ν κ), Parser.instrs (is.flatMap InstrOf.tokens) = (is, none)) ∧
    ∀ is : List (InstrOf (Option ν) κ), .copy none ∉ is →
      (Parser.instrs (is.flatMap InstrOf.tokens)).1.map InstrOf.settled = is := by
  refine ⟨?_, Parser.instrs_flatMap_tokens, ?_⟩
  · intro ts
    obtain ⟨is, rest, hgrouped, hend⟩ := Parser.exists_grouped ts
    refine ⟨is.map InstrOf.tokens, rest, ?_, ?_⟩
    · intro gs' rest'
      constructor
      · exact hgrouped.unique
      · intro h
        obtain ⟨rfl, rfl⟩ := h
        exact hgrouped
    · obtain ⟨rfl, h⟩ | ⟨t, after, e, rfl, h, hrefusal⟩ := hend
      · rw [h]
        exact ⟨rfl, by simp, nofun⟩
      · rw [h]
        refine ⟨rfl, by simp, ?_⟩
        intro t' after' heq
        cases heq
        exact ⟨e, rfl, hrefusal⟩
  · intro is hcopy
    rw [Parser.instrs_flatMap_tokens]
    refine (List.map_congr_left ?_).trans (List.map_id is)
    intro i hi
    refine InstrOf.settled_eq_self ?_
    intro h
    exact hcopy (h ▸ hi)

end WhitespaceLang
