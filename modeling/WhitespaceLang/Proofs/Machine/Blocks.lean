import WhitespaceLang.Proofs.Machine.Outcome

/-!
Programs laid out in blocks. A block is entered by its mark and never left over its end, so it does
not matter in which order the blocks stand. The same blocks in another order run the same, step by
step, with each position carried to where its block has gone.
-/

namespace WhitespaceLang

/-- A stretch of a program that is entered by its mark and left by its last instruction. -/
structure Block where
  label : Label
  body : List Instr
  last : Instr
  body_unmarked : Flow.marks body = []
  last_leaves : last.leaves = true

namespace Block

def instrs (b : Block) : List Instr := .mark b.label :: (b.body ++ [b.last])

def layout (bs : List Block) : List Instr := bs.flatMap instrs

/-- The program that goes to the label `e` and has these blocks. -/
def program (e : Label) (bs : List Block) : List Instr := .jump e :: layout bs

/-- The positions that control may come to: the first jump, those in the blocks, and the end. -/
inductive Position (bs : List Block) : Nat → Prop
  | entry : Position bs 0
  | block {before behind : List Block} {b : Block} {j : Nat} (h : bs = before ++ b :: behind)
      (hj : j < b.instrs.length) : Position bs ((layout before).length + j + 1)
  | finish : Position bs ((layout bs).length + 1)

/-- The map `π` carries each position of the blocks `bs`, laid out behind the first jump, to the one
in the same block of `bs'`, and the end to the end. -/
structure Carries (bs bs' : List Block) (π : Nat → Nat) : Prop where
  entry : π 0 = 0
  block {before behind before' behind' : List Block} {b : Block} {j : Nat}
    (h : bs = before ++ b :: behind) (h' : bs' = before' ++ b :: behind')
    (hj : j < b.instrs.length) :
    π ((layout before).length + j + 1) = (layout before').length + j + 1
  finish : π ((layout bs).length + 1) = (layout bs').length + 1

section Layout

variable {e : Label} {bs bs' before behind : List Block} {b : Block} {i : Instr} {j p : Nat}

theorem length_instrs (b : Block) : b.instrs.length = b.body.length + 2 := by
  simp [instrs]

theorem layout_cons (b : Block) (bs : List Block) : layout (b :: bs) = b.instrs ++ layout bs :=
  List.flatMap_cons

theorem layout_append (before bs : List Block) :
    layout (before ++ bs) = layout before ++ layout bs :=
  List.flatMap_append

theorem layout_perm (h : bs.Perm bs') : (layout bs).Perm (layout bs') := h.flatMap_right instrs

theorem getElem?_program (hj : j < b.instrs.length) :
    (program e (before ++ b :: behind))[(layout before).length + j + 1]? = b.instrs[j]? := by
  rw [program, List.getElem?_cons_succ, layout_append, layout_cons,
    List.getElem?_append_right (Nat.le_add_right _ _), Nat.add_sub_cancel_left,
    List.getElem?_append_left hj]

/-- A position in the layout is one in some block. -/
theorem exists_block_at (h : p < (layout bs).length) :
    ∃ before b behind j, bs = before ++ b :: behind ∧ j < b.instrs.length ∧
      p = (layout before).length + j := by
  induction bs generalizing p with
  | nil => cases h
  | cons c bs ih =>
      by_cases hp : p < c.instrs.length
      · exact ⟨[], c, bs, p, rfl, hp, (Nat.zero_add p).symm⟩
      · rw [layout_cons, List.length_append] at h
        have hrest : p - c.instrs.length < (layout bs).length := by omega
        obtain ⟨before, b, behind, j, rfl, hj, hp'⟩ := ih hrest
        refine ⟨c :: before, b, behind, j, rfl, hj, ?_⟩
        rw [layout_cons, List.length_append]
        omega

theorem position_of_getElem? (h : (program e bs)[p]? = some i) : Position bs p := by
  cases p with
  | zero => exact .entry
  | succ p =>
      obtain ⟨hp, -⟩ := List.getElem?_eq_some_iff.mp h
      rw [program, List.length_cons, Nat.succ_lt_succ_iff] at hp
      obtain ⟨before, b, behind, j, hbs, hj, rfl⟩ := exists_block_at hp
      exact .block hbs hj

/-- Behind an instruction that control may go on from, there is another one of the same block. -/
theorem succ_lt_of_continues (hi : b.instrs[j]? = some i) (hl : i.leaves = false) :
    j + 1 < b.instrs.length := by
  obtain ⟨hj, -⟩ := List.getElem?_eq_some_iff.mp hi
  refine Nat.lt_of_le_of_ne hj ?_
  intro hlast
  rw [length_instrs] at hlast
  obtain rfl : j = b.body.length + 1 := by omega
  have hget : b.instrs[b.body.length + 1]? = some b.last := by
    simp [instrs]
  rw [hget] at hi
  cases hi
  rw [b.last_leaves] at hl
  cases hl

theorem marks_instrs (b : Block) : Flow.marks b.instrs = [b.label] := by
  have hlast : b.last.mark? = none := by
    have hl := b.last_leaves
    cases hm : b.last with
    | mark l => rw [hm] at hl; cases hl
    | _ => rfl
  have hbody : b.body.filterMap InstrOf.mark? = [] := b.body_unmarked
  rw [Flow.marks, instrs, List.filterMap_cons, List.filterMap_append, hbody,
    List.filterMap_cons_none hlast]
  rfl

theorem marks_program (e : Label) (bs : List Block) :
    Flow.marks (program e bs) = bs.map Block.label := by
  change Flow.marks (layout bs) = bs.map Block.label
  induction bs with
  | nil => rfl
  | cons b bs ih =>
      rw [layout_cons, Flow.marks_append, marks_instrs, ih]
      rfl

end Layout

section Carry

/-- The block that a position of the layout is in, and the position within it. -/
def locate : List Block → Nat → Option (Block × Nat)
  | [], _ => none
  | b :: bs, p => if p < b.instrs.length then some (b, p) else locate bs (p - b.instrs.length)

/-- Where the block of a label starts in the layout. -/
def offset (l : Label) : List Block → Nat
  | [] => 0
  | b :: bs => if b.label = l then 0 else b.instrs.length + offset l bs

def carry (bs bs' : List Block) : Nat → Nat
  | 0 => 0
  | p + 1 =>
      match locate bs p with
      | some (b, j) => offset b.label bs' + j + 1
      | none => p + 1

variable {bs bs' before behind : List Block} {b : Block} {j p : Nat}

theorem locate_layout (hj : j < b.instrs.length) :
    locate (before ++ b :: behind) ((layout before).length + j) = some (b, j) := by
  induction before with
  | nil =>
      rw [List.nil_append, locate]
      simp only [layout, List.flatMap_nil, List.length_nil, Nat.zero_add]
      exact if_pos hj
  | cons c before ih =>
      rw [layout_cons, List.length_append, List.cons_append, locate, if_neg (by omega),
        Nat.add_assoc, Nat.add_sub_cancel_left, ih]

theorem locate_length (bs : List Block) : locate bs (layout bs).length = none := by
  induction bs with
  | nil => rfl
  | cons c bs ih =>
      rw [layout_cons, List.length_append, locate, if_neg (by omega), Nat.add_sub_cancel_left, ih]

theorem offset_layout (h : b.label ∉ before.map Block.label) :
    offset b.label (before ++ b :: behind) = (layout before).length := by
  induction before with
  | nil => exact if_pos rfl
  | cons c before ih =>
      rw [List.map_cons, List.mem_cons, not_or] at h
      rw [List.cons_append, offset, if_neg (Ne.symm h.1), ih h.2, layout_cons, List.length_append]

theorem carries_carry (hl : (bs'.map Block.label).Nodup) (hperm : bs.Perm bs') :
    Carries bs bs' (carry bs bs') where
  entry := rfl
  block {before behind before' behind' b j} h h' hj := by
    have hnew : b.label ∉ before'.map Block.label := by
      rw [h', List.map_append, List.map_cons] at hl
      intro hmem
      exact List.disjoint_of_nodup_append hl hmem List.mem_cons_self
    rw [carry, h, locate_layout hj]
    simp only [h', offset_layout hnew]
  finish := by
    rw [carry, locate_length, (layout_perm hperm).length_eq]

end Carry

section Permuted

variable {e : Label} {bs bs' : List Block} {π : Nat → Nat}

/-- The position `q` is the one that `p` is carried to. -/
def CarriedTo (bs : List Block) (π : Nat → Nat) (p q : Nat) : Prop := Position bs p ∧ π p = q

theorem nodup_marks_program (h : (bs.map Block.label).Nodup) :
    (Flow.marks (program e bs)).Nodup := by
  rw [marks_program]
  exact h

theorem exists_split_of_perm {before behind : List Block} {b : Block} (hperm : bs.Perm bs')
    (h : bs = before ++ b :: behind) : ∃ before' behind', bs' = before' ++ b :: behind' := by
  subst h
  exact List.append_of_mem (hperm.subset (List.mem_append_right before List.mem_cons_self))

theorem getElem?_carried (hperm : bs.Perm bs') (hπ : Carries bs bs' π) {p : Nat}
    (hp : Position bs p) : (program e bs')[π p]? = (program e bs)[p]? := by
  cases hp with
  | entry =>
      rw [hπ.entry]
      rfl
  | block h hj =>
      obtain ⟨before', behind', h'⟩ := exists_split_of_perm hperm h
      rw [hπ.block h h' hj, h, h', getElem?_program hj, getElem?_program hj]
  | finish =>
      rw [hπ.finish]
      simp [program]

/-- Where control may go on, the position behind is carried behind. -/
theorem carriedTo_succ (hperm : bs.Perm bs') (hπ : Carries bs bs' π) {p : Nat} {i : Instr}
    (hp : Position bs p) (hi : (program e bs)[p]? = some i) (hl : i.leaves = false) :
    CarriedTo bs π (p + 1) (π p + 1) := by
  cases hp with
  | entry =>
      cases hi
      cases hl
  | block h hj =>
      obtain ⟨before', behind', h'⟩ := exists_split_of_perm hperm h
      rw [h, getElem?_program hj] at hi
      have hj' := succ_lt_of_continues hi hl
      refine ⟨.block h hj', ?_⟩
      rw [hπ.block h h' hj]
      exact hπ.block h h' hj'
  | finish => simp [program] at hi

/-- Blocks in another order are a relocation of the program, with each position carried along. -/
theorem relocation_of_perm (hl : (bs.map Block.label).Nodup) (hperm : bs.Perm bs')
    (hπ : Carries bs bs' π) :
    Flow.Relocation id (CarriedTo bs π) (CarriedTo bs π)
      (Flow.ofInstrs (program e bs)).finish (Flow.ofInstrs (program e bs')).finish := by
  have hl' := ((hperm.map Block.label).nodup_iff).mp hl
  apply Flow.relocation_ofInstrs (nodup_marks_program hl) (nodup_marks_program hl')
  · intro p q h
    rw [← h.2, getElem?_carried hperm hπ h.1, InstrOf.relabel_id, Option.map_id, id]
  · intro p q i h hi hleaves
    rw [← h.2]
    exact carriedTo_succ hperm hπ h.1 hi hleaves
  · intro p i hi
    exact ⟨π p, ⟨position_of_getElem? hi, rfl⟩, position_of_getElem? hi, rfl⟩
  · intro l _ hmark
    rw [marks_program] at hmark ⊢
    exact ((hperm.map Block.label).mem_iff).mpr hmark
  · intro _
    exact ⟨.finish, hπ.finish⟩

/-- Return addresses that correspond one by one are carried one by one. -/
theorem forall₂_carriedTo_iff {calls calls' : List Nat} :
    List.Forall₂ (CarriedTo bs π) calls calls' ↔
      (∀ p ∈ calls, Position bs p) ∧ calls' = calls.map π := by
  rw [← Flow.forall₂_map_iff]
  exact List.forall₂_and_left _ _

end Permuted
end Block

/-- The order of blocks with labels of their own does not matter. After each step the pointer and
the return addresses are where they were in the other order, and runs of the same number of steps
stop in the same way or not at all. -/
theorem permuted_blocks (e : Label) {bs bs' : List Block} (hl : (bs.map Block.label).Nodup)
    (hperm : bs.Perm bs') :
    ∃ f g π, Flow.empty.addAll (Block.program e bs) = .ok f ∧
      Flow.empty.addAll (Block.program e bs') = .ok g ∧ Block.Carries bs bs' π ∧
      ∀ device, ∃ m₀ m₀', f.finish.launch device = .ok m₀ ∧ g.finish.launch device = .ok m₀' ∧
        (∀ k,
          let m := m₀.after k
          let m' := m₀'.after k
          (Block.Position bs m.flow.ip ∧ m'.flow.ip = π m.flow.ip) ∧
            ((∀ p ∈ m.flow.calls, Block.Position bs p) ∧ m'.flow.calls = m.flow.calls.map π) ∧
            m'.flow.phase = m.flow.phase ∧ m'.data = m.data ∧ m'.step.1 = m.step.1) ∧
        ∀ n, ∃ o o', f.finish.run n device = .ok o ∧ g.finish.run n device = .ok o' ∧
          Option.Rel (Report.Relocates π) o o' := by
  have hl' := ((hperm.map Block.label).nodup_iff).mp hl
  have hf := Flow.addAll_eq_ok_iff.mpr ⟨Block.nodup_marks_program (e := e) hl, rfl⟩
  have hg := Flow.addAll_eq_ok_iff.mpr ⟨Block.nodup_marks_program (e := e) hl', rfl⟩
  have hfl := Flow.Loaded.instrs hf
  have hgl := Flow.Loaded.instrs hg
  have hπ := Block.carries_carry hl' hperm
  refine ⟨_, _, _, hf, hg, hπ, fun device => ?_⟩
  have h₀ := Machine.relocated_new (Block.relocation_of_perm (e := e) hl hperm hπ)
    ⟨.entry, hπ.entry⟩ device
  refine ⟨_, _, hfl.launch_eq device, hgl.launch_eq device, ?_, ?_⟩
  · intro k m m'
    have h := h₀.after (fun _ _ => id) k
    obtain ⟨hposition, hip⟩ := h.aligned.ip
    exact ⟨⟨hposition, hip.symm⟩, Block.forall₂_carriedTo_iff.mp h.aligned.calls,
      h.aligned.phase_eq, h.data_eq, h.step_eq h.aligned.ip⟩
  · intro n
    refine ⟨_, _, hfl.run_eq n device, hgl.run_eq n device, ?_⟩
    obtain ⟨hstop, h⟩ := h₀.advance (fun _ _ => id) n
    rw [hstop]
    generalize ((Machine.new _ device).advance n).1 = stopped
    cases stopped with
    | none => exact .none
    | some stop =>
        have hip := h.aligned.ip.2.symm
        exact .some (Machine.close_relocates h.data_eq h.aligned.phase_eq hip stop)

/-- A subroutine laid out behind its caller and before it. The jump after the call, behind a branch
that is not taken, fails at the position it has been carried to. -/
theorem permuted_blocks_of_subroutine :
    let caller : Block := ⟨[true], [.push 1, .jumpZero [], .call [false]], .jump [], rfl, rfl⟩
    let subroutine : Block := ⟨[false], [], .ret, rfl, rfl⟩
    ([caller, subroutine].map Block.label).Nodup ∧
      [caller, subroutine].Perm [subroutine, caller] ∧
      ∃ f g, Flow.empty.addAll (Block.program [true] [caller, subroutine]) = .ok f ∧
        Flow.empty.addAll (Block.program [true] [subroutine, caller]) = .ok g ∧
        ∃ r r', f.finish.run 8 (.ofText []) = .ok (some r) ∧
          g.finish.run 8 (.ofText []) = .ok (some r') ∧
          r.ending = .fault 5 (.undefinedLabel []) ∧ r'.ending = .fault 7 (.undefinedLabel []) := by
  intro caller subroutine
  have hl : ([caller, subroutine].map Block.label).Nodup := by decide
  have hperm : [caller, subroutine].Perm [subroutine, caller] := .swap _ _ []
  obtain ⟨f, g, π, hf, hg, hπ, hruns⟩ := permuted_blocks [true] hl hperm
  obtain ⟨m₀, m₀', -, -, -, hrun⟩ := hruns (.ofText [])
  obtain ⟨o, o', ho, ho', hsame⟩ := hrun 8
  have hrun : ∃ r, f.finish.run 8 (.ofText []) = .ok (some r) ∧
      r.ending = .fault 5 (.undefinedLabel []) := by
    cases hf
    exact ⟨_, rfl, rfl⟩
  obtain ⟨r, hr, hend⟩ := hrun
  cases ho.symm.trans hr
  cases hsame with
  | @some _ r' hsame =>
      have hcarried : π 5 = 7 :=
        hπ.block (j := 4) (show [caller, subroutine] = [] ++ caller :: [subroutine] from rfl)
          (show [subroutine, caller] = [subroutine] ++ caller :: [] from rfl) (by decide)
      refine ⟨hl, hperm, f, g, hf, hg, r, r', hr, ho', hend, ?_⟩
      rw [hsame.ending_eq, hend, Ending.relocate, hcarried]

end WhitespaceLang
