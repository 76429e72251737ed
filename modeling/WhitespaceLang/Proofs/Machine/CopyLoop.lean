import WhitespaceLang.Proofs.Machine.Evaluation

/-!
A program that copies its input to its output. Each character goes through the same cell of the
heap, and the end of the input is told from a character by its sign.
-/

namespace WhitespaceLang
namespace Heap

/-- There is no cell but the one at the address, if there is any. -/
def OnlyAt (a : Int) (h : Heap) : Prop := h.size = if h.contains a then 1 else 0

section OnlyAt

variable {h : Heap} {a v : Int}

theorem onlyAt_empty : empty.OnlyAt a := by simp [OnlyAt]

theorem OnlyAt.size_store (hs : h.OnlyAt a) : (h.store a v).size = 1 := by
  rw [Heap.size_store, hs]
  split <;> rfl

theorem OnlyAt.store (hs : h.OnlyAt a) : (h.store a v).OnlyAt a := by
  have hcontains := (h.contains_store a v a).mpr (.inl rfl)
  rw [OnlyAt, hs.size_store, if_pos hcontains]

theorem OnlyAt.toList_store (hs : h.OnlyAt a) : (h.store a v).toList = [(a, v)] := by
  have hmem : (a, v) ∈ (h.store a v).toList :=
    Std.TreeMap.mem_toList_iff_getElem?_eq_some.mpr Std.TreeMap.getElem?_insert_self
  have hlength : (h.store a v).toList.length = 1 :=
    Std.TreeMap.length_toList.trans hs.size_store
  obtain ⟨w, hw⟩ := List.length_eq_one_iff.mp hlength
  rw [hw, List.mem_singleton] at hmem
  rw [hw, hmem]

end OnlyAt
end Heap

/-- Copies the input until a read answers with -1. -/
def copyLoop : List Instr :=
  [.mark [], .push 0, .readChar, .push 0, .retrieve, .dup, .jumpNegative [true], .printChar,
    .jump [], .mark [true], .discard]

namespace CopyLoop

/-- The machine at a position of the program, which it came to by a jump or not, with the rest of
the input and the output so far. -/
def state (moved : Bool) (p : Nat) (s : Stack) (h : Heap) (i o : Text) : Machine :=
  ⟨{ (Flow.ofInstrs copyLoop).finish.started with ip := p, moved }, ⟨s, h, .plain i o⟩⟩

variable {moved : Bool} {h : Heap} {i o : Text}

/-- Whatever a read answers with is stored, and comes twice to the stack to be tested. -/
theorem reaches_test {i' : Text} {v : Int}
    (hr : (Device.plain i o).readChar = (.ok v, .plain i' o)) :
    (state moved 0 [] h i o).Reaches 6 (state false 6 [v, v] (h.store 0 v) i' o) := by
  have hmark : (state moved 0 [] h i o).step = (.ok true, state false 1 [] h i o) := rfl
  have hpush : (state false 1 [] h i o).step = (.ok true, state false 2 [0] h i o) := rfl
  have hread : (state false 2 [0] h i o).step = (.ok true, state false 3 [] (h.store 0 v) i' o) :=
    Machine.step_moved rfl rfl (Data.storeRead_cons hr) .next
  have hpush' : (state false 3 [] (h.store 0 v) i' o).step =
      (.ok true, state false 4 [0] (h.store 0 v) i' o) := rfl
  have hretrieve : (state false 4 [0] (h.store 0 v) i' o).step =
      (.ok true, state false 5 [(h.store 0 v).retrieve 0] (h.store 0 v) i' o) := rfl
  have hdup : (state false 5 [v] (h.store 0 v) i' o).step =
      (.ok true, state false 6 [v, v] (h.store 0 v) i' o) := rfl
  rw [Heap.retrieve_store, if_pos rfl] at hretrieve
  exact (((((Machine.reaches_one hmark).step hpush).step hread).step hpush').step hretrieve).step
    hdup

/-- One turn of the loop copies one character. -/
theorem reaches_turn (c : CodePoint) :
    (state moved 0 [] h (c :: i) o).Reaches 9 (state true 0 [] (h.store 0 c.val) i (o ++ [c])) := by
  have htest : (state false 6 [(c.val : Int), c.val] (h.store 0 c.val) i o).step =
      (.ok true, state false 7 [(c.val : Int)] (h.store 0 c.val) i o) := by
    have hcharacter : ¬ (c.val : Int) < 0 := Int.not_lt.mpr (Int.natCast_nonneg c.val)
    refine Machine.step_moved rfl rfl ?_ .next
    exact Data.execute_jumpNegative_eq_ok_iff.mpr ⟨_, _, rfl, (if_neg hcharacter).symm, rfl⟩
  have hprint : (state false 7 [(c.val : Int)] (h.store 0 c.val) i o).step =
      (.ok true, state false 8 [] (h.store 0 c.val) i (o ++ [c])) := by
    have hplain := (Device.printChar_plain_iff i o).mpr ⟨c, rfl, rfl⟩
    have hexecute : Data.execute .printChar ⟨[(c.val : Int)], h.store 0 c.val, .plain i o⟩ =
        (.ok .next, ⟨[], h.store 0 c.val, .plain i (o ++ [c])⟩) := by
      rw [Data.execute_printChar]
      exact Data.printTop_cons hplain
    exact Machine.step_moved rfl rfl hexecute .next
  have hback : (state false 8 [] (h.store 0 c.val) i (o ++ [c])).step =
      (.ok true, state true 0 [] (h.store 0 c.val) i (o ++ [c])) := rfl
  exact (((reaches_test (Device.readChar_plain_cons i o c)).step htest).step hprint).step hback

/-- At the end of the input the loop is left for the end of the program. -/
theorem reaches_end :
    (state moved 0 [] h [] o).Reaches 9 (state false 11 [] (h.store 0 (-1)) [] o) := by
  have htest : (state false 6 [-1, -1] (h.store 0 (-1)) [] o).step =
      (.ok true, state true 9 [-1] (h.store 0 (-1)) [] o) := rfl
  have hmark : (state true 9 [-1] (h.store 0 (-1)) [] o).step =
      (.ok true, state false 10 [-1] (h.store 0 (-1)) [] o) := rfl
  have hdiscard : (state false 10 [-1] (h.store 0 (-1)) [] o).step =
      (.ok true, state false 11 [] (h.store 0 (-1)) [] o) := rfl
  exact (((reaches_test (Device.readChar_plain_nil o)).step htest).step hmark).step hdiscard

/-- The whole loop, by induction on what is left of the input. Between two turns the stack is empty
and the heap has at most the one cell. -/
theorem reaches_copied (hh : h.OnlyAt 0) (i o : Text) :
    ∃ h' : Heap, h'.toList = [(0, -1)] ∧
      (state moved 0 [] h i o).Reaches (9 * i.length + 9) (state false 11 [] h' [] (o ++ i)) := by
  induction i generalizing moved h o with
  | nil =>
      rw [List.append_nil]
      exact ⟨_, hh.toList_store, reaches_end⟩
  | cons c i ih =>
      obtain ⟨h', hcells, hreaches⟩ := ih (hh.store (v := c.val)) (o ++ [c])
      have hcount : 9 * (c :: i).length + 9 = 9 + (9 * i.length + 9) := by
        rw [List.length_cons]
        omega
      rw [List.append_cons, hcount]
      exact ⟨h', hcells, (reaches_turn c).trans hreaches⟩

/-- The machine when the program has come to its end, with all input copied. -/
def halted (h : Heap) (o : Text) : Machine :=
  ⟨{ (Flow.ofInstrs copyLoop).finish.started with ip := copyLoop.length, phase := .halted },
    ⟨[], h, .plain [] o⟩⟩

theorem state_zero (stdin : Text) : state false 0 [] .empty stdin [] =
    .new (Flow.ofInstrs copyLoop).finish.started (.ofText stdin) := rfl

theorem stopsAfter_copied (stdin : Text) :
    ∃ h : Heap, h.toList = [(0, -1)] ∧
      (state false 0 [] .empty stdin []).StopsAfter (9 * stdin.length + 9) .ended ∧
      (state false 0 [] .empty stdin []).after (9 * stdin.length + 9 + 1) = halted h stdin := by
  obtain ⟨h, hcells, hreaches⟩ := reaches_copied Heap.onlyAt_empty stdin []
  have hend : (state false 11 [] h [] stdin).step = (.ok false, halted h stdin) :=
    Machine.step_ended rfl rfl
  obtain ⟨hhere, hlast⟩ := Machine.stopsAfter_zero rfl hend
  obtain ⟨hstops, hafter⟩ := hreaches.stopsAfter hhere
  exact ⟨h, hcells, hstops, hafter.trans hlast⟩

theorem load_of_spelled {t : Text} (h : Spelled copyLoop t) :
    Flow.load t = .ok (Flow.ofInstrs copyLoop).finish :=
  Flow.load_of_spelled h (by decide)

end CopyLoop

/-- However the loop is spelled, it stops on every input, and its output is the input. At the end
the stack is empty, the last read has left -1 in the only cell of the heap, and the pointer is
behind the last instruction. -/
theorem copied_input {t : Text} (h : Spelled copyLoop t) (stdin : Text) :
    (∀ n, 9 * stdin.length + 9 < n → interpret n t stdin = some (.ok stdin)) ∧
      ∃ f r, Flow.load t = .ok f ∧
        (∀ n, f.run n (.ofText stdin) =
          .ok (if n ≤ 9 * stdin.length + 9 then none else some r)) ∧
        r.ending = .finished ∧ r.machine.data.stack = [] ∧
        r.machine.data.heap.toList = [(0, -1)] ∧ r.machine.data.device.input.text = [] ∧
        r.machine.data.device.output.text = stdin ∧ r.machine.flow.ip = f.program.size := by
  have hload := CopyLoop.load_of_spelled h
  obtain ⟨heap, hcells, hstops, hhalted⟩ := CopyLoop.stopsAfter_copied stdin
  rw [CopyLoop.state_zero] at hstops hhalted
  refine ⟨?_, _, (CopyLoop.halted heap stdin).close .ended, hload, ?_, rfl, rfl, hcells, rfl, rfl,
    rfl⟩
  · intro n hn
    rw [interpret_of_stopsAfter hload hstops hn, hhalted]
    rfl
  · intro n
    rw [(Flow.Loaded.text hload).run_of_stopsAfter hstops, hhalted]

/-- A text with a zero character, a carriage return and a surrogate in it. -/
theorem copied_input_of_odd_characters :
    let stdin : Text := [0, 13, 0xD800]
    Spelled copyLoop (sourceOf copyLoop) ∧
      interpret 37 (sourceOf copyLoop) stdin = some (.ok stdin) := by
  intro stdin
  have h := spelled_sourceOf copyLoop
  obtain ⟨hcopied, -⟩ := copied_input h stdin
  exact ⟨h, hcopied 37 (by decide)⟩

end WhitespaceLang
