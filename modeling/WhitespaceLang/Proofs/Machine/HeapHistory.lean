import WhitespaceLang.Proofs.Machine.Stepping
import Mathlib.Data.List.Dedup

/-!
The heap as the history of what was written to it. Three instructions write, each to the address
that it takes from the stack, and only if it succeeds. Whatever instructions are executed one after
the other, a cell holds what was written to it last, and there are no cells but those written to.
-/

namespace WhitespaceLang

/-- The heap is what a history of writes has made of the empty one. Each write is given by its
address and its value, and the latest comes first. -/
structure Heap.Records (h : Heap) (ws : List (Int × Int)) : Prop where
  retrieve_eq (a : Int) : h.retrieve a = (ws.lookup a).getD 0
  contains_iff (a : Int) : h.contains a ↔ a ∈ ws.map Prod.fst
  size_eq : h.size = (ws.map Prod.fst).dedup.length

namespace Heap

theorem records_empty : empty.Records [] where
  retrieve_eq := retrieve_empty
  contains_iff a := by simp
  size_eq := size_empty

theorem Records.store {h : Heap} {ws : List (Int × Int)} (hr : h.Records ws) (a v : Int) :
    (h.store a v).Records ((a, v) :: ws) where
  retrieve_eq b := by
    rw [retrieve_store, List.lookup_cons, hr.retrieve_eq]
    by_cases hb : b = a
    · simp [hb]
    · have hbeq : (b == a) = false := beq_eq_false_iff_ne.mpr hb
      simp [hb, hbeq]
  contains_iff b := by
    rw [contains_store, List.map_cons, List.mem_cons, hr.contains_iff]
  size_eq := by
    have hmem := hr.contains_iff a
    rw [size_store, List.map_cons, hr.size_eq]
    by_cases ha : a ∈ ws.map Prod.fst
    · rw [if_pos (hmem.mpr ha), List.dedup_cons_of_mem ha]
    · rw [if_neg (mt hmem.mp ha), List.dedup_cons_of_notMem ha, List.length_cons]

end Heap

/-- Whether the instruction is one that writes to the heap. -/
def InstrOf.writes : Instr → Bool
  | .store | .readChar | .readNumber => true
  | _ => false

theorem InstrOf.control_of_writes {i : Instr} (h : i.writes) (s : Stack) : i.control s = .next := by
  cases i with
  | store | readChar | readNumber => rfl
  | _ => cases h

namespace Data

/-- The write of what was read, if there is an address for it. -/
def writeRead? (d : Data) (r : Except Failure Int) : Option (Int × Int) :=
  match d.stack, r with
  | address :: _, .ok value => some (address, value)
  | _, _ => none

/-- The address and the value of the write that the instruction makes, if it makes one. -/
def write? (i : Instr) (d : Data) : Option (Int × Int) :=
  match i with
  | .store =>
      match d.stack with
      | value :: address :: _ => some (address, value)
      | _ => none
  | .readChar => d.writeRead? d.device.readChar.1
  | .readNumber => d.writeRead? d.device.readNumber.1
  | _ => none

section Heap

variable (d : Data)

theorem updateStack_heap (a : Attempt Stack Failure Unit) :
    (d.updateStack a).2.heap = d.heap := by
  simp only [updateStack]
  split <;> rfl

theorem printTop_heap (print : Int → Device → Except Failure Unit × Device) :
    (d.printTop print).2.heap = d.heap := by
  simp only [printTop]
  split
  · split <;> rfl
  · rfl

theorem jumpIf_heap (test : Int → Bool) (l : Label) : (d.jumpIf test l).2.heap = d.heap := by
  simp only [jumpIf]
  split <;> rfl

theorem storeRead_heap (r : Except Failure Int × Device) :
    (d.storeRead r).2.heap =
      (d.writeRead? r.1).elim d.heap fun w => d.heap.store w.1 w.2 := by
  obtain ⟨r, device⟩ := r
  cases r with
  | error e => cases hs : d.stack <;> simp [storeRead, writeRead?, hs]
  | ok v => cases hs : d.stack <;> simp [storeRead, writeRead?, hs]

/-- An instruction changes the heap by the write that it makes and in no other way. -/
theorem execute_heap (i : Instr) :
    (d.execute i).2.heap = (d.write? i).elim d.heap fun w => d.heap.store w.1 w.2 := by
  cases i with
  | store =>
      obtain ⟨_ | ⟨value, _ | ⟨address, rest⟩⟩, heap, device⟩ := d
      · rfl
      · rfl
      · rfl
  | readChar | readNumber => exact d.storeRead_heap _
  | push n | dup | copy n | swap | slide n => exact d.updateStack_heap _
  | printChar | printNumber => exact d.printTop_heap _
  | jumpZero l | jumpNegative l => exact d.jumpIf_heap _ l
  | mark l | call l | jump l | ret | exit => rfl
  | discard | retrieve =>
      simp only [execute]
      split <;> rfl
  | arith op =>
      simp only [execute]
      split
      · split <;> rfl
      · rfl

end Heap

section Write

variable {d : Data}

theorem isSome_writeRead?_iff (r : Except Failure Int × Device) :
    (d.writeRead? r.1).isSome ↔ (d.storeRead r).1 = .ok .next := by
  obtain ⟨r, device⟩ := r
  cases r with
  | error e => cases hs : d.stack <;> simp [storeRead, writeRead?, hs]
  | ok v => cases hs : d.stack <;> simp [storeRead, writeRead?, hs]

/-- The instructions that write do so exactly when they succeed. -/
theorem isSome_write?_iff {i : Instr} :
    (d.write? i).isSome ↔ i.writes ∧ (d.execute i).1 = .ok .next := by
  cases i with
  | store =>
      obtain ⟨_ | ⟨value, _ | ⟨address, rest⟩⟩, heap, device⟩ := d
      · simp [write?, execute]
      · simp [write?, execute]
      · simp [write?, execute, InstrOf.writes]
  | readChar | readNumber =>
      simp only [InstrOf.writes, true_and]
      exact isSome_writeRead?_iff _
  | _ => simp [write?, InstrOf.writes]

end Write
end Data

namespace Machine

/-- Executes instructions outside the program one after the other, whether or not they fail. -/
def executeAll (is : List Instr) (m : Machine) : Machine :=
  is.foldl (fun m i => (m.execute i).2) m

/-- The writes that instructions make when they are executed one after the other, the latest
first. -/
def history : List Instr → Machine → List (Int × Int)
  | [], _ => []
  | i :: is, m => (m.execute i).2.history is ++ (m.data.write? i).toList

section Execute

variable {m : Machine} {i : Instr}

/-- An instruction that writes asks for no transfer, so nothing else can go wrong with it. -/
theorem execute_of_writes (h : i.writes) :
    (m.execute i).1 = .ok () ↔ (m.data.execute i).1 = .ok .next := by
  simp only [execute]
  cases he : m.data.execute i with
  | mk r data =>
      cases r with
      | error e => simp
      | ok c =>
          rw [Data.execute_control he, InstrOf.control_of_writes h]
          simp [FlowControl.transfer]

theorem isSome_write?_iff :
    (m.data.write? i).isSome ↔ i.writes ∧ (m.execute i).1 = .ok () := by
  rw [Data.isSome_write?_iff]
  exact and_congr_right fun h => (execute_of_writes h).symm

theorem execute_heap_of_write?_eq_none (h : m.data.write? i = none) :
    (m.execute i).2.data.heap = m.data.heap := by
  rw [execute_data, Data.execute_heap, h]
  rfl

theorem execute_retrieve {a : Int} {rest : Stack} (hs : m.data.stack = a :: rest) :
    m.execute .retrieve =
      (.ok (), ⟨m.flow, { m.data with stack := m.data.heap.retrieve a :: rest }⟩) := by
  simp only [execute, Data.execute, hs]
  rfl

end Execute

theorem records_execute {m : Machine} {ws : List (Int × Int)} (h : m.data.heap.Records ws)
    (i : Instr) : (m.execute i).2.data.heap.Records ((m.data.write? i).toList ++ ws) := by
  rw [execute_data, Data.execute_heap]
  cases m.data.write? i with
  | none => exact h
  | some w => exact h.store w.1 w.2

theorem records_executeAll {m : Machine} {ws : List (Int × Int)} (h : m.data.heap.Records ws)
    (is : List Instr) : (m.executeAll is).data.heap.Records (m.history is ++ ws) := by
  induction is generalizing m ws with
  | nil => exact h
  | cons i is ih =>
      rw [history, List.append_assoc]
      exact ih (records_execute h i)

end Machine

/-- After any sequence of instructions, failing ones included, the heap is the history of the writes
that succeeded, and that is what a retrieval finds. An instruction that is not one of those that
write, or that fails, leaves the heap as it was. -/
theorem heap_history (flow : Flow) (device : Device) (is : List Instr) :
    let m := (Machine.new flow device).executeAll is
    let ws := (Machine.new flow device).history is
    m.data.heap.Records ws ∧
      (∀ a rest, m.data.stack = a :: rest →
        m.execute .retrieve =
          (.ok (), ⟨m.flow, { m.data with stack := (ws.lookup a).getD 0 :: rest }⟩)) ∧
      (∀ i, (m.data.write? i).isSome ↔ i.writes ∧ (m.execute i).1 = .ok ()) ∧
      ∀ i, i.writes = false ∨ (∃ e, (m.execute i).1 = .error e) →
        (m.execute i).2.data.heap = m.data.heap := by
  intro m ws
  have hrecords : m.data.heap.Records ws := by
    have hall := Machine.records_executeAll (m := .new flow device) Heap.records_empty is
    rwa [List.append_nil] at hall
  refine ⟨hrecords, ?_, fun i => Machine.isSome_write?_iff, ?_⟩
  · intro a rest hs
    rw [Machine.execute_retrieve hs, hrecords.retrieve_eq]
  · intro i hno
    apply Machine.execute_heap_of_write?_eq_none
    rw [← Option.not_isSome_iff_eq_none, Machine.isSome_write?_iff]
    rintro ⟨hwrites, hok⟩
    obtain hnever | ⟨e, he⟩ := hno
    · rw [hnever] at hwrites
      cases hwrites
    · cases hok.symm.trans he

/-- A cell is stored to and then read into, a store with one item and a read without an address
fail, and the cell is still the only one. -/
theorem heap_history_of_failing_writes :
    let is : List Instr :=
      [.push 5, .push 9, .store, .push 5, .readChar, .push 7, .store, .readChar, .push 5]
    let m := (Machine.new .empty (.ofText "q")).executeAll is
    m.data.heap.retrieve 5 = 113 ∧ m.data.heap.size = 1 ∧ m.data.heap.contains 7 = false ∧
      (m.execute .retrieve).2.data.stack = [113] ∧
      (m.execute .store).2.data.heap = m.data.heap := by
  intro is m
  obtain ⟨hrecords, hretrieve, -, hkept⟩ := heap_history .empty (.ofText "q") is
  have hwrites : (Machine.new .empty (.ofText "q")).history is = [(5, 113), (5, 9)] := rfl
  have hstack : m.data.stack = [5] := rfl
  rw [hwrites] at hrecords hretrieve
  refine ⟨hrecords.retrieve_eq 5, hrecords.size_eq, ?_, ?_, hkept .store (.inr ⟨_, rfl⟩)⟩
  · have hseven := hrecords.contains_iff 7
    simpa using hseven
  · rw [hretrieve 5 [] hstack]
    rfl

end WhitespaceLang
