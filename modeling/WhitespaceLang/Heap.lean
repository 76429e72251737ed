import Std.Data.TreeMap

/-!
The heap: a cell for every address that was stored to. An address without a cell reads as 0.
-/

namespace WhitespaceLang

structure Heap where
  cells : Std.TreeMap Int Int

namespace Heap

def empty : Heap := ⟨∅⟩

def store (address value : Int) (h : Heap) : Heap := ⟨h.cells.insert address value⟩

def retrieve (address : Int) (h : Heap) : Int := h.cells.getD address 0

def contains (address : Int) (h : Heap) : Bool := h.cells.contains address

def size (h : Heap) : Nat := h.cells.size

/-- The cells in ascending order of their addresses. -/
def toList (h : Heap) : List (Int × Int) := h.cells.toList

@[simp] theorem retrieve_empty (a : Int) : empty.retrieve a = 0 := by
  simp [retrieve, empty]

@[simp] theorem contains_empty (a : Int) : empty.contains a = false := by
  simp [contains, empty]

@[simp] theorem size_empty : empty.size = 0 := by
  simp [size, empty]

theorem retrieve_store (h : Heap) (a v b : Int) :
    (h.store a v).retrieve b = if b = a then v else h.retrieve b := by
  simp only [retrieve, store, Std.TreeMap.getD_insert, Std.LawfulEqCmp.compare_eq_iff_eq]
  simp only [eq_comm]

theorem contains_store (h : Heap) (a v b : Int) :
    (h.store a v).contains b ↔ b = a ∨ h.contains b := by
  simp only [contains, store, Std.TreeMap.contains_insert, Bool.or_eq_true, beq_iff_eq,
    Std.LawfulEqCmp.compare_eq_iff_eq]
  simp only [eq_comm]

theorem size_store (h : Heap) (a v : Int) :
    (h.store a v).size = if h.contains a then h.size else h.size + 1 := by
  simp [size, store, contains, Std.TreeMap.size_insert]

end Heap
end WhitespaceLang
