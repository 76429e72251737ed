import WhitespaceLang.Attempt
import WhitespaceLang.Fault

/-!
The operand stack, top first. Its operations look whether the items that they need are there before
they move any.
-/

namespace WhitespaceLang

abbrev Stack := List Int

namespace Stack

def push (v : Int) (s : Stack) : Stack := v :: s

def pop : Stack → Except Failure (Int × Stack)
  | v :: rest => .ok (v, rest)
  | [] => .error (.fault .underflow)

def peek : Stack → Except Failure Int
  | v :: _ => .ok v
  | [] => .error (.fault .underflow)

end Stack

namespace OperandStack

/-- Fails unless there are `n` items. -/
def need (n : Nat) : Attempt Stack Failure Unit :=
  Attempt.require (n ≤ ·.length) (.fault .underflow)

def push (v : Int) : Attempt Stack Failure Unit := modify (Stack.push v)

/-- Copies the item `n` places below the top onto the top. -/
def copy (n : Int) : Attempt Stack Failure Unit := do
  Attempt.require (fun _ => 0 ≤ n) (.naming n (.cannotCopy n))
  need (n.toNat + 1)
  modify fun s => s.getD n.toNat 0 :: s

def dup : Attempt Stack Failure Unit := copy 0

/-- Drops the `n` items under the top. -/
def slide (n : Int) : Attempt Stack Failure Unit := do
  Attempt.require (fun _ => 0 ≤ n) (.naming n (.cannotSlide n))
  need (n.toNat + 1)
  modify fun s => s.take 1 ++ s.drop (n.toNat + 1)

def swap : Attempt Stack Failure Unit := do
  need 2
  modify fun s => (s.take 2).reverse ++ s.drop 2

end OperandStack

namespace Stack

def copy (n : Int) (s : Stack) : Except Failure Stack := (OperandStack.copy n).made s

def dup (s : Stack) : Except Failure Stack := OperandStack.dup.made s

def slide (n : Int) (s : Stack) : Except Failure Stack := (OperandStack.slide n).made s

def swap (s : Stack) : Except Failure Stack := OperandStack.swap.made s

end Stack
end WhitespaceLang
