import WhitespaceLang.Stack
import WhitespaceLang.Heap
import WhitespaceLang.Device
import WhitespaceLang.Flow

/-!
What instructions compute on, and what each of them does to it. Operands that an instruction has
taken stay taken when it fails. An instruction that reads does so before it takes the address.
-/

namespace WhitespaceLang

structure Data where
  stack : Stack
  heap : Heap
  device : Device

namespace Data

def new (device : Device) : Data := ⟨[], .empty, device⟩

def updateStack (d : Data) (a : Attempt Stack Failure Unit) : Except Failure Control × Data :=
  match a.outcome d.stack with
  | (.ok (), stack) => (.ok .next, { d with stack })
  | (.error e, stack) => (.error e, { d with stack })

/-- Stores what was read at the address on the stack. -/
def storeRead (d : Data) : Except Failure Int × Device → Except Failure Control × Data
  | (.error e, device) => (.error e, { d with device })
  | (.ok v, device) =>
      match d.stack with
      | address :: rest => (.ok .next, ⟨rest, d.heap.store address v, device⟩)
      | [] => (.error (.fault .underflow), { d with device })

/-- Prints the top of the stack. -/
def printTop (d : Data) (print : Int → Device → Except Failure Unit × Device) :
    Except Failure Control × Data :=
  match d.stack with
  | v :: rest =>
      match print v d.device with
      | (.ok (), device) => (.ok .next, ⟨rest, d.heap, device⟩)
      | (.error e, device) => (.error e, ⟨rest, d.heap, device⟩)
  | [] => (.error (.fault .underflow), d)

/-- Takes the top of the stack and jumps if it passes the test. -/
def jumpIf (d : Data) (test : Int → Bool) (l : Label) : Except Failure Control × Data :=
  match d.stack with
  | v :: rest => (.ok (if test v then .jump l else .next), { d with stack := rest })
  | [] => (.error (.fault .underflow), d)

def execute (i : Instr) (d : Data) : Except Failure Control × Data :=
  match i with
  | .push n => d.updateStack (OperandStack.push n)
  | .dup => d.updateStack OperandStack.dup
  | .copy n => d.updateStack (OperandStack.copy n)
  | .swap => d.updateStack OperandStack.swap
  | .discard =>
      match d.stack with
      | _ :: rest => (.ok .next, { d with stack := rest })
      | [] => (.error (.fault .underflow), d)
  | .slide n => d.updateStack (OperandStack.slide n)
  | .arith op =>
      match d.stack with
      | right :: left :: rest =>
          match op.apply left right with
          | some v => (.ok .next, { d with stack := v :: rest })
          | none => (.error (.fault (.divisionByZero op)), { d with stack := rest })
      | _ => (.error (.fault .underflow), { d with stack := [] })
  | .store =>
      match d.stack with
      | value :: address :: rest => (.ok .next, ⟨rest, d.heap.store address value, d.device⟩)
      | _ => (.error (.fault .underflow), { d with stack := [] })
  | .retrieve =>
      match d.stack with
      | address :: rest => (.ok .next, { d with stack := d.heap.retrieve address :: rest })
      | [] => (.error (.fault .underflow), d)
  | .mark _ => (.ok .next, d)
  | .call l => (.ok (.call l), d)
  | .jump l => (.ok (.jump l), d)
  | .jumpZero l => d.jumpIf (· == 0) l
  | .jumpNegative l => d.jumpIf (· < 0) l
  | .ret => (.ok .ret, d)
  | .exit => (.ok .exit, d)
  | .printChar => d.printTop Device.printChar
  | .printNumber => d.printTop Device.printNumber
  | .readChar => d.storeRead d.device.readChar
  | .readNumber => d.storeRead d.device.readNumber

end Data
end WhitespaceLang
