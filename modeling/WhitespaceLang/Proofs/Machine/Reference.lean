import WhitespaceLang.Device.Input
import WhitespaceLang.Proofs.Device.Reading
import WhitespaceLang.Proofs.Machine.Operands
import Mathlib.Logic.Function.Basic

/-!
A reference machine for Whitespace, in the terms in which the language is explained. The heap is a
total function, a jump goes to the position of a mark, and each instruction is a rule. Where no rule
applies the machine is stuck.
-/

namespace WhitespaceLang
namespace Reference

/-- What the instructions compute on. The top of the stack comes first. -/
structure Store where
  stack : List Int
  heap : Int → Int
  input : Text
  output : Text

/-- The innermost return address comes first. -/
structure State where
  ip : Nat
  calls : List Nat
  store : Store

def State.initial (input : Text) : State := ⟨0, [], ⟨[], fun _ => 0, input, []⟩⟩

/-- What an instruction does that leaves control to the one behind it. -/
inductive Operates : Instr → Store → Store → Prop
  | push {n s h i o} : Operates (.push n) ⟨s, h, i, o⟩ ⟨n :: s, h, i, o⟩
  | dup {st st'} (hcopy : Operates (.copy 0) st st') : Operates .dup st st'
  | copy {n v above below h i o} (hn : (List.length above : Int) = n) :
      Operates (.copy n) ⟨above ++ v :: below, h, i, o⟩ ⟨v :: (above ++ v :: below), h, i, o⟩
  | swap {a b s h i o} : Operates .swap ⟨a :: b :: s, h, i, o⟩ ⟨b :: a :: s, h, i, o⟩
  | discard {a s h i o} : Operates .discard ⟨a :: s, h, i, o⟩ ⟨s, h, i, o⟩
  | slide {n top under s h i o} (hn : (List.length under : Int) = n) :
      Operates (.slide n) ⟨top :: (under ++ s), h, i, o⟩ ⟨top :: s, h, i, o⟩
  | add {left right s h i o} :
      Operates (.arith .add) ⟨right :: left :: s, h, i, o⟩ ⟨(left + right) :: s, h, i, o⟩
  | sub {left right s h i o} :
      Operates (.arith .sub) ⟨right :: left :: s, h, i, o⟩ ⟨(left - right) :: s, h, i, o⟩
  | mul {left right s h i o} :
      Operates (.arith .mul) ⟨right :: left :: s, h, i, o⟩ ⟨(left * right) :: s, h, i, o⟩
  | div {left right q r s h i o} (hd : Arith.Divides left right q r) :
      Operates (.arith .div) ⟨right :: left :: s, h, i, o⟩ ⟨q :: s, h, i, o⟩
  | mod {left right q r s h i o} (hd : Arith.Divides left right q r) :
      Operates (.arith .mod) ⟨right :: left :: s, h, i, o⟩ ⟨r :: s, h, i, o⟩
  | store {value address s h i o} :
      Operates .store ⟨value :: address :: s, h, i, o⟩ ⟨s, Function.update h address value, i, o⟩
  | retrieve {address s h i o} :
      Operates .retrieve ⟨address :: s, h, i, o⟩ ⟨h address :: s, h, i, o⟩
  | mark {l st} : Operates (.mark l) st st
  | printChar {s h i o} (c : CodePoint) :
      Operates .printChar ⟨(c.val : Int) :: s, h, i, o⟩ ⟨s, h, i, o ++ [c]⟩
  | printNumber {v s h i o} (hv : Decimal.Fits v) :
      Operates .printNumber ⟨v :: s, h, i, o⟩ ⟨s, h, i, o ++ Decimal.text v⟩
  | readChar {address s h i o} (c : CodePoint) :
      Operates .readChar ⟨address :: s, h, c :: i, o⟩ ⟨s, Function.update h address c.val, i, o⟩
  | readEnd {address s h o} :
      Operates .readChar ⟨address :: s, h, [], o⟩ ⟨s, Function.update h address (-1), [], o⟩
  | readNumber {address n s h i rest o} (hr : Text.ReadsNumber i n rest) :
      Operates .readNumber ⟨address :: s, h, i, o⟩ ⟨s, Function.update h address n, rest, o⟩

/-- One step of a program. -/
inductive Step (program : Array Instr) : State → State → Prop
  | operate {instr ip calls st st'} (hi : program[ip]? = some instr)
      (ho : Operates instr st st') : Step program ⟨ip, calls, st⟩ ⟨ip + 1, calls, st'⟩
  | call {l p ip calls st} (hi : program[ip]? = some (.call l))
      (hp : program[p]? = some (.mark l)) :
      Step program ⟨ip, calls, st⟩ ⟨p, (ip + 1) :: calls, st⟩
  | jump {l p ip calls st} (hi : program[ip]? = some (.jump l))
      (hp : program[p]? = some (.mark l)) : Step program ⟨ip, calls, st⟩ ⟨p, calls, st⟩
  | jumpZero {l p ip calls s h i o} (hi : program[ip]? = some (.jumpZero l))
      (hp : program[p]? = some (.mark l)) :
      Step program ⟨ip, calls, ⟨0 :: s, h, i, o⟩⟩ ⟨p, calls, ⟨s, h, i, o⟩⟩
  | passZero {l v ip calls s h i o} (hi : program[ip]? = some (.jumpZero l)) (hv : v ≠ 0) :
      Step program ⟨ip, calls, ⟨v :: s, h, i, o⟩⟩ ⟨ip + 1, calls, ⟨s, h, i, o⟩⟩
  | jumpNegative {l p v ip calls s h i o} (hi : program[ip]? = some (.jumpNegative l))
      (hp : program[p]? = some (.mark l)) (hv : v < 0) :
      Step program ⟨ip, calls, ⟨v :: s, h, i, o⟩⟩ ⟨p, calls, ⟨s, h, i, o⟩⟩
  | passNegative {l v ip calls s h i o} (hi : program[ip]? = some (.jumpNegative l))
      (hv : 0 ≤ v) : Step program ⟨ip, calls, ⟨v :: s, h, i, o⟩⟩ ⟨ip + 1, calls, ⟨s, h, i, o⟩⟩
  | ret {r ip calls st} (hi : program[ip]? = some .ret) :
      Step program ⟨ip, r :: calls, st⟩ ⟨r, calls, st⟩
  | exit {ip calls st} (hi : program[ip]? = some .exit) :
      Step program ⟨ip, calls, st⟩ ⟨program.size, calls, st⟩

/-- As many steps as the number says. -/
inductive Steps (program : Array Instr) : Nat → State → State → Prop
  | zero {a} : Steps program 0 a a
  | succ {k a b c} (h : Step program a b) (rest : Steps program k b c) :
      Steps program (k + 1) a c

end Reference
end WhitespaceLang
