import WhitespaceLang.Opcode
import WhitespaceLang.Label

/-!
Instructions. The five binary operations share a constructor; every other opcode has its own. The
types of numbers and labels are parameters, because cutting a program into instructions does not
look into either.
-/

namespace WhitespaceLang

inductive Arith where
  | add | sub | mul | div | mod
  deriving DecidableEq, Repr

namespace Arith

def opcode : Arith → Opcode
  | add => .add
  | sub => .sub
  | mul => .mul
  | div => .div
  | mod => .mod

/-- Division rounds down, and the remainder has the sign of the divisor. Neither is defined for the
divisor 0. -/
def apply : Arith → (left right : Int) → Option Int
  | add, a, b => some (a + b)
  | sub, a, b => some (a - b)
  | mul, a, b => some (a * b)
  | div, a, b => if b = 0 then none else some (a.fdiv b)
  | mod, a, b => if b = 0 then none else some (a.fmod b)

end Arith

inductive InstrOf (ν κ : Type) where
  | push (n : ν)
  | dup
  | copy (n : ν)
  | swap
  | discard
  | slide (n : ν)
  | arith (op : Arith)
  | store
  | retrieve
  | mark (l : κ)
  | call (l : κ)
  | jump (l : κ)
  | jumpZero (l : κ)
  | jumpNegative (l : κ)
  | ret
  | exit
  | printChar
  | printNumber
  | readChar
  | readNumber
  deriving DecidableEq, Repr

abbrev Instr := InstrOf Int Label

/-- An opcode needs no parameter, or makes an instruction of one. -/
inductive Completion (ν κ : Type) where
  | whole (i : InstrOf ν κ)
  | number (f : ν → InstrOf ν κ)
  | label (f : κ → InstrOf ν κ)

namespace Completion

variable {ν κ : Type}

def param : Completion ν κ → Option ParamKind
  | whole _ => none
  | number _ => some .number
  | label _ => some .label

end Completion

def Opcode.completion {ν κ : Type} : Opcode → Completion ν κ
  | push => .number .push
  | dup => .whole .dup
  | copy => .number .copy
  | swap => .whole .swap
  | discard => .whole .discard
  | slide => .number .slide
  | add => .whole (.arith .add)
  | sub => .whole (.arith .sub)
  | mul => .whole (.arith .mul)
  | div => .whole (.arith .div)
  | mod => .whole (.arith .mod)
  | store => .whole .store
  | retrieve => .whole .retrieve
  | mark => .label .mark
  | call => .label .call
  | jump => .label .jump
  | jumpZero => .label .jumpZero
  | jumpNegative => .label .jumpNegative
  | ret => .whole .ret
  | exit => .whole .exit
  | printChar => .whole .printChar
  | printNumber => .whole .printNumber
  | readChar => .whole .readChar
  | readNumber => .whole .readNumber

theorem Opcode.param_completion {ν κ : Type} (op : Opcode) :
    (op.completion : Completion ν κ).param = op.param := by
  cases op <;> rfl

namespace InstrOf

variable {ν κ : Type}

def opcode : InstrOf ν κ → Opcode
  | push _ => .push
  | dup => .dup
  | copy _ => .copy
  | swap => .swap
  | discard => .discard
  | slide _ => .slide
  | arith op => op.opcode
  | store => .store
  | retrieve => .retrieve
  | mark _ => .mark
  | call _ => .call
  | jump _ => .jump
  | jumpZero _ => .jumpZero
  | jumpNegative _ => .jumpNegative
  | ret => .ret
  | exit => .exit
  | printChar => .printChar
  | printNumber => .printNumber
  | readChar => .readChar
  | readNumber => .readNumber

def number? : InstrOf ν κ → Option ν
  | push n | copy n | slide n => some n
  | _ => none

def label? : InstrOf ν κ → Option κ
  | mark l | call l | jump l | jumpZero l | jumpNegative l => some l
  | _ => none

/-- Copies the item at a depth; with no depth given the top, which has an opcode of its own. -/
def copyAt : Option ν → InstrOf ν κ
  | none => dup
  | some n => copy n

/-- Reads a copy whose depth was left unset as a copy of the top. -/
def settled : InstrOf (Option ν) κ → InstrOf (Option ν) κ
  | copy n => copyAt (n.map some)
  | i => i

/-- The same instruction over renamed labels. -/
def relabel {κ' : Type} (ρ : κ → κ') : InstrOf ν κ → InstrOf ν κ'
  | push n => push n
  | dup => dup
  | copy n => copy n
  | swap => swap
  | discard => discard
  | slide n => slide n
  | arith op => arith op
  | store => store
  | retrieve => retrieve
  | mark l => mark (ρ l)
  | call l => call (ρ l)
  | jump l => jump (ρ l)
  | jumpZero l => jumpZero (ρ l)
  | jumpNegative l => jumpNegative (ρ l)
  | ret => ret
  | exit => exit
  | printChar => printChar
  | printNumber => printNumber
  | readChar => readChar
  | readNumber => readNumber

end InstrOf
end WhitespaceLang
