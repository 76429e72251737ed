import WhitespaceLang.Symbol

/-!
The instruction table: the code of every opcode and the kind of parameter that follows it. No code
is the beginning of another, so a program is cut into instructions in one way.
-/

namespace WhitespaceLang

/-- The kinds of parameter an instruction may carry. -/
inductive ParamKind where
  | number
  | label
  deriving DecidableEq, Repr

namespace ParamKind

def word : ParamKind → String
  | number => "number"
  | label => "label"

end ParamKind

inductive Opcode where
  | push | dup | copy | swap | discard | slide
  | add | sub | mul | div | mod
  | store | retrieve
  | mark | call | jump | jumpZero | jumpNegative | ret | exit
  | printChar | printNumber | readChar | readNumber
  deriving DecidableEq, Repr

namespace Opcode

def code : Opcode → List Symbol
  | push => [.space, .space]
  | dup => [.space, .feed, .space]
  | copy => [.space, .tab, .space]
  | swap => [.space, .feed, .tab]
  | discard => [.space, .feed, .feed]
  | slide => [.space, .tab, .feed]
  | add => [.tab, .space, .space, .space]
  | sub => [.tab, .space, .space, .tab]
  | mul => [.tab, .space, .space, .feed]
  | div => [.tab, .space, .tab, .space]
  | mod => [.tab, .space, .tab, .tab]
  | store => [.tab, .tab, .space]
  | retrieve => [.tab, .tab, .tab]
  | mark => [.feed, .space, .space]
  | call => [.feed, .space, .tab]
  | jump => [.feed, .space, .feed]
  | jumpZero => [.feed, .tab, .space]
  | jumpNegative => [.feed, .tab, .tab]
  | ret => [.feed, .tab, .feed]
  | exit => [.feed, .feed, .feed]
  | printChar => [.tab, .feed, .space, .space]
  | printNumber => [.tab, .feed, .space, .tab]
  | readChar => [.tab, .feed, .tab, .space]
  | readNumber => [.tab, .feed, .tab, .tab]

def param : Opcode → Option ParamKind
  | push | copy | slide => some .number
  | mark | call | jump | jumpZero | jumpNegative => some .label
  | _ => none

/-- The name of the opcode in the instruction table. -/
def name : Opcode → String
  | push => "PUSH" | dup => "DUP" | copy => "COPY" | swap => "SWAP"
  | discard => "DISCARD" | slide => "SLIDE"
  | add => "ADD" | sub => "SUB" | mul => "MUL" | div => "DIV" | mod => "MOD"
  | store => "STORE" | retrieve => "RETRIEVE"
  | mark => "MARK" | call => "CALL" | jump => "JUMP" | jumpZero => "JZ" | jumpNegative => "JN"
  | ret => "RETURN" | exit => "EXIT"
  | printChar => "PRINT_CHAR" | printNumber => "PRINT_NUM"
  | readChar => "READ_CHAR" | readNumber => "READ_NUM"

/-- The name of the opcode in a listing. -/
def mnemonic : Opcode → String
  | push => "push" | dup => "dup" | copy => "copy" | swap => "swap"
  | discard => "discard" | slide => "slide"
  | add => "add" | sub => "sub" | mul => "mul" | div => "div" | mod => "mod"
  | store => "store" | retrieve => "retrieve"
  | mark => "mark" | call => "call" | jump => "jump" | jumpZero => "jz" | jumpNegative => "jn"
  | ret => "ret" | exit => "exit"
  | printChar => "printc" | printNumber => "printn"
  | readChar => "readc" | readNumber => "readn"

/-- All opcodes in the order of the instruction table. -/
def all : List Opcode :=
  [push, dup, copy, swap, discard, slide, add, sub, mul, div, mod, store, retrieve,
    mark, call, jump, jumpZero, jumpNegative, ret, exit,
    printChar, printNumber, readChar, readNumber]

def ofCode? (w : List Symbol) : Option Opcode := all.find? fun op => op.code == w

/-- A name that no opcode has. -/
structure UnknownName where
  name : Text
  deriving DecidableEq, Repr

def UnknownName.message (e : UnknownName) : Text := "Bad instruction: " ++ e.name

def ofName (name : Text) : Except UnknownName Opcode :=
  match all.find? fun op => Text.ofString op.name == name with
  | some op => .ok op
  | none => .error ⟨name⟩

/-- Whether some opcode's code is longer than `w` and starts with it. -/
def isPartialCode (w : List Symbol) : Bool :=
  all.any fun op => w.isPrefixOf op.code && w != op.code

theorem mem_all (op : Opcode) : op ∈ all := by cases op <;> decide

@[simp] theorem ofCode?_code (op : Opcode) : ofCode? op.code = some op := by
  cases op <;> decide

@[simp] theorem ofName_name (op : Opcode) : ofName (op.name : Text) = .ok op := by
  cases op <;> rfl

/-- No code starts with another. -/
theorem eq_of_code_isPrefix {a b : Opcode} (h : a.code <+: b.code) : a = b := by
  revert h
  cases a <;> cases b <;> decide

end Opcode
end WhitespaceLang
