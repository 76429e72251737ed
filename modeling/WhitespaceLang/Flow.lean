import WhitespaceLang.Attempt
import WhitespaceLang.Fault

/-!
The flow of control: the instructions of a program, where its labels are, the instruction pointer
and the return addresses. All instructions are added before the first one runs, so a jump may go
forwards as well as backwards.
-/

namespace WhitespaceLang

inductive Phase where
  | loading
  | ready
  | running
  | halted
  deriving DecidableEq, Repr

namespace Phase

def word : Phase → String
  | loading => "loading"
  | ready => "ready"
  | running => "running"
  | halted => "halted"

end Phase

/-- A misuse of a program that is being put together. -/
inductive ProgramError where
  | alreadyLoaded
  | stillLoading
  | duplicateLabel (l : Label)
  deriving DecidableEq, Repr

namespace ProgramError

def message : ProgramError → Text
  | alreadyLoaded => "Program is already loaded"
  | stillLoading => "Program is still loading"
  | duplicateLabel l => "Label " ++ l.quoted ++ " defined twice"

end ProgramError

/-- Where control goes after an instruction. -/
inductive Control where
  | next
  | jump (l : Label)
  | call (l : Label)
  | ret
  | exit
  deriving DecidableEq, Repr

structure Flow where
  program : Array Instr
  /-- The marks in the order of their definition, each with its position. -/
  labels : List (Label × Nat)
  phase : Phase
  ip : Nat
  /-- The return addresses, innermost call first. -/
  calls : List Nat
  /-- Whether control was transferred after the last step began. -/
  moved : Bool
  deriving DecidableEq, Repr

def Flow.empty : Flow := ⟨#[], [], .loading, 0, [], false⟩

namespace FlowControl

/-- Enters a mark in the label table. -/
def enter : Instr → Attempt Flow ProgramError Unit
  | .mark l => do
      Attempt.require (·.labels.lookup l = none) (.duplicateLabel l)
      modify fun f => { f with labels := f.labels ++ [(l, f.program.size)] }
  | _ => pure ()

def add (i : Instr) : Attempt Flow ProgramError Unit := do
  Attempt.require (·.phase = .loading) .alreadyLoaded
  enter i
  modify fun f => { f with program := f.program.push i }

/-- Goes back to the first instruction and forgets all calls. -/
def start : Attempt Flow ProgramError Unit := do
  Attempt.require (·.phase ≠ .loading) .stillLoading
  modify fun f => { f with ip := 0, calls := [], phase := .running }

def target (l : Label) : Attempt Flow Fault Nat := do
  match (← get).labels.lookup l with
  | some position => pure position
  | none => throw (.undefinedLabel l)

def jump (l : Label) : Attempt Flow Fault Unit := do
  let position ← target l
  modify fun f => { f with ip := position, moved := true }

def call (l : Label) : Attempt Flow Fault Unit := do
  let position ← target l
  modify fun f => { f with calls := (f.ip + 1) :: f.calls }
  modify fun f => { f with ip := position, moved := true }

def ret : Attempt Flow Fault Unit := do
  match (← get).calls with
  | position :: rest => modify fun f => { f with ip := position, calls := rest, moved := true }
  | [] => throw .returnOutside

def exit : Attempt Flow Fault Unit := modify fun f => { f with ip := f.program.size, moved := true }

/-- Carries out a transfer of control. Going on to the next instruction is none. -/
def transfer : Control → Attempt Flow Fault Unit
  | .next => pure ()
  | .jump l => jump l
  | .call l => call l
  | .ret => ret
  | .exit => exit

end FlowControl

namespace Flow

def add (i : Instr) (f : Flow) : Except ProgramError Flow := (FlowControl.add i).made f

/-- Adds instructions up to the first that is refused. -/
def addAll (is : List Instr) (f : Flow) : Except ProgramError Flow :=
  is.foldlM (fun f i => f.add i) f

def finish (f : Flow) : Flow := { f with phase := .ready }

def start (f : Flow) : Except ProgramError Flow := FlowControl.start.made f

def transfer (c : Control) (f : Flow) : Except Fault Flow := (FlowControl.transfer c).made f

def unmoved (f : Flow) : Flow := { f with moved := false }

/-- The instruction to run now, before which control counts as not transferred. A running program
that has none left halts. -/
def poll (f : Flow) : Option Instr × Flow :=
  if f.phase = .running then
    match f.program[f.ip]? with
    | some i => (some i, f.unmoved)
    | none => (none, { f with phase := .halted })
  else (none, f)

/-- Goes on to the next instruction, unless control was transferred. -/
def pass (f : Flow) : Flow := if f.moved then f else { f with ip := f.ip + 1 }

section Next

variable {σ ε : Type}

/-- Runs the instruction at the pointer, if one is left, and passes on behind it. What runs it may
transfer control; the flow is part of what it works on. -/
def next (flow : σ → Flow) (withFlow : Flow → σ → σ) (execute : Instr → σ → Except ε Unit × σ)
    (s : σ) : Except ε Bool × σ :=
  match (flow s).poll with
  | (none, f) => (.ok false, withFlow f s)
  | (some i, f) =>
      match execute i (withFlow f s) with
      | (.ok (), s) => (.ok true, withFlow (flow s).pass s)
      | (.error e, s) => (.error e, s)

end Next

/-- A step at which the instruction at the pointer is answered by `react`, and nothing else runs. -/
def step (react : Instr → Control) (f : Flow) : Except Fault Bool × Flow :=
  next id (fun f _ => f) (fun i => (FlowControl.transfer (react i)).outcome) f

end Flow
end WhitespaceLang
