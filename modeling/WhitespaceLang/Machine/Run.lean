import WhitespaceLang.Machine
import WhitespaceLang.Flow.Load

/-!
Running a program until it stops. A run that fails reports its first fault, with the instruction it
happened at. The output is flushed however the run ends, except when a number was too long to be
converted, which breaks the run off as it stands.
-/

namespace WhitespaceLang

/-- What a run is seen to do from outside. -/
inductive Event where
  | loaded (instrs labels : Nat)
  | halted (ip : Nat)
  | failed (ip : Nat) (f : Fault)
  | flushFailed (f : Fault)
  deriving DecidableEq, Repr

namespace Event

def message : Event → Text
  | loaded instrs labels =>
      "loaded " ++ Decimal.natText instrs ++ " commands, " ++ Decimal.natText labels ++ " labels"
  | halted ip => "halted at instruction " ++ Decimal.natText ip
  | failed ip f => "failed at instruction " ++ Decimal.natText ip ++ ": " ++ f.message
  | flushFailed f => "flush after failure: " ++ f.message

end Event

def Flow.loadedEvent (f : Flow) : Event := .loaded f.program.size f.labels.length

/-- Why stepping stops. -/
inductive Stop where
  | ended
  | failed (e : Failure)
  deriving DecidableEq, Repr

inductive Ending where
  | finished
  | fault (ip : Nat) (f : Fault)
  | tooLong (e : Decimal.TooLong)
  deriving DecidableEq, Repr

structure Report where
  machine : Machine
  ending : Ending
  events : List Event

namespace Machine

/-- Steps until it stops, but at most `fuel` times. -/
def advance : (fuel : Nat) → Machine → Option Stop × Machine
  | 0, m => (none, m)
  | fuel + 1, m =>
      match m.step with
      | (.ok true, m) => advance fuel m
      | (.ok false, m) => (some .ended, m)
      | (.error e, m) => (some (.failed e), m)

def flush (m : Machine) : Except Fault Unit × Machine :=
  let (r, device) := m.data.device.flush
  (r, { m with data := { m.data with device } })

/-- Ends a run with a fault. A second fault, of the flush that follows, is only logged. -/
def fail (f : Fault) (m : Machine) : Report :=
  let ip := m.flow.ip
  let (r, m) := flush { m with flow := { m.flow with phase := .halted } }
  let more := match r with
    | .ok () => []
    | .error f => [.flushFailed f]
  ⟨m, .fault ip f, .failed ip f :: more⟩

/-- Ends a run that has stopped. -/
def close (stop : Stop) (m : Machine) : Report :=
  match stop with
  | .ended =>
      match m.flush with
      | (.ok (), m') => ⟨m', .finished, [.halted m.flow.ip]⟩
      | (.error f, m') =>
          let report := m'.fail f
          { report with events := .halted m.flow.ip :: report.events }
  | .failed (.fault f) => m.fail f
  | .failed (.tooLong e) => ⟨m, .tooLong e, []⟩

end Machine

/-- A machine about to run the program from its first instruction. -/
def Flow.launch (f : Flow) (device : Device) : Except ProgramError Machine := do
  return .new (← f.start) device

/-- Runs a program for at most `fuel` steps; no report if that is not enough. -/
def Flow.run (fuel : Nat) (f : Flow) (device : Device) : Except ProgramError (Option Report) := do
  let m ← f.launch device
  match m.advance fuel with
  | (some stop, m) => return some (m.close stop)
  | (none, _) => return none

/-- Adds an error message to what a program has printed. -/
def withError (out message : Text) : Text := out ++ "\n Error: " ++ message

/-- The output of a program text over an input text, with the message of the error that ends it, if
one does. -/
def interpret (fuel : Nat) (source stdin : Text) : Option (Except Decimal.TooLong Text) :=
  match Flow.load source with
  | .error e => some (.ok (withError [] e.message))
  | .ok f =>
      match f.run fuel (.ofText stdin) with
      | .error e => some (.ok (withError [] e.message))
      | .ok none => none
      | .ok (some report) =>
          let out := report.machine.data.device.output.text
          some <| match report.ending with
            | .finished => .ok out
            | .fault _ f => .ok (withError out f.message)
            | .tooLong e => .error e

end WhitespaceLang
