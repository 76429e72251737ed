import WhitespaceLang.Bytes.Encoding
import WhitespaceLang.CommandLine.Arguments
import WhitespaceLang.CommandLine.FileTree
import WhitespaceLang.Instr.Listing
import WhitespaceLang.SelfTest

/-!
The command line: reads a program from a file or from standard input and runs it or lists it.
-/

namespace WhitespaceLang
namespace CommandLine

/-- What breaks the program off without a report of its own. -/
inductive Escape where
  | tooLong (e : Decimal.TooLong)
  | unknownEncoding (name : Text)
  | nulInName
  deriving DecidableEq, Repr

namespace Escape

def message : Escape → Text
  | tooLong e => e.message
  | unknownEncoding name => "unknown encoding: " ++ name
  | nulInName => "embedded null byte"

end Escape

inductive Exit where
  | returned (code : Nat)
  /-- The arguments end the program before it starts. -/
  | arguments (code : Nat)
  | escaped (e : Escape)
  deriving DecidableEq, Repr

structure Outcome where
  exit : Exit
  stdout : Text
  stderr : Text
  deriving DecidableEq, Repr

/-- Standard output as it leaves the program. -/
def Outcome.stdoutBytes (o : Outcome) : List UInt8 := Utf8.encode o.stdout

def usage : Text :=
  "usage: whitespace [-h] [--pseudo] [--encoding ENCODING] [--test] [-v]\n" ++
    "                  [program]\n"

def helpText : Text :=
  usage ++ Text.unlines
    ["",
      "Run a Whitespace program.",
      "",
      "positional arguments:",
      "  program              source file, or '-' to read it from standard input",
      "",
      "options:",
      "  -h, --help           show this help message and exit",
      "  --pseudo             print a pseudo-code listing instead of running",
      "  --encoding ENCODING  source file encoding",
      "  --test               run the built-in test table",
      "  -v, --verbose        log load and run events"]

def usageError (message : Text) : Outcome :=
  ⟨.arguments 2, [], usage ++ "whitespace: error: " ++ message ++ "\n"⟩

def Refusal.outcome : Refusal → Outcome
  | help => ⟨.arguments 0, helpText, []⟩
  | usage message => usageError message

def errorLine (message : Text) : Text := "Error: " ++ message ++ "\n"

/-- The log lines of events, if they are asked for. -/
def logLines (verbose : Bool) (events : List Event) : Text :=
  if verbose then events.flatMap fun e => "whitespace: " ++ e.message ++ "\n" else []

/-- A program text and the input that is left for it, or what ends the program instead. -/
inductive Source where
  | text (t : Text) (input : Input)
  | error (message : Text)
  | escape (e : Escape)

/-- Whether a surrogate stands for a byte that is no character in a file name. -/
def standsForByte (c : CodePoint) : Bool := 0xDC80 ≤ c.val && c.val ≤ 0xDCFF

def readFile (settings : Settings) (name : Text) (read : FileReader) (stdin : List UInt8) :
    Source :=
  match Utf8.refusalFrom (fun c => c.isSurrogate && !standsForByte c) name with
  | some why => .error why
  | none =>
      if name.contains (.ofNat 0) then .escape .nulInName
      else
        match read name with
        | .error e => .error (e.message name)
        | .ok bytes =>
            match Encoding.ofName? settings.encoding with
            | none => .escape (.unknownEncoding settings.encoding)
            | some encoding =>
                match encoding.decodeReplacing bytes with
                | .ok t => .text t (.ofBytes stdin)
                | .error why => .error why

/-- All of standard input is the program, so the program itself finds it at its end. -/
def readStdin (stdin : List UInt8) : Source :=
  match Utf8.decode stdin with
  | (t, none) => .text t.unifyLineEnds (.ofText [])
  | (_, some e) => .error e.message

def readSource (settings : Settings) (name : Text) (read : FileReader) (stdin : List UInt8) :
    Source :=
  if name = "-" then readStdin stdin else readFile settings name read stdin

def listText (t : Text) : Outcome :=
  match Listing.ofText t with
  | (out, none) => ⟨.returned 0, out, []⟩
  | (out, some (.source e)) => ⟨.returned 1, out, errorLine e.message⟩
  | (out, some (.tooLong e)) => ⟨.escaped (.tooLong e), out, []⟩

/-- The outcome of a run that has come to its end. -/
def reportOutcome (verbose : Bool) (loaded : Event) (r : Report) : Outcome :=
  let out := r.machine.data.device.output.text
  let log := logLines verbose (loaded :: r.events)
  match r.ending with
  | .finished => ⟨.returned 0, out, log⟩
  | .fault _ f => ⟨.returned 1, out, log ++ errorLine f.message⟩
  | .tooLong e => ⟨.escaped (.tooLong e), out, log⟩

def runText (fuel : Nat) (verbose : Bool) (t : Text) (input : Input) : Option Outcome :=
  match Flow.load t with
  | .error e => some ⟨.returned 1, [], errorLine e.message⟩
  | .ok f =>
      match f.run fuel ⟨input, .encoded⟩ with
      | .error e =>
          some ⟨.returned 1, [], logLines verbose [f.loadedEvent] ++ errorLine e.message⟩
      | .ok none => none
      | .ok (some report) => some (reportOutcome verbose f.loadedEvent report)

def selfTest (verbose : Bool) : Outcome :=
  ⟨.returned (if SelfTest.allPass then 0 else 1), SelfTest.summary,
    logLines verbose SelfTest.events⟩

/-- The outcome, if a program that has to be run takes at most `fuel` steps. -/
def run (fuel : Nat) (args : List Text) (read : FileReader) (stdin : List UInt8) :
    Option Outcome :=
  match parse args with
  | .error refusal => some refusal.outcome
  | .ok settings =>
      if settings.test then some (selfTest settings.verbose)
      else
        match settings.program.getD [] with
        | [] => some (usageError "a program file is required")
        | name =>
            match readSource settings name read stdin with
            | .error message => some ⟨.returned 1, [], errorLine message⟩
            | .escape e => some ⟨.escaped e, [], []⟩
            | .text t input =>
                if settings.pseudo then some (listText t)
                else runText fuel settings.verbose t input

end CommandLine
end WhitespaceLang
