import WhitespaceLang.Text.Digit
import WhitespaceLang.Text.Quoted

/-!
The arguments of the command line. A long option may be abbreviated as far as it stays unambiguous,
and takes a value behind an equals sign. Short options may share a dash. Behind `--` nothing is an
option, and neither are negative numbers or words with a space.
-/

namespace WhitespaceLang
namespace CommandLine

inductive Flag where
  | help
  | pseudo
  | encoding
  | test
  | verbose
  deriving DecidableEq, Repr

namespace Flag

def all : List Flag := [help, pseudo, encoding, test, verbose]

def long : Flag → Text
  | help => "--help"
  | pseudo => "--pseudo"
  | encoding => "--encoding"
  | test => "--test"
  | verbose => "--verbose"

/-- The letter of the short option, for a flag that has one. -/
def short : Flag → Option CodePoint
  | help => some (.ofChar 'h')
  | verbose => some (.ofChar 'v')
  | _ => none

def takesValue : Flag → Bool
  | encoding => true
  | _ => false

def ofShort? (c : CodePoint) : Option Flag := all.find? fun f => f.short == some c

/-- The flag as error messages name it. -/
def name (f : Flag) : Text :=
  match f.short with
  | some c => [.ofChar '-', c] ++ "/" ++ f.long
  | none => f.long

end Flag

/-- What the arguments ask for. -/
structure Settings where
  program : Option Text
  pseudo : Bool
  encoding : Text
  test : Bool
  verbose : Bool
  deriving DecidableEq, Repr

def Settings.default : Settings := ⟨none, false, "utf-8", false, false⟩

/-- Whether standard input is looked at, for the program itself or for what it reads. -/
def Settings.readsStdin (s : Settings) : Bool := !s.test && (s.program == some "-" || !s.pseudo)

/-- Arguments that lead to no run. -/
inductive Refusal where
  | help
  | usage (message : Text)
  deriving DecidableEq, Repr

inductive Word where
  | operand (t : Text)
  | separator
  | long (f : Flag) (value : Option Text)
  /-- A letter behind one dash, with what follows it in the word. -/
  | short (f : Flag) (attached : Option Text)
  | unknown (t : Text)
  deriving DecidableEq, Repr

def dash : CodePoint := .ofChar '-'

def equalsSign : CodePoint := .ofChar '='

/-- The text before the first equals sign, and the text behind it if there is one. -/
def splitEquals (t : Text) : Text × Option Text :=
  match t.dropWhile (· != equalsSign) with
  | [] => (t, none)
  | _ :: value => (t.takeWhile (· != equalsSign), some value)

/-- One digit or more, a line feed allowed behind them. -/
def isDigits (t : Text) : Bool :=
  let rest := t.dropWhile (·.isDecimalDigit)
  t.length != rest.length && (rest == [] || rest == "\n")

/-- A dash and digits, of which a point may go before the last. -/
def looksNegative : Text → Bool
  | [] => false
  | c :: t =>
      c == dash &&
        (isDigits t ||
          match t.dropWhile (·.isDecimalDigit) with
          | [] => false
          | p :: fraction => p == .ofChar '.' && isDigits fraction)

/-- What is attached to a letter. An equals sign in front does not belong to it. -/
def attachedTo (rest : Text) : Option Text :=
  match rest with
  | [] => none
  | c :: value => some (if c = equalsSign then value else rest)

/-- A word that starts with a dash and is no option. -/
def notAnOption (t : Text) : Word :=
  if looksNegative t || t.contains (.ofChar ' ') then .operand t else .unknown t

/-- Reads a word by itself. -/
def classify (t : Text) : Except Refusal Word :=
  match t with
  | [] => .ok (.operand t)
  | [_] => .ok (.operand t)
  | c :: d :: rest =>
      if c ≠ dash then .ok (.operand t)
      else if d = dash then
        let (start, value) := splitEquals t
        match Flag.all.filter fun f => start.isPrefixOf f.long with
        | [] => .ok (notAnOption t)
        | [f] => .ok (.long f value)
        | fs =>
            .error (.usage ("ambiguous option: " ++ t ++ " could match " ++
              Text.join ", " (fs.map Flag.long)))
      else
        match Flag.ofShort? d with
        | some f => .ok (.short f (attachedTo rest))
        | none => .ok (notAnOption t)

def isSeparator (t : Text) : Bool := t == "--"

/-- Reads the words before the separator; those behind it are operands. -/
def classifyAll (args : List Text) : Except Refusal (List Word) := do
  let words ← (args.takeWhile (!isSeparator ·)).mapM classify
  match args.dropWhile (!isSeparator ·) with
  | [] => return words
  | _ :: rest => return words ++ .separator :: rest.map .operand

def ignored (f : Flag) (value : Text) : Refusal :=
  .usage ("argument " ++ f.name ++ ": ignored explicit argument " ++ value.quoted)

/-- The flags that share a dash. A letter that is none makes the word an error of the flag before
it. -/
def unpack (f : Flag) : Option Text → Except Refusal (List Flag)
  | none => .ok [f]
  | some [] => .error (ignored f [])
  | some (c :: rest) =>
      match Flag.ofShort? c with
      | none => .error (ignored f (c :: rest))
      | some g => (unpack g (if rest = [] then none else some rest)).map (f :: ·)
termination_by attached => (attached.map List.length).getD 0
decreasing_by
  split <;> simp only [Option.map_some, Option.map_none, Option.getD_some, Option.getD_none,
    List.length_cons] <;> omega

/-- What has been read so far. -/
structure Progress where
  settings : Settings
  /-- Words that nothing asks for, last first. -/
  extras : List Text

namespace Progress

def start : Progress := ⟨.default, []⟩

def extra (t : Text) (p : Progress) : Progress := { p with extras := t :: p.extras }

def program (t : Text) (p : Progress) : Progress :=
  { p with settings := { p.settings with program := some t } }

def encoding (name : Text) (p : Progress) : Progress :=
  { p with settings := { p.settings with encoding := name } }

/-- Turns on a flag that takes no value. -/
def switch (f : Flag) (p : Progress) : Except Refusal Progress :=
  match f with
  | .help => .error .help
  | .pseudo => .ok { p with settings := { p.settings with pseudo := true } }
  | .test => .ok { p with settings := { p.settings with test := true } }
  | .verbose => .ok { p with settings := { p.settings with verbose := true } }
  | .encoding => .ok p

end Progress

/-- Takes the words in order. The first operand is the program. A separator next to it is dropped,
and anywhere else behind it counts as one word too many. -/
def takeWords : List Word → Progress → Except Refusal Progress
  | [], p => .ok p
  | .operand t :: rest, p =>
      if p.settings.program.isSome then takeWords rest (p.extra t)
      else
        match rest with
        | .separator :: rest => takeWords rest (p.program t)
        | rest => takeWords rest (p.program t)
  | .separator :: rest, p =>
      if p.settings.program.isSome then takeWords rest (p.extra "--") else takeWords rest p
  | .unknown t :: rest, p => takeWords rest (p.extra t)
  | .short f attached :: rest, p => do
      let p ← (← unpack f attached).foldlM (fun p f => p.switch f) p
      takeWords rest p
  | .long f value :: rest, p =>
      if f.takesValue then
        match value, rest with
        | some v, rest => takeWords rest (p.encoding v)
        | none, .operand v :: rest => takeWords rest (p.encoding v)
        | none, _ => .error (.usage ("argument " ++ f.name ++ ": expected one argument"))
      else
        match value with
        | some v => .error (ignored f v)
        | none => do takeWords rest (← p.switch f)

/-- Reads the whole command line. -/
def parse (args : List Text) : Except Refusal Settings := do
  let p ← takeWords (← classifyAll args) .start
  if p.extras = [] then return p.settings
  else throw (.usage ("unrecognized arguments: " ++ Text.join " " p.extras.reverse))

end CommandLine
end WhitespaceLang
