import WhitespaceLang.CommandLine

/-!
The executable: hands the arguments, the files and standard input to the command line and writes
what it says.
-/

namespace WhitespaceLang
namespace CommandLine

def fileErrorOf : IO.Error → FileError
  | .permissionDenied .. => .denied
  | .inappropriateType _ code _ => if code = 21 then .isADirectory else .notADirectory
  | .invalidArgument .. => .nameTooLong
  | _ => .missing

/-- Everything that is left of a stream. -/
partial def readAll (s : IO.FS.Stream) (seen : ByteArray) : IO ByteArray := do
  let more ← s.read 65536
  if more.isEmpty then return seen else readAll s (seen ++ more)

/-- The file with a name, if there is one. -/
def readNamedFile (name : Text) : IO FileReader := do
  match name.toString? with
  | none => return fun _ => .error .missing
  | some name =>
      try
        let bytes ← IO.FS.readBinFile name
        return fun _ => .ok bytes.toList
      catch e => return fun _ => .error (fileErrorOf e)

/-- What the arguments give to read: a file, and standard input. -/
def gather (args : List Text) : IO (FileReader × List UInt8) := do
  match parse args with
  | .error _ => return (fun _ => .error .missing, [])
  | .ok settings =>
      let read ← readNamedFile (settings.program.getD [])
      let stdin ← if settings.readsStdin then readAll (← IO.getStdin) .empty else pure .empty
      return (read, stdin.toList)

partial def untilDone [Inhabited α] (f : Nat → Option α) (fuel : Nat) : α :=
  match f fuel with
  | some a => a
  | none => untilDone f (4 * fuel)

instance : Inhabited Outcome := ⟨⟨.returned 0, [], []⟩⟩

def writeBytes (s : IO.FS.Stream) (bytes : List UInt8) : IO Unit := do
  s.write ⟨bytes.toArray⟩
  s.flush

def writeError (t : Text) : IO Unit := do
  writeBytes (← IO.getStderr) (Utf8.encode t)

end CommandLine
end WhitespaceLang

open WhitespaceLang CommandLine in
def main (args : List String) : IO UInt32 := do
  let args := args.map Text.ofString
  let (read, stdin) ← gather args
  let outcome := untilDone (CommandLine.run · args read stdin) 65536
  writeBytes (← IO.getStdout) outcome.stdoutBytes
  writeError outcome.stderr
  match outcome.exit with
  | .returned code | .arguments code => return code.toUInt32
  | .escaped e =>
      writeError (errorLine e.message)
      return 1
