import WhitespaceLang.Bytes.Utf8

/-!
Files by name. A name is walked part by part from the current directory; only what lies in or below
that directory is known, and above it only that there are directories.
-/

namespace WhitespaceLang
namespace CommandLine

inductive FileError where
  | missing
  | denied
  | notADirectory
  | isADirectory
  | nameTooLong
  deriving DecidableEq, Repr

namespace FileError

def number : FileError → Nat
  | missing => 2
  | denied => 13
  | notADirectory => 20
  | isADirectory => 21
  | nameTooLong => 36

def description : FileError → Text
  | missing => "No such file or directory"
  | denied => "Permission denied"
  | notADirectory => "Not a directory"
  | isADirectory => "Is a directory"
  | nameTooLong => "File name too long"

def message (name : Text) (e : FileError) : Text :=
  "[Errno " ++ Decimal.natText e.number ++ "] " ++ e.description ++ ": " ++ name.quoted

end FileError

/-- Gives the bytes of the file with a name. -/
abbrev FileReader := Text → Except FileError (List UInt8)

/-- A path below the current directory, as the names on the way. -/
abbrev Path := List Text

def slash : CodePoint := .ofChar '/'

/-- The parts of a name between slashes. Empty parts at the end say that a directory is meant. -/
def parts (name : Text) : Path :=
  name.foldr (fun c ps =>
    if c = slash then [] :: ps
    else
      match ps with
      | [] => [[c]]
      | p :: rest => (c :: p) :: rest) [[]]

structure FileTree where
  files : List (Path × List UInt8)
  dirs : List Path
  deriving DecidableEq, Repr

inductive Place where
  | dir (path : Path)
  /-- Somewhere outside the current directory. -/
  | outside
  | file (bytes : List UInt8)
  deriving DecidableEq, Repr

namespace FileTree

def ofNames (files : List (Text × List UInt8)) (dirs : List Text) : FileTree :=
  ⟨files.map fun (name, bytes) => (parts name, bytes), dirs.map parts⟩

/-- A directory is one that is listed, or that holds something. -/
def isDir (t : FileTree) (path : Path) : Bool :=
  (t.dirs ++ t.files.map (·.1)).any fun p => path.isPrefixOf p && (t.files.lookup path).isNone

def child (t : FileTree) (dir : Path) (part : Text) : Except FileError Place :=
  let path := dir ++ [part]
  match t.files.lookup path with
  | some bytes => .ok (.file bytes)
  | none => if t.isDir path then .ok (.dir path) else .error .missing

def walk (t : FileTree) : Path → Place → Except FileError Place
  | [], place => .ok place
  | part :: rest, place =>
      match place with
      | .file _ => .error .notADirectory
      | .outside =>
          if part = [] ∨ part = ".." ∨ part = "." then t.walk rest .outside
          else .error .missing
      | .dir path =>
          if part = [] ∨ part = "." then t.walk rest place
          else if part = ".." then
            t.walk rest (if path = [] then .outside else .dir path.dropLast)
          else if (Utf8.encode part).length > 255 then .error .nameTooLong
          else
            match t.child path part with
            | .ok place => t.walk rest place
            | .error e => .error e

def read (t : FileTree) : FileReader := fun name =>
  if (Utf8.encode name).length > 4095 then .error .nameTooLong
  else
    match t.walk (parts name) (if name.head? = some slash then .outside else .dir []) with
    | .ok (.file bytes) => .ok bytes
    | .ok _ => .error .isADirectory
    | .error e => .error e

end FileTree
end CommandLine
end WhitespaceLang
