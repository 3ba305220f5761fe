import MediaCatalog.Index.Storage
import MediaCatalog.Path
import MediaCatalog.Text.Utf8

namespace MediaCatalog

/-- What a file holds: bytes, or a database with or without the table of media. -/
inductive Content where
  | bytes (b : List UInt8)
  | database (table : Option Index.Table)
  deriving DecidableEq, Repr

abbrev Place := List String

/-- Times of change are in nanoseconds. -/
inductive Node where
  | directory
  | file (content : Content) (changedAt : Int)
  | link (target : String)
  deriving DecidableEq, Repr

structure FileSystem where
  entries : List (Place × Node) := []
  deriving DecidableEq, Repr

inductive Errno where
  | noEntry
  | exists
  | notDirectory
  | isDirectory
  | noSpace
  | nameTooLong
  | loop
  deriving DecidableEq, Repr

namespace Errno

def number : Errno → Nat
  | .noEntry => 2
  | .exists => 17
  | .notDirectory => 20
  | .isDirectory => 21
  | .noSpace => 28
  | .nameTooLong => 36
  | .loop => 40

def summary : Errno → String
  | .noEntry => "No such file or directory"
  | .exists => "File exists"
  | .notDirectory => "Not a directory"
  | .isDirectory => "Is a directory"
  | .noSpace => "No space left on device"
  | .nameTooLong => "File name too long"
  | .loop => "Too many levels of symbolic links"

def cause : Errno → Cause
  | .noEntry => .notFound
  | .exists => .alreadyExists
  | .notDirectory => .notDirectory
  | .isDirectory => .isDirectory
  | .noSpace | .nameTooLong | .loop => .system

def failure (e : Errno) (path : Path) : Failure :=
  ⟨e.cause, "[Errno " ++ natText e.number ++ "] " ++ e.summary ++ ": " ++
    Text.quoted path.toString, []⟩

end Errno

def nullCharacter : Failure := .ofValue "embedded null byte"

def Path.hasNull (p : Path) : Bool := p.parts.any (fun c => c.toList.contains (Char.ofNat 0))

namespace FileSystem

def node? (fs : FileSystem) : Place → Option Node
  | [] => some .directory
  | p => (fs.entries.find? (fun e => e.1 = p)).map (·.2)

def components (target : String) : List String :=
  (Path.splitSlash target.toList).map String.ofList

def isAbsoluteText (s : String) : Bool := s.toList.head? == some '/'

inductive Reach where
  | found (place : Place)
  | missing (parent : Place) (name : String)
  deriving DecidableEq, Repr

def maxName : Nat := 255

def maxPath : Nat := 4096

def maxLinks : Nat := 40

/-- Goes down the names from a place; `jump` takes over behind a link. -/
def along (fs : FileSystem) (followLast : Bool)
    (jump : Place → List String → Except Errno Reach) :
    Place → List String → Except Errno Reach
  | here, [] => .ok (.found here)
  | here, name :: rest =>
    if fs.node? here ≠ some .directory then .error .notDirectory
    else if name = "" || name = "." then along fs followLast jump here rest
    else if name = ".." then along fs followLast jump here.dropLast rest
    else if maxName < Text.Utf8.size name then .error .nameTooLong
    else match fs.node? (here ++ [name]) with
      | none => if rest = [] then .ok (.missing here name) else .error .noEntry
      | some (.link target) =>
        if rest = [] && !followLast then .ok (.found (here ++ [name]))
        else jump (if isAbsoluteText target then [] else here) (components target ++ rest)
      | some _ => along fs followLast jump (here ++ [name]) rest

/-- A look-up that may still follow fewer than the given number of links. -/
def walk (fs : FileSystem) (followLast : Bool) : Nat → Place → List String → Except Errno Reach
  | 0, _, _ => .error .loop
  | n + 1, here, names => along fs followLast (walk fs followLast n) here names

def reach (fs : FileSystem) (cwd : Path) (p : Path) (followLast : Bool) : Except Errno Reach :=
  if maxPath ≤ Text.Utf8.size p.toString then .error .nameTooLong
  else walk fs followLast (maxLinks + 1) [] (p.absolute cwd).parts

def find (fs : FileSystem) (cwd p : Path) : Except Errno Place := do
  match ← fs.reach cwd p true with
  | .found place => return place
  | .missing .. => throw .noEntry

def lookup (fs : FileSystem) (cwd p : Path) : Except Errno (Place × Node) := do
  let place ← fs.find cwd p
  match fs.node? place with
  | some e => return (place, e)
  | none => throw .noEntry

def meansAbsent : Errno → Bool
  | .noEntry | .notDirectory | .loop => true
  | _ => false

/-- Whether the path leads to an entry of the wanted kind. Paths that no file can have lead
nowhere; a name that is too long is an error. -/
def test (fs : FileSystem) (cwd p : Path) (wanted : Node → Bool) : Except Failure Bool :=
  if p.hasNull then .ok false
  else match fs.lookup cwd p with
    | .ok (_, e) => .ok (wanted e)
    | .error e => if meansAbsent e then .ok false else .error (e.failure p)

def isFileNode : Node → Bool
  | .file .. => true
  | _ => false

def isFile (fs : FileSystem) (cwd p : Path) : Except Failure Bool := fs.test cwd p isFileNode

def isDir (fs : FileSystem) (cwd p : Path) : Except Failure Bool := fs.test cwd p (· == .directory)

def exists? (fs : FileSystem) (cwd p : Path) : Except Failure Bool := fs.test cwd p (fun _ => true)

/-- Everything that is there may be read. -/
def mayRead (fs : FileSystem) (cwd p : Path) : Except Failure Bool :=
  if p.hasNull then .error nullCharacter
  else .ok ((fs.find cwd p).toOption.isSome)

def failing {α : Type} (p : Path) (r : Except Errno α) : Except Failure α :=
  if p.hasNull then .error nullCharacter
  else match r with
    | .ok a => .ok a
    | .error e => .error (e.failure p)

def load (fs : FileSystem) (cwd p : Path) : Except Failure (Content × Int) :=
  failing p do
    match ← fs.lookup cwd p with
    | (_, .file content changedAt) => return (content, changedAt)
    | _ => throw .isDirectory

def stat (fs : FileSystem) (cwd p : Path) : Except Failure Node :=
  failing p do return (← fs.lookup cwd p).2

end FileSystem

def Content.toBytes : Content → List UInt8
  | .bytes b => b
  | .database t => Index.Storage.encode t

def Content.ofBytes (b : List UInt8) : Content :=
  match Index.Storage.decode? b with
  | some t => .database t
  | none => .bytes b

def Content.size (c : Content) : Nat := c.toBytes.length

end MediaCatalog
