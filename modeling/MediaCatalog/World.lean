import MediaCatalog.Act
import MediaCatalog.FileSystem.Change
import MediaCatalog.FileSystem.Resolve

namespace MediaCatalog

/-- What the external tag reader prints about a file, and its exit code. -/
structure Reply where
  output : String := ""
  errors : String := ""
  code : Int := 0
  deriving DecidableEq, Repr

structure World where
  files : FileSystem
  cwd : Path
  home : String
  homes : List (String × String) := []
  /-- The configuration file that the environment names. -/
  configured : Option String := none
  /-- Replies by file name, where the tag reader is installed; a star stands for other files. -/
  tagReader : Option (List (String × Reply)) := none
  clock : Int := 1700000000000000000
  issued : Nat := 0
  deriving Repr

namespace World

abbrev Doing := Act World

def ask {α : Type} (question : FileSystem → Path → Except Failure α) : Doing α := do
  let w ← Act.getState
  Act.ofExcept (question w.files w.cwd)

/-- Changes the file system; what was changed before an error stays. -/
def changeSome (change : FileSystem → Path → FileSystem × Option Failure) : Doing Unit := do
  let w ← Act.getState
  let (files, failure) := change w.files w.cwd
  Act.setState { w with files, clock := w.clock + 1 }
  match failure with
  | some f => Act.fail f
  | none => return ()

def change (change : FileSystem → Path → Except Failure FileSystem) : Doing Unit :=
  changeSome fun fs cwd =>
    match change fs cwd with
    | .ok fs => (fs, none)
    | .error f => (fs, some f)

def ensureDir (p : Path) : Doing Unit := changeSome fun fs cwd => fs.ensureDir cwd p

def store (p : Path) (bytes : List UInt8) : Doing Unit := do
  let now := (← Act.getState).clock
  change fun fs cwd => fs.store cwd p (.bytes bytes) now

def load (p : Path) : Doing (List UInt8) := do
  return (← ask fun fs cwd => fs.load cwd p).1.toBytes

def resolve (p : Path) : Doing Path := ask fun fs cwd => fs.resolve cwd p

def isFile (p : Path) : Doing Bool := ask fun fs cwd => fs.isFile cwd p

def exists? (p : Path) : Doing Bool := ask fun fs cwd => fs.exists? cwd p

def stat (p : Path) : Doing Node := ask fun fs cwd => fs.stat cwd p

def relativeUnder (base target : Path) : Doing (Option Path) :=
  ask fun fs cwd => fs.relativeUnder cwd base target

/-- A name of 32 hexadecimal digits that was never given before. -/
def freshName : Doing String := do
  let w ← Act.getState
  Act.setState { w with issued := w.issued + 1 }
  return String.ofList (Text.hexText 32 (w.issued + 1))

end World

end MediaCatalog
