import MediaCatalog.FileSystem.Change
import MediaCatalog.Mime

namespace MediaCatalog.Blob

/-- Extensions that do not follow the general table. -/
def preferred : List (String × String) :=
  [("image/jpeg", "jpg"), ("image/png", "png"), ("image/webp", "webp")]

def extension (mime : String) : String :=
  match preferred.find? (fun p => p.1 == mime) with
  | some p => p.2
  | none => (Mime.extension? mime).getD "bin"

def nameFor (word mime : String) : String := word ++ "." ++ extension mime

def partName (name : String) : String := "." ++ name ++ ".part"

inductive Stage where
  | makeDirectory
  | writePart
  | publish
  | cleanUp (cause : Failure)
  | stored
  | failed (cause : Failure)
  deriving DecidableEq, Repr

structure Storing where
  dir : Path
  name : String
  data : List UInt8
  stage : Stage := .makeDirectory
  deriving DecidableEq, Repr

/-- An error from outside. A write may have stored some bytes before it. -/
structure Fault where
  failure : Failure
  written : Option Nat := none
  deriving DecidableEq, Repr

namespace Storing

def target (s : Storing) : Path := s.dir / s.name

def part (s : Storing) : Path := s.dir / partName s.name

def isOver (s : Storing) : Bool :=
  match s.stage with
  | .stored | .failed _ => true
  | _ => false

/-- After an error the temporary file is removed; an error before it was opened ends the run. -/
def afterError (stage : Stage) (f : Failure) : Stage :=
  match stage with
  | .makeDirectory => .failed f
  | _ => if f.isSystem then .cleanUp f else .failed f

def operate (cwd : Path) (now : Int) (fs : FileSystem) (s : Storing) :
    FileSystem × Except Failure Stage :=
  let whole (r : Except Failure FileSystem) (next : Stage) : FileSystem × Except Failure Stage :=
    match r with
    | .ok fs => (fs, .ok next)
    | .error f => (fs, .error f)
  match s.stage with
  | .makeDirectory =>
    match fs.ensureDir cwd s.dir with
    | (fs, none) => (fs, .ok .writePart)
    | (fs, some f) => (fs, .error f)
  | .writePart => whole (fs.store cwd s.part (.bytes s.data) now) .publish
  | .publish => whole (fs.rename cwd s.part s.target) .stored
  | .cleanUp cause =>
    match fs.unlink cwd s.part with
    | .ok fs => (fs, .ok (.failed cause))
    | .error f => (fs, .ok (.failed (if f.cause = .notFound then cause else f)))
  | .stored => (fs, .ok .stored)
  | .failed f => (fs, .ok (.failed f))

def disturb (cwd : Path) (now : Int) (fs : FileSystem) (s : Storing) (fault : Fault) :
    FileSystem :=
  match s.stage, fault.written with
  | .writePart, some n =>
    match fs.store cwd s.part (.bytes (s.data.take n)) now with
    | .ok fs => fs
    | .error _ => fs
  | _, _ => fs

def step (cwd : Path) (now : Int) (fs : FileSystem) (s : Storing) (fault : Option Fault) :
    FileSystem × Storing :=
  match fault with
  | some e => (disturb cwd now fs s e, { s with stage := afterError s.stage e.failure })
  | none =>
    match operate cwd now fs s with
    | (fs, .ok next) => (fs, { s with stage := next })
    | (fs, .error f) => (fs, { s with stage := afterError s.stage f })

def run (cwd : Path) (now : Int) (faults : Stage → Option Fault) :
    Nat → FileSystem → Storing → FileSystem × Storing
  | 0, fs, s => (fs, s)
  | n + 1, fs, s =>
    if s.isOver then (fs, s)
    else
      let (fs, s) := step cwd now fs s (faults s.stage)
      run cwd now faults n fs s

def stages : Nat := 4

end Storing

end MediaCatalog.Blob
