import MediaCatalog.FileSystem.Basic

namespace MediaCatalog.FileSystem

def put (fs : FileSystem) (place : Place) (e : Node) : FileSystem :=
  ⟨setPlace place e fs.entries⟩
where
  setPlace (place : Place) (e : Node) : List (Place × Node) → List (Place × Node)
    | [] => [(place, e)]
    | x :: rest => if x.1 = place then (place, e) :: rest else x :: setPlace place e rest

def erase (fs : FileSystem) (place : Place) : FileSystem :=
  ⟨fs.entries.filter (fun e => e.1 ≠ place)⟩

def children (fs : FileSystem) (place : Place) : List (Place × Node) :=
  fs.entries.filter (fun e => e.1 ≠ [] && e.1.dropLast = place)

def makeDir (fs : FileSystem) (cwd p : Path) : Except Failure FileSystem :=
  failing p do
    match ← fs.reach cwd p false with
    | .found _ => throw .exists
    | .missing parent name => return fs.put (parent ++ [name]) .directory

def unlessDir (fs : FileSystem) (cwd p : Path) (f : Failure) : Option Failure :=
  if f.isSystem then
    match fs.isDir cwd p with
    | .ok true => none
    | .ok false => some f
    | .error g => some g
  else some f

/-- Makes a directory with those of its parents that are missing. Parents that were made stay, also
when the directory itself cannot be made. -/
def makeDirs (cwd : Path) : Nat → FileSystem → Path → FileSystem × Option Failure
  | 0, fs, p => (fs, some (Errno.noEntry.failure p))
  | n + 1, fs, p =>
    match fs.makeDir cwd p with
    | .ok fs => (fs, none)
    | .error f =>
      if f.cause = .notFound && p.parent ≠ p then
        match makeDirs cwd n fs p.parent with
        | (fs, some g) => (fs, some g)
        | (fs, none) =>
          match fs.makeDir cwd p with
          | .ok fs => (fs, none)
          | .error g => (fs, fs.unlessDir cwd p g)
      else (fs, fs.unlessDir cwd p f)

def ensureDir (fs : FileSystem) (cwd p : Path) : FileSystem × Option Failure :=
  makeDirs cwd (p.parts.length + 1) fs p

/-- Writes a whole file, over the one that is there; links are followed. -/
def store (fs : FileSystem) (cwd p : Path) (content : Content) (now : Int) :
    Except Failure FileSystem :=
  failing p do
    match ← fs.reach cwd p true with
    | .found place =>
      match fs.node? place with
      | some .directory => throw .isDirectory
      | _ => return fs.put place (.file content now)
    | .missing parent name => return fs.put (parent ++ [name]) (.file content now)

def rename (fs : FileSystem) (cwd source target : Path) : Except Failure FileSystem :=
  failing source do
    match ← fs.reach cwd source false, ← fs.reach cwd target false with
    | .found place, .found new =>
      match fs.node? place, fs.node? new with
      | some e, some old =>
        if old = .directory && e ≠ .directory then throw .isDirectory
        else return (fs.erase place).put new e
      | _, _ => throw .noEntry
    | .found place, .missing parent name =>
      match fs.node? place with
      | some e => return (fs.erase place).put (parent ++ [name]) e
      | none => throw .noEntry
    | .missing .., _ => throw .noEntry

def unlink (fs : FileSystem) (cwd p : Path) : Except Failure FileSystem :=
  failing p do
    match ← fs.reach cwd p false with
    | .found place =>
      if fs.node? place = some .directory then throw .isDirectory else return fs.erase place
    | .missing .. => throw .noEntry

def symlink (fs : FileSystem) (cwd p : Path) (target : String) : Except Failure FileSystem :=
  failing p do
    match ← fs.reach cwd p false with
    | .found _ => throw .exists
    | .missing parent name => return fs.put (parent ++ [name]) (.link target)

end MediaCatalog.FileSystem
