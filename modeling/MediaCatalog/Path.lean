namespace MediaCatalog

inductive Root where
  | none
  | slash
  | doubleSlash
  deriving DecidableEq, Repr

/-- Empty components and single dots are dropped. Two dots stay, since only a file system can tell
where they lead. -/
structure Path where
  root : Root
  parts : List String
  deriving DecidableEq, Repr

namespace Path

def splitSlash : List Char → List (List Char)
  | [] => [[]]
  | '/' :: s => [] :: splitSlash s
  | c :: s =>
    match splitSlash s with
    | [] => [[c]]
    | p :: ps => (c :: p) :: ps

def rootOf : List Char → Root
  | '/' :: '/' :: '/' :: _ => .slash
  | '/' :: '/' :: _ => .doubleSlash
  | '/' :: _ => .slash
  | _ => .none

def isPart (p : List Char) : Bool := p != [] && p != ['.']

def partsOf (s : List Char) : List String := ((splitSlash s).filter isPart).map String.ofList

def ofChars (s : List Char) : Path := ⟨rootOf s, partsOf s⟩

def ofString (s : String) : Path := ofChars s.toList

def Root.chars : Root → List Char
  | .none => []
  | .slash => ['/']
  | .doubleSlash => ['/', '/']

def joinParts : List String → List Char
  | [] => []
  | [p] => p.toList
  | p :: ps => p.toList ++ '/' :: joinParts ps

def chars (p : Path) : List Char :=
  match p.root, p.parts with
  | .none, [] => ['.']
  | r, ps => Root.chars r ++ joinParts ps

def toString (p : Path) : String := String.ofList p.chars

instance : ToString Path := ⟨toString⟩

def isAbsolute (p : Path) : Bool := p.root != .none

/-- An absolute right side wins. -/
def join (p q : Path) : Path :=
  match q.root with
  | .none => ⟨p.root, p.parts ++ q.parts⟩
  | _ => q

instance : HDiv Path Path Path := ⟨join⟩

instance : HDiv Path String Path := ⟨fun p s => p.join (ofString s)⟩

def absolute (p cwd : Path) : Path := cwd.join p

def parent (p : Path) : Path := { p with parts := p.parts.dropLast }

def name (p : Path) : String := p.parts.getLastD ""

def below? : List String → List String → Option (List String)
  | [], q => some q
  | a :: p, b :: q => if a = b then below? p q else none
  | _ :: _, [] => none

/-- The path relative to `base`, if it lies inside it component by component. -/
def relativeTo? (p base : Path) : Option Path :=
  if p.root = base.root then (below? base.parts p.parts).map (Path.mk .none) else none

/-- Textual simplification: two dots remove the component before them, and vanish at the root. -/
def collapse (p : Path) : Path :=
  let step (acc : List String) (c : String) : List String :=
    if c = ".." then
      match acc with
      | [] => if p.isAbsolute then [] else [c]
      | d :: rest => if d = ".." then c :: acc else rest
    else c :: acc
  { p with parts := (p.parts.foldl step []).reverse }

end Path

end MediaCatalog
