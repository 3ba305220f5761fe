import MediaCatalog.FileSystem.Basic

namespace MediaCatalog.FileSystem

/-- Where following the names by themselves leads: to a place, or back to a link that is still
being followed, in which case that link and the rest are left as text. -/
inductive Trace where
  | done (place : Place)
  | looped (text : List Char)
  | null
  deriving DecidableEq, Repr

def hasNullName (name : String) : Bool := name.toList.contains (Char.ofNat 0)

def placeChars (place : Place) : List Char := '/' :: Path.joinParts place

/-- Names behind a text. When the first of them is empty and others follow, they start at the root
again. -/
def joinNames (text : List Char) (names : List String) : List Char :=
  let rest := Path.joinParts names
  if rest.head? = some '/' then rest
  else if text.getLast? = some '/' then text ++ rest
  else text ++ '/' :: rest

def traceAlong (fs : FileSystem) (enter : Place → Place → List String → Trace) :
    Place → List String → Trace
  | here, [] => .done here
  | here, name :: rest =>
    if name = "" || name = "." then traceAlong fs enter here rest
    else if name = ".." then traceAlong fs enter here.dropLast rest
    else if hasNullName name then .null
    else match fs.node? (here ++ [name]) with
      | some (.link target) =>
        match enter (here ++ [name]) (if isAbsoluteText target then [] else here)
            (components target) with
        | .done there => traceAlong fs enter there rest
        | .looped text => .looped (joinNames text rest)
        | .null => .null
      | _ => traceAlong fs enter (here ++ [name]) rest

/-- Follows names while the links in `open_` are being followed. The number bounds how many more
links may be open at once; there are no more than the file system has. -/
def trace (fs : FileSystem) : Nat → List Place → Place → List String → Trace
  | 0, _, here, names => .looped (joinNames (placeChars here) names)
  | n + 1, open_, here, names =>
    traceAlong fs (fun link base target =>
      if open_.contains link then .looped (placeChars link)
      else trace fs n (link :: open_) base target)
      here names

def isLink : Node → Bool
  | .link _ => true
  | _ => false

def linkCount (fs : FileSystem) : Nat := (fs.entries.filter (fun e => isLink e.2)).length

def symlinkLoop (p : Path) : Failure :=
  ⟨.runtime, "Symlink loop from " ++ Text.quoted p.toString, []⟩

/-- The canonical form. Names that do not exist are kept as they are, and a path that runs through a
loop of links has none. -/
def resolve (fs : FileSystem) (cwd p : Path) : Except Failure Path :=
  let checked (plain : Path) : Except Failure Path :=
    let canonical := plain.collapse
    if canonical.hasNull then .error nullCharacter
    else match fs.reach cwd canonical true with
      | .error .loop => .error (symlinkLoop canonical)
      | _ => .ok canonical
  match trace fs (fs.linkCount + 2) [] [] (p.absolute cwd).parts with
  | .done place => checked ⟨.slash, place⟩
  | .looped text => checked (Path.ofChars text)
  | .null => .error nullCharacter

/-- The target's path relative to the base, both in canonical form, if the target lies inside. -/
def relativeUnder (fs : FileSystem) (cwd base target : Path) : Except Failure (Option Path) := do
  let inside : Except Failure (Option Path) := do
    let t ← fs.resolve cwd target
    let b ← fs.resolve cwd base
    return t.relativeTo? b
  match inside with
  | .ok r => return r
  | .error f => if f.isValue then return none else throw f

end MediaCatalog.FileSystem
