import MediaCatalog.World

namespace MediaCatalog

def noHome : Failure := ⟨.runtime, "Could not determine home directory.", []⟩

/-- The path of a home directory. Slashes at its end do not count, and an empty one is the root. One
that starts with a tilde itself leads nowhere. -/
def homePath (home : String) : Except Failure Path :=
  match (home.toList.reverse.dropWhile (· = '/')).reverse with
  | [] => .ok ⟨.slash, []⟩
  | '~' :: _ => .error noHome
  | s => .ok (Path.ofChars s)

def homeOf (home : String) (homes : List (String × String)) (component : String) :
    Option (Except Failure Path) :=
  match component.toList with
  | ['~'] => some (homePath home)
  | '~' :: user =>
    match field? (String.ofList user) homes with
    | some h => some (homePath h)
    | none => some (.error noHome)
  | _ => none

def Path.expandHome (home : String) (homes : List (String × String)) (p : Path) :
    Except Failure Path :=
  match p.root, p.parts with
  | .none, first :: rest =>
    match homeOf home homes first with
    | some (.ok h) => .ok (h.join ⟨.none, rest⟩)
    | some (.error f) => .error f
    | none => .ok p
  | _, _ => .ok p

def World.expandHome (p : Path) : World.Doing Path := do
  let w ← Act.getState
  Act.ofExcept (p.expandHome w.home w.homes)

end MediaCatalog
