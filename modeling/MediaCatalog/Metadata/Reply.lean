import MediaCatalog.Json.Pairs
import MediaCatalog.Json.Reader
import MediaCatalog.Metadata.Tags
import MediaCatalog.World

namespace MediaCatalog.Metadata

def systemFault (message : String) : Failure := ⟨.system, message, []⟩

def plainLines : List Char → List Char
  | '\r' :: '\n' :: s => '\n' :: plainLines s
  | '\r' :: s => '\n' :: plainLines s
  | c :: s => c :: plainLines s
  | [] => []

def linesOf (s : String) : String := String.ofList (plainLines s.toList)

def notJson (p : Path) (output : String) (f : Json.Fault) : Failure :=
  let words := f.message output.toList
  match f with
  | .tooManyDigits => .ofValue words
  | _ => systemFault ("exiftool output for " ++ p.toString ++ " is not JSON: " ++ words)

def noElement : Failure := ⟨.key, "0", []⟩

def notAList : Failure := ⟨.type, "the reply is not a list", []⟩

/-- The first element. Nothing, in any form, stands for a list with one empty object. -/
def firstElement (v : Json) : Except Failure Json :=
  if !v.isTruthy then .ok (.obj [])
  else match v with
    | .arr (x :: _) => .ok x
    | .str s => .ok (.str (String.ofList (s.toList.take 1)))
    | .obj _ => .error noElement
    | _ => .error notAList

def ofPairs (pairs : List (Json × Json)) : Tags :=
  pairs.foldl (fun tags p => setField p.1.text p.2 tags) []

def sourceName : String := "SourceFile"

def tagsOfReply (p : Path) (r : Reply) : Except Failure Tags :=
  if r.code ≠ 0 then
    let said := Text.strip (linesOf r.errors)
    .error (systemFault (if said = "" then "exiftool rc=" ++ intText r.code else said))
  else match Json.read (linesOf r.output) with
    | .error f => .error (notJson p (linesOf r.output) f)
    | .ok v => do
      let pairs ← (← firstElement v).pairs
      return ofPairs (pairs.filter fun p => !Json.sameKey p.1 (.str sourceName))

/-- Asks the external tag reader; none when it is not installed. -/
def askReader (p : Path) : World.Doing (Option Tags) := do
  match (← Act.getState).tagReader with
  | none => return none
  | some replies =>
    if p.hasNull then Act.fail nullCharacter
    else
      let reply := ((field? p.name replies).orElse fun _ => field? "*" replies).getD {}
      return some (← Act.ofExcept (tagsOfReply p reply))

end MediaCatalog.Metadata
