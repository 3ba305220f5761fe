import MediaCatalog.Check.Records
import MediaCatalog.Json.Reader
import MediaCatalog.Json.Writer
import MediaCatalog.Text.Wide
import MediaCatalog.Web.Guard

namespace MediaCatalog.Web

def flawedAt (part : String) (errors : List FieldError) : Refusal :=
  .flawed (errors.map fun e => { e with place := .field part :: e.place })

def partAt? (v : Json) : Step → Option Json
  | .field name => v.get? name
  | .item i => v.arr?.bind (·[i]?)

/-- What a flaw is about: the value at its place, or the record that lacks it. -/
def flawedPart (v : Json) : List Step → Json
  | [] => v
  | step :: rest =>
    match partAt? v step with
    | some w => flawedPart w rest
    | none => v

def noWords : Failure := .ofValue "Out of range float values are not JSON compliant"

/-- A refusal quotes what is flawed in the body, and fails when that has a number without words. -/
def refuseBody {α : Type} (v : Json) (errors : List FieldError) : Handling α :=
  if errors.all (fun e => (flawedPart v e.place).isStandard) then refuse (flawedAt "body" errors)
  else work (Act.fail noWords)

/-- The characters of a body, whatever its units are. A mark of the byte order at the front does not
count. -/
def bodyChars? (body : String) : Option (List Char) :=
  let bytes := (Text.Utf8.ofString body).map UInt8.toNat
  match body.toList, Text.Wide.form? bytes with
  | '\uFEFF' :: rest, _ => some rest
  | _, some form => Text.Wide.decode? form bytes
  | cs, none => some cs

def readText {α : Type} (read : Check.Reader α) (s : List Char) : Handling α :=
  match Json.readChars s with
  | .error .tooManyDigits => refuse .unreadableBody
  | .error fault => refuse (flawedAt "body" [⟨.malformed, [.item fault.pos]⟩])
  | .ok v =>
    match read v with
    | .ok a => return a
    | .flawed errors => refuseBody v errors

def Request.read {α : Type} (r : Request) (read : Check.Reader α) : Handling α :=
  match r.body with
  | none | some "" => refuse (flawedAt "body" [⟨.missing, []⟩])
  | some body =>
    match bodyChars? body with
    | some cs => readText read cs
    | none => refuse .unreadableBody

/-- The value that a query gives a name; of several the last. -/
def Request.parameter? (r : Request) (name : String) : Option String :=
  field? name (queryPairs r.target.query).reverse

def defaultHeight : Int := 220

def Request.height (r : Request) : Check Int :=
  match r.parameter? "h" with
  | none => .ok defaultHeight
  | some s => (Check.int (.str s)).under (.field "h")

def Request.pathParameter (r : Request) : Check String :=
  match r.parameter? "path" with
  | none => (Check.flaw .missing).under (.field "path")
  | some s => .ok s

def inQuery {α : Type} : Check α → Handling α
  | .ok a => return a
  | .flawed errors => refuse (flawedAt "query" errors)

end MediaCatalog.Web
