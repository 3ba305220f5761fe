import MediaCatalog.Delivery
import MediaCatalog.Json.Records
import MediaCatalog.Web.Target

namespace MediaCatalog.Web

structure Request where
  method : String := "GET"
  target : Target
  body : Option String := none
  origin : Option String := none
  deriving Repr

def knownOrigins : List String := ["http://localhost:5173", "http://127.0.0.1:5173"]

def Request.allowedOrigin (q : Request) : Option String := q.origin.filter knownOrigins.contains

inductive Body where
  | json (v : Json)
  | text (s : String)
  | delivery (d : Delivery)

structure Reply where
  status : Nat := 200
  body : Body
  allowOrigin : Option String := none

def withCharset (type : String) : String :=
  if type.startsWith "text/" then type ++ "; charset=utf-8" else type

def Body.type : Body → String
  | .json _ => "application/json"
  | .text _ => withCharset "text/plain"
  | .delivery d => withCharset d.type

inductive Refusal where
  | detail (status : Nat) (text : String)
  | flawed (errors : List FieldError)
  deriving DecidableEq, Repr

namespace Refusal

def notFound : Refusal := .detail 404 "Not Found"

def wrongMethod : Refusal := .detail 405 "Method Not Allowed"

def forbiddenPath : Refusal := .detail 403 "forbidden path"

def noFile : Refusal := .detail 404 "file not found"

def cannotEdit (location : String) : Refusal := .detail 403 ("cannot edit " ++ location)

def unknownItem (location : String) : Refusal :=
  .detail 400 ("edit for unknown item " ++ location)

def badOperation (f : Failure) : Refusal := .detail 400 f.message

def unreadableBody : Refusal := .detail 400 "There was an error parsing the body"

def status : Refusal → Nat
  | .detail status _ => status
  | .flawed _ => 422

def body : Refusal → Body
  | .detail _ text => .json (.obj [("detail", .str text)])
  | .flawed errors => .json (.obj [("detail", Json.ofList FieldError.toJson errors)])

def reply (r : Refusal) : Reply := { status := r.status, body := r.body }

end Refusal

end MediaCatalog.Web
