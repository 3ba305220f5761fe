import MediaCatalog.Preview.Cache
import MediaCatalog.Repository.Wiring
import MediaCatalog.Web.Guard
import MediaCatalog.Web.Input
import MediaCatalog.Web.Route

namespace MediaCatalog.Web

open World

structure Server where
  settings : Settings
  repository : Repository
  imaging : Imaging := .colourless

namespace Server

def ofSettings (s : Settings) (access : Option (Doing Bool) := none)
    (imaging : Imaging := .colourless) : Server :=
  ⟨s, .ofSettings s access imaging, imaging⟩

def previews (s : Server) : Preview.Cache where
  dir := s.settings.thumbDir
  imaging := s.imaging

/-- The item of a request that has the location; of several the last. -/
def itemAt (r : RenderRequest) (location : String) : Option Item :=
  r.items.reverse.find? (fun i => i.location = location)

def checkEdit (s : Server) (r : RenderRequest) (e : EditRequest) :
    Handling (Item × PictureEdit) := do
  match itemAt r e.location with
  | none => refuse (.unknownItem e.location)
  | some i =>
    match e.operations.mapM EditOperation.operation with
    | .error f => if f.isValue then refuse (.badOperation f) else work (Act.fail f)
    | .ok operations => return (i, ⟨← editSource s.settings e.location, operations⟩)

/-- The edits by item, or what is wrong with the first bad one. -/
def checkEdits (s : Server) (r : RenderRequest) : Handling (List (Item × PictureEdit)) :=
  r.edits.foldlM (fun edits e => do
    let (i, edit) ← s.checkEdit r e
    return putEdit i edit edits) []

def ask (s : Server) (q : MediaCatalog.Request World Raster) : Handling (Answer × Server) := do
  let (a, repository) ← work (s.repository.ask q)
  return (a, { s with repository })

def answerBody : Answer → Body
  | .folders fs => .json (Json.ofList Folder.toJson fs)
  | .items is => .json (Json.ofList Item.toJson is)
  | .recent i => .json (Json.ofOption Item.toJson i)
  | .populated b => .json (Json.ofList (fun (c : Completed) => c.item.toJson) b.items)
  | .rendered m => .json (Json.ofList (fun p => (RenderedPair.mk p.1 p.2).toJson) m.pairs)

def render (s : Server) (r : RenderRequest) : Handling (Answer × Server) := do
  let edits ← s.checkEdits r
  s.ask (.rendered r.items (edits.map fun e => (e.1, e.2.edit)))

def blobFile (s : Server) (name : String) : Handling Path :=
  checkedFile s.settings.blobDir (s.settings.blobDir / name)

def mediaFile (s : Server) (path : String) : Handling Path :=
  checkedFile s.settings.mediaRoot (Path.ofString path)

def previewOf (s : Server) (file : Path) (height : Int) : Handling Delivery :=
  work (s.previews.deliver file height)

def deliver (s : Server) (q : Request) : Route → Handling Delivery
  | .blob name => do return .ofFile (← s.blobFile name)
  | .blobPreview name => do
    let height ← inQuery q.height
    s.previewOf (← s.blobFile name) height
  | _ => do
    let (path, height) ← inQuery (Prod.mk <$> q.pathParameter <*> q.height)
    s.previewOf (← s.mediaFile path) height

def handle (s : Server) (q : Request) (route : Route) : Handling (Body × Server) := do
  let asked (r : Handling (Answer × Server)) : Handling (Body × Server) := do
    let (a, s) ← r
    return (answerBody a, s)
  match route with
  | .folders => asked (s.ask .folders)
  | .bucket id => asked (s.ask (.items id))
  | .recent => asked (s.ask .recent)
  | .populate => asked do
    s.ask (.populated (← q.read (Check.list (Item.read .request))))
  | .render => asked do
    s.render (← q.read (RenderRequest.read .request))
  | _ => return (.delivery (← s.deliver q route), s)

def routeOf (q : Request) : Except Refusal Route :=
  match Route.find (decodeText q.target.path.toList) with
  | none => .error .notFound
  | some route => if q.method = route.method then .ok route else .error .wrongMethod

def serve (s : Server) (q : Request) : Handling (Body × Server) := do
  s.handle q (← routeOf q)

def failed : Reply := { status := 500, body := .text "Internal Server Error" }

def respond (s : Server) (q : Request) : Doing (Reply × Server) := do
  match ← Act.attempt (s.serve q).run with
  | .error _ => return (failed, s)
  | .ok (.error r) => return ({ r.reply with allowOrigin := q.allowedOrigin }, s)
  | .ok (.ok (body, s)) => return ({ body, allowOrigin := q.allowedOrigin }, s)

end Server

end MediaCatalog.Web
