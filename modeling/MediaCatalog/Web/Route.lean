import MediaCatalog.Path
import MediaCatalog.Web.Target

namespace MediaCatalog.Web

inductive Route where
  | folders
  | bucket (id : String)
  | recent
  | populate
  | render
  | blob (name : String)
  | blobPreview (name : String)
  | preview
  deriving DecidableEq, Repr

namespace Route

def method : Route → String
  | .populate | .render => "POST"
  | _ => "GET"

/-- A part of a path that has to be a given word. A line break may follow the last one. -/
def isLast (word part : String) : Bool := part = word || part = word ++ "\n"

def ofParts : List String → Option Route
  | ["", "api", part] => if isLast "folders" part then some .folders else none
  | ["", "api", "folders", id, part] =>
    if id != "" && isLast "media" part then some (.bucket id) else none
  | ["", "api", "media", part] =>
    if isLast "recent" part then some .recent
    else if isLast "populate" part then some .populate
    else if isLast "render" part then some .render
    else none
  | ["", "blob", name] => if name != "" then some (.blob name) else none
  | ["", "thumb", "blob", name] => if name != "" then some (.blobPreview name) else none
  | ["", "thumb", part] => if isLast "index" part then some .preview else none
  | _ => none

def ofPath (path : String) : Option Route :=
  ofParts ((Path.splitSlash path.toList).map String.ofList)

def dropSlashes (path : String) : String :=
  String.ofList (path.toList.reverse.dropWhile (· == '/')).reverse

/-- A path that leads nowhere is tried without the slashes at its end. -/
def find (path : String) : Option Route := ofPath path <|> ofPath (dropSlashes path)

end Route

end MediaCatalog.Web
