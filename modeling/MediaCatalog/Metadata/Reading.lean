import MediaCatalog.Image.Open
import MediaCatalog.Metadata.Reply
import MediaCatalog.Text.Lower

namespace MediaCatalog.Metadata

open World

def pictureTags (p : Picture) : Except Failure Tags := do
  let basic : Tags :=
    [("Basic:Format", .str p.format.name), ("Basic:Width", .int p.width),
     ("Basic:Height", .int p.height)]
  return (Exif.toTags (← p.tags)).foldl (fun tags t => setField t.1 t.2 tags) basic

def readPicture (p : Path) : Doing Tags := do
  Act.ofExcept (pictureTags (← Picture.openPath p))

def setDefault (name : String) (value : Json) (tags : Tags) : Tags :=
  if (field? name tags).isSome then tags else setField name value tags

/-- The whole seconds of a time in nanoseconds, which is rounded to a double first. -/
def seconds (changedAt : Int) : Int :=
  let whole := Int.fdiv changedAt 1000000000
  let rest := Int.fmod changedAt 1000000000
  let billionth := Number.ofDecimal false 1 (-9)
  let time := (Binary64.ofInt whole).add (billionth.mul (Binary64.ofInt rest))
  (time.trunc?).getD 0

def basics : Node → Int × Int
  | .file content changedAt => (content.size, changedAt)
  | _ => (4096, 0)

def readTags (p : Path) : Doing Tags := do
  match ← askReader p with
  | some tags => return tags
  | none => readPicture p

def sourceOf (w : World) : String := if w.tagReader.isSome then "exiftool" else "pillow"

def read (p : Path) : Doing Tags := do
  let node ← stat p
  let source := sourceOf (← Act.getState)
  let tags ← Act.recover (readTags p) Failure.isSystem fun f =>
    return [("_error", .str f.message)]
  let (size, changedAt) := basics node
  return setDefault "Basic:Modified" (.int (seconds changedAt))
    (setDefault "Basic:Size" (.int size)
      (setDefault "Basic:Filename" (.str p.name) (setField "_source" (.str source) tags)))

def imageSize (p : Path) : Doing (Int × Int) := do
  let size ← Act.ofExcept (← Picture.openPath p).displaySize
  return (size.1, size.2)

def wholeNumber? (s : String) : Except Failure Int :=
  match Number.int? s with
  | some n => .ok n
  | none => .error (Number.badInt s)

/-- The frame size is two numbers with blanks or an x between them. -/
def frameSize (tags : Tags) : Except Failure (Int × Int) := do
  let text := ((field? "Composite:ImageSize" tags).map Json.text).getD ""
  let lowered := (Text.lower text).toList.map fun c => if c = 'x' then ' ' else c
  match Text.words (String.ofList lowered) with
  | [w, h] =>
    if Text.allDigits w && Text.allDigits h then return (← wholeNumber? w, ← wholeNumber? h)
    else separate
  | _ => separate
where
  separate : Except Failure (Int × Int) := do
    return ((← firstInt tags widthNames).getD 0, (← firstInt tags heightNames).getD 0)

/-- Without the external reader the size of a video is not known. -/
def videoSize (p : Path) : Doing (Int × Int) := do
  match ← askReader p with
  | none => return (0, 0)
  | some tags => Act.ofExcept (frameSize tags)

/-- Looks at resources in the file system; blobs are found in their directory, if there is one. -/
def fileProbe (blobs : Option Path) : Probe World where
  metadataQuery locator := do
    Act.ofExcept (byteSize (← read (← Act.ofExcept (Locator.toPath blobs locator))))
  resourceSize locator := do
    return (← load (← Act.ofExcept (Locator.toPath blobs locator))).length
  dimensionsOf mime locator := do
    let p ← Act.ofExcept (Locator.toPath blobs locator)
    if "video/".toList.isPrefixOf mime.toList then videoSize p else imageSize p

end MediaCatalog.Metadata
