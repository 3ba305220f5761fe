import MediaCatalog.Failure
import MediaCatalog.Path
import MediaCatalog.Text.Quoted
import MediaCatalog.Uri

namespace MediaCatalog.Locator

def fileScheme : List Char := ['f', 'i', 'l', 'e']

def blobScheme : List Char := ['b', 'l', 'o', 'b', ':']

/-- The URI of a path, a relative one being taken below `cwd`. -/
def chars (cwd : Path) (path : List Char) : List Char :=
  fileScheme ++ ':' :: '/' :: '/' ::
    Text.Percent.encode ((Path.ofChars path).absolute cwd).chars

def ofPath (cwd : Path) (path : String) : String := String.ofList (chars cwd path.toList)

def isBlob (locator : String) : Bool := blobScheme.isPrefixOf locator.toList

def blobName (locator : String) : String := String.ofList (locator.toList.drop 5)

def ofBlob (name : String) : String := String.ofList (blobScheme ++ name.toList)

def malformed (authority : List Char) : Uri.Malformed → Failure
  | .unbalancedBrackets => .ofValue "Invalid IPv6 URL"
  | .badAddress =>
    let host := ((authority.dropWhile (· != '[')).drop 1).takeWhile (· != ']')
    if host.head? = some 'v' then .ofValue "IPvFuture address is invalid"
    else if Uri.isIpv4 host then .ofValue "An IPv4 address cannot be in brackets"
    else .ofValue (String.ofList (Text.quotedChars host) ++
      " does not appear to be an IPv4 or IPv6 address")
  | .disguisedDelimiter => .ofValue ("netloc '" ++ String.ofList authority ++
      "' contains invalid characters under NFKC normalization")

def authorityOf (locator : List Char) : List Char :=
  (Uri.splitAuthority (Uri.splitScheme (Uri.clean locator)).2).1

def noBlobDirectory (locator : String) : Failure :=
  ⟨.notFound, "no blob directory for " ++ locator, []⟩

def filePath (locator : List Char) : Except Failure Path :=
  match Uri.split locator with
  | .error e => .error (malformed (authorityOf locator) e)
  | .ok parts =>
    if parts.scheme = fileScheme then .ok (Path.ofChars (Text.Percent.decode parts.path))
    else .ok (Path.ofChars locator)

def toPath (blobDir : Option Path) (locator : String) : Except Failure Path :=
  if isBlob locator then
    match blobDir with
    | none => .error (noBlobDirectory locator)
    | some dir => .ok (dir / blobName locator)
  else filePath locator.toList

end MediaCatalog.Locator
