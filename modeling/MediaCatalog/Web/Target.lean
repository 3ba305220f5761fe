import MediaCatalog.Text.Percent

namespace MediaCatalog.Web

structure Target where
  path : String
  query : String := ""
  deriving DecidableEq, Repr

namespace Target

def dropDots (acc : List String) (part : String) : List String :=
  if part = "." then acc
  else if part = ".." then
    match acc with
    | [] | [""] => acc
    | _ :: rest => rest
  else part :: acc

def plainPath (path : String) : String :=
  let parts := path.splitOn "/"
  if parts.contains "." || parts.contains ".." then
    "/".intercalate (parts.foldl dropDots []).reverse
  else path

/-- What follows a number sign is not part of the target. -/
def ofText (s : String) : Target :=
  let sent := s.toList.takeWhile (· != '#')
  let (path, query) := sent.span (· != '?')
  ⟨plainPath (String.ofList path), String.ofList (query.drop 1)⟩

end Target

def decodeText (s : List Char) : String := String.ofList (Text.Percent.decode s)

/-- A plus sign in a query stands for a blank. -/
def decodeQueryText (s : List Char) : String :=
  decodeText (s.map fun c => if c = '+' then ' ' else c)

def queryPairs (query : String) : List (String × String) :=
  ((query.splitOn "&").filter (· != "")).map fun part =>
    let (name, value) := part.toList.span (· != '=')
    (decodeQueryText name, decodeQueryText (value.drop 1))

end MediaCatalog.Web
