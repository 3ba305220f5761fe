import MediaCatalog.Failure

namespace MediaCatalog

namespace Cause

def title : Cause → String
  | .system => "OSError"
  | .notFound => "FileNotFoundError"
  | .denied => "PermissionError"
  | .isDirectory => "IsADirectoryError"
  | .notDirectory => "NotADirectoryError"
  | .alreadyExists => "FileExistsError"
  | .timedOut => "TimeoutError"
  | .unknownImage => "UnidentifiedImageError"
  | .value => "ValueError"
  | .unicode => "UnicodeError"
  | .encoding => "UnicodeDecodeError"
  | .refused => "ValidationError"
  | .badToml => "TOMLDecodeError"
  | .badJson => "JSONDecodeError"
  | .runtime => "RuntimeError"
  | .key => "KeyError"
  | .type => "TypeError"
  | .attribute => "AttributeError"
  | .index => "IndexError"
  | .overflow => "OverflowError"
  | .hugeImage => "DecompressionBombError"
  | .indexQuery => "IndexQueryError"
  | .integrity => "IntegrityError"
  | .operational => "OperationalError"
  | .database => "DatabaseError"
  | .other name => name

def known : List Cause :=
  [.system, .notFound, .denied, .isDirectory, .notDirectory, .alreadyExists, .timedOut,
   .unknownImage, .value, .unicode, .encoding, .refused, .badToml, .badJson, .runtime, .key, .type,
   .attribute, .index, .overflow, .hugeImage, .indexQuery, .integrity, .operational, .database]

def ofTitle (name : String) : Cause :=
  (known.find? (fun c => c.title == name)).getD (.other name)

/-- Where a title is at home; titles without a home are known everywhere. -/
def home : Cause → String
  | .unknownImage => "PIL."
  | .hugeImage => "PIL.Image."
  | .refused => "pydantic_core._pydantic_core."
  | .badToml => "tomllib."
  | .badJson => "json.decoder."
  | .indexQuery => "mediashelf.repositories.media_index."
  | .integrity | .operational | .database => "sqlite3."
  | _ => ""

end Cause

namespace Failure

def trace (f : Failure) : String :=
  "TRACEBACK " ++ f.cause.home ++ f.cause.title ++ if f.message = "" then "" else ": " ++ f.message

end Failure

end MediaCatalog
