import MediaCatalog.Calendar
import MediaCatalog.Json.Writer
import MediaCatalog.Log.Template

namespace MediaCatalog.Log

def levelName (l : Level) : String :=
  if l = critical then "CRITICAL" else if l = error then "ERROR"
  else if l = warning then "WARNING" else if l = info then "INFO"
  else if l = debug then "DEBUG" else if l = 0 then "NOTSET" else "Level " ++ natText l

def threadName : String := "MainThread"

def endLine (s : String) : String := if s.endsWith "\n" then s else s ++ "\n"

def withTrace (line : String) : Option Failure → String
  | some f => endLine line ++ f.trace
  | none => line

namespace Record

def message? (r : Record) : Option String := render r.template r.args

def plainLine? (r : Record) : Option String := do
  return withTrace (← r.message?) r.failure ++ "\n"

def wholeSeconds (now : Int) : Int := Int.fdiv now 1000000000

def stampedLine? (now : Int) (r : Record) : Option String := do
  let front := timeText (wholeSeconds now) ++ "Z [" ++ levelName r.level ++ "] [" ++ r.logger ++
    ":" ++ threadName ++ "] "
  return withTrace (front ++ (← r.message?)) r.failure ++ "\n"

/-- A time with its microseconds, unless they are zero, and its offset. -/
def instantText (now : Int) : String :=
  let micro := (Int.fmod now 1000000000 / 1000).toNat
  timeText (wholeSeconds now) ++ (if micro = 0 then "" else "." ++ padZeros 6 micro) ++ "+00:00"

def jsonLine? (now : Int) (r : Record) : Option String := do
  let fields : List (String × Json) :=
    [("ts", .str (instantText now)), ("level", .str (levelName r.level)),
     ("msg", .str (← r.message?)), ("name", .str r.logger), ("thread", .str threadName)]
  let trace := (r.failure.map fun f => ("exc", Json.str f.trace)).toList
  return (Json.obj (fields ++ trace)).write ++ "\n"

end Record

end MediaCatalog.Log
