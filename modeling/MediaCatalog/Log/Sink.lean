import MediaCatalog.Log.Layout

namespace MediaCatalog.Log

/-- Takes the records from a level up, and, with a ceiling, up to that level. -/
structure Sink where
  level : Level
  ceiling : Option Level := none
  deriving DecidableEq, Repr

/-- Records below the debug level go nowhere. -/
def Sink.accepts (s : Sink) (r : Record) : Bool :=
  debug ≤ r.level && s.level ≤ r.level && s.ceiling.all (r.level ≤ ·)

end MediaCatalog.Log
