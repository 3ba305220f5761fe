import MediaCatalog.World

namespace MediaCatalog

def World.mayRead (p : Path) : World.Doing Bool := World.ask fun fs cwd => fs.mayRead cwd p

structure PathPermission where
  index : Path
  media : Path
  deriving DecidableEq, Repr

/-- The media are only looked at when the index is readable. -/
def PathPermission.hasReadAccess (p : PathPermission) : World.Doing Bool := do
  if ← World.mayRead p.index then World.mayRead p.media else return false

end MediaCatalog
