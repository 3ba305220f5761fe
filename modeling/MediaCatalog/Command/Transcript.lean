import MediaCatalog.Command.Options
import MediaCatalog.World

namespace MediaCatalog.Command

inductive Ending where
  | done
  | stopped (s : Stop)
  | message (text : String)
  | failed (f : Failure)
  deriving DecidableEq, Repr

structure Transcript where
  ending : Ending
  output : String := ""
  errors : String := ""
  deriving DecidableEq, Repr

/-- A command prints its output last, unless it gives up with a message or fails. -/
abbrev Performing := ExceptT String World.Doing

def giveUp {α : Type} (message : String) : Performing α := throw message

def perform {α : Type} (act : World.Doing α) : Performing α := ExceptT.lift act

def Transcript.ofOutcome : Except Failure (Except String String) → Transcript
  | .ok (.ok output) => ⟨.done, output, ""⟩
  | .ok (.error message) => ⟨.message message, "", ""⟩
  | .error f => ⟨.failed f, "", ""⟩

def anyText (_ : String) : Bool := true

def helpFlag : Flag := ⟨["-h", "--help"], .help⟩

end MediaCatalog.Command
