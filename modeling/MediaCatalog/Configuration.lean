import MediaCatalog.Settings
import MediaCatalog.Toml.Reader

namespace MediaCatalog.Configuration

open World

def fileName : String := "mediashelf.toml"

def upwards (p : Path) : List Path :=
  (List.range (p.parts.length + 1)).map fun n =>
    { p with parts := p.parts.take (p.parts.length - n) }

def firstExisting : List Path → Doing (Option Path)
  | [] => return none
  | p :: rest => do
    if ← exists? p then return some p else firstExisting rest

def named : Doing (Option Path) := do
  match (← Act.getState).configured with
  | some s =>
    if s = "" then return none
    else firstExisting [← expandHome (Path.ofString s)]
  | none => return none

def find : Doing (Option Path) := do
  match ← named with
  | some p => return some p
  | none => firstExisting ((upwards (← Act.getState).cwd).map (· / fileName))

def load (p : Option Path) : Doing Settings.Table := do
  let p ← match p with
    | some p => pure (some p)
    | none => find
  match p with
  | none => return []
  | some p =>
    if ← exists? p then Act.ofExcept (Toml.read (← World.load p)) else return []

end MediaCatalog.Configuration
