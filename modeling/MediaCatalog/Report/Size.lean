import MediaCatalog.Failure

namespace MediaCatalog.Report

def step : Binary64 := Binary64.ofNat 1024

def inUnit (x : Binary64) (unit : String) : String :=
  (if unit = "B" then x.fixed 0 else x.fixed 1) ++ unit

/-- Goes up the units while the number fills the next one; the last unit takes what remains. -/
def inUnits (last : String) (x : Binary64) : List String → Option String
  | [] => none
  | unit :: rest =>
    if x.lt step || unit = last then some (inUnit x unit) else inUnits last (x.halved 10) rest

def lastUnit : String := "TiB"

def units : List String := ["B", "KiB", "MiB", "GiB", lastUnit]

def tooLarge : Failure := ⟨.overflow, "int too large to convert to float", []⟩

/-- A question mark stands for an unknown count, and a count that fits no unit stays as it is. -/
def humanBytes (n : Option Int) : Except Failure String :=
  match n with
  | none => .ok "?"
  | some n =>
    if n ≤ 0 then .ok "?"
    else
      let x := Binary64.ofInt n
      if x.isFinite then .ok ((inUnits lastUnit x units).getD (intText n ++ "B"))
      else .error tooLarge

end MediaCatalog.Report
