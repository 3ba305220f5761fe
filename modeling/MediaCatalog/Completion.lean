import MediaCatalog.Collaborators

namespace MediaCatalog

variable {σ : Type}

/-- The first positive answer; later sources are not asked. -/
def firstKnownSize : List (String → Act σ (Option Int)) → String → Act σ (Option Int)
  | [], _ => return none
  | ask :: rest, locator => do
    match ← ask locator with
    | some size => if 0 < size then return some size else firstKnownSize rest locator
    | none => firstKnownSize rest locator

/-- An item of the answer, and whether it is a new record rather than the one that came in. -/
structure Completed where
  item : Item
  isNew : Bool
  deriving DecidableEq, Repr

structure Batch where
  items : List Completed
  isNew : Bool
  deriving DecidableEq, Repr

def Batch.kept (items : List Item) : Batch := ⟨items.map (⟨·, false⟩), false⟩

structure Completer (σ : Type) where
  authority : Authority σ
  probe : Probe σ
  hasReadAccess : Option (Act σ Bool)

namespace Completer

/-- Local blobs are looked up with the authority, everything else in its metadata; the length of
the resource itself comes last. -/
def sizeSources (c : Completer σ) (locator : String) :
    Act σ (List (String → Act σ (Option Int))) := do
  let measured (l : String) : Act σ (Option Int) := do return some (← c.probe.resourceSize l)
  if ← c.authority.isLocal locator then return [c.authority.sizeOf, measured]
  else return [c.probe.metadataQuery, measured]

def resolveSize (c : Completer σ) (i : Item) : Act σ Int := do
  if 0 < i.size then return i.size
  else
    let sources ← c.sizeSources i.location
    return (← firstKnownSize sources i.location).getD i.size

def resolveDimensions (c : Completer σ) (i : Item) : Act σ (Int × Int) := do
  if 0 < i.width && 0 < i.height then return (i.width, i.height)
  else c.probe.dimensionsOf i.mimeType i.location

def resolve (c : Completer σ) (i : Item) : Act σ Item := do
  let size ← c.resolveSize i
  let d ← c.resolveDimensions i
  return { i with width := d.1, height := d.2, size }

def completeOne (c : Completer σ) (i : Item) : Act σ Completed := do
  if i.isPopulated then return ⟨i, false⟩
  else
    let resolved := do return Completed.mk (← c.resolve i) true
    Act.recover resolved Failure.isSystem fun f => do
      Act.log ⟨Log.warning, "mediashelf.populate", "Could not populate %s: %s",
        [.text i.location, .failure f], none⟩
      return ⟨i, false⟩

def mayRead (c : Completer σ) : Act σ Bool :=
  match c.hasReadAccess with
  | some access => access
  | none => return true

def complete (c : Completer σ) (items : List Item) : Act σ Batch := do
  if items.all Item.isPopulated then return .kept items
  else if ← c.mayRead then return ⟨← items.mapM c.completeOne, true⟩
  else return .kept items

end Completer

end MediaCatalog
