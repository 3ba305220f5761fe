import MediaCatalog.Item
import MediaCatalog.Text.Quoted

namespace MediaCatalog

structure RenderMap where
  pairs : List (Item × Item) := []
  deriving DecidableEq, Repr

namespace RenderMap

def putPair (item result : Item) : List (Item × Item) → List (Item × Item)
  | [] => [(item, result)]
  | p :: rest =>
    if p.1.location = item.location then (item, result) :: rest
    else p :: putPair item result rest

def put (m : RenderMap) (item result : Item) : RenderMap := ⟨putPair item result m.pairs⟩

def get? (m : RenderMap) (i : Item) : Option Item :=
  (m.pairs.find? (fun p => p.1.location = i.location)).map (·.2)

/-- Looks up what may not be an item at all. -/
def find (m : RenderMap) (key : Option Item) : Except Failure Item :=
  match key with
  | none => .error ⟨.attribute, "no attribute 'location'", []⟩
  | some i =>
    match m.get? i with
    | some result => .ok result
    | none => .error ⟨.key, Text.quoted i.location, []⟩

/-- Looks up with something to fall back on; only an absent key falls back. -/
def findOr {α : Type} (m : RenderMap) (key : Option Item) (fallback : α) :
    Except Failure (Item ⊕ α) :=
  match m.find key with
  | .ok result => .ok (.inl result)
  | .error f => if f.cause == .key then .ok (.inr fallback) else .error f

def contains (m : RenderMap) (i : Item) : Bool :=
  m.pairs.any (fun p => p.1.location = i.location)

def containsKey (m : RenderMap) (key : Option Item) : Bool := key.any m.contains

def keys (m : RenderMap) : List Item := m.pairs.map (·.1)

def values (m : RenderMap) : List Item := m.pairs.map (·.2)

def items (m : RenderMap) : Except Failure (List (Item × Item)) :=
  m.keys.mapM fun i => do return (i, ← m.find (some i))

def size (m : RenderMap) : Nat := m.pairs.length

def identity (items : List Item) : RenderMap := items.foldl (fun m i => m.put i i) {}

def text (m : RenderMap) : String :=
  let shown (p : Item × Item) :=
    "(" ++ Text.quoted p.1.location ++ ", " ++ Text.quoted p.2.location ++ ")"
  "RenderMap([" ++ ", ".intercalate (m.pairs.map shown) ++ "])"

end RenderMap

end MediaCatalog
