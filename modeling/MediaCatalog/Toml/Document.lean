import MediaCatalog.Json

namespace MediaCatalog.Toml

inductive Fault where
  | malformed
  | tooManyDigits
  deriving DecidableEq, Repr

/-- How a table came to be: on the way to another one, by dotted names, or by a header. This decides
who may still extend it. -/
inductive Standing where
  | passing
  | dotted (block : Nat)
  | headed
  deriving DecidableEq, Repr

/-- A list of tables is open at its last table only. -/
inductive Entry where
  | value (v : Json)
  | table (standing : Standing) (fields : List (String × Entry))
  | tables (before : List (List (String × Entry))) (last : List (String × Entry))

abbrev Fields := List (String × Entry)

abbrev Change := Fields → Except Fault Fields

def into (name : String) (change : Change) : Change := fun fields =>
  match field? name fields with
  | none => do return setField name (.table .passing (← change [])) fields
  | some (.table s inner) => do return setField name (.table s (← change inner)) fields
  | some (.tables before last) => do
    return setField name (.tables before (← change last)) fields
  | some (.value _) => .error .malformed

def within : List String → Change → Change
  | [], change => change
  | name :: path, change => into name (within path change)

/-- Gives a table its header, which it can have only once. -/
def head (name : String) : Change := fun fields =>
  match field? name fields with
  | none => .ok (setField name (.table .headed []) fields)
  | some (.table .passing inner) => .ok (setField name (.table .headed inner) fields)
  | some _ => .error .malformed

def another (name : String) : Change := fun fields =>
  match field? name fields with
  | none => .ok (setField name (.tables [] []) fields)
  | some (.tables before last) => .ok (setField name (.tables (before ++ [last]) []) fields)
  | some _ => .error .malformed

def dot (block : Nat) (name : String) (change : Change) : Change := fun fields =>
  let made (inner : Fields) : Except Fault Fields := do
    return setField name (.table (.dotted block) (← change inner)) fields
  match field? name fields with
  | none => made []
  | some (.table .passing inner) => made inner
  | some (.table (.dotted b) inner) => if b = block then made inner else .error .malformed
  | some _ => .error .malformed

def define (block : Nat) (v : Json) : List String → Change
  | [], _ => .error .malformed
  | [name], fields =>
    match field? name fields with
    | none => .ok (setField name (.value v) fields)
    | some _ => .error .malformed
  | name :: path, fields => dot block name (define block v path) fields

mutual

def Entry.toJson : Entry → Json
  | .value v => v
  | .table _ fields => .obj (jsonFields fields)
  | .tables before last => .arr (jsonTables before ++ [.obj (jsonFields last)])

def jsonFields : List (String × Entry) → List (String × Json)
  | [] => []
  | (k, e) :: rest => (k, e.toJson) :: jsonFields rest

def jsonTables : List (List (String × Entry)) → List Json
  | [] => []
  | t :: rest => .obj (jsonFields t) :: jsonTables rest

end

end MediaCatalog.Toml
