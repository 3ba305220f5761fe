import MediaCatalog.Index.Database
import MediaCatalog.Text.Blank

namespace MediaCatalog.Index

inductive Statement where
  | table (name : String) (ifMissing : Bool)
  | index (name : String)
  | malformed (word : String)
  deriving DecidableEq, Repr

namespace Script

def withoutComment (line : String) : String := (line.splitOn "--").headD ""

def tokens (s : String) : List String :=
  let spaced := s.toList.flatMap fun c => if c = '(' || c = ')' then [' ', c, ' '] else [c]
  Text.words (String.ofList spaced)

/-- How many parentheses are open behind the words; none when one was closed too many. -/
def depth? (ws : List String) : Option Nat :=
  ws.foldlM (fun n w => if w = "(" then some (n + 1) else if w = ")" then
    (if n = 0 then none else some (n - 1)) else some n) 0

def hasColumns (ws : List String) : Bool := ws.head? == some "(" && depth? ws == some 0

def dropIfMissing (ws : List String) : Bool × List String :=
  if (ws.take 3).map (·.map Char.toUpper) = ["IF", "NOT", "EXISTS"] then (true, ws.drop 3)
  else (false, ws)

def statement (ws : List String) : Statement :=
  let bad := Statement.malformed (ws.getD 1 "")
  match (ws.take 2).map (·.map Char.toUpper) with
  | ["CREATE", "TABLE"] =>
    match dropIfMissing (ws.drop 2) with
    | (ifMissing, name :: rest) => if hasColumns rest then .table name ifMissing else bad
    | (_, []) => bad
  | ["CREATE", "INDEX"] =>
    match (dropIfMissing (ws.drop 2)).2 with
    | name :: on :: _ :: rest =>
      if on.map Char.toUpper = "ON" && hasColumns rest then .index name else bad
    | _ => bad
  | _ => .malformed (ws.headD "")

def statements (text : String) : List Statement :=
  let plain := "\n".intercalate ((text.splitOn "\n").map withoutComment)
  (((plain.splitOn ";").map tokens).filter (· != [])).map statement

end Script

def badStatement (word : String) : Failure :=
  ⟨.operational, "near \"" ++ word ++ "\": syntax error", []⟩

def tableExists (name : String) : Failure :=
  ⟨.operational, "table " ++ name ++ " already exists", []⟩

namespace Database

/-- Only the table of media counts; others leave the database as it is. -/
def execute (d : Database) : Statement → World.Doing Unit
  | .malformed word => do
    let _ ← d.table?
    Act.fail (badStatement word)
  | .index _ => do d.save (← d.table?)
  | .table name ifMissing => do
    let old ← d.table?
    if name != tableName then d.save old
    else if old.isSome && !ifMissing then Act.fail (tableExists name)
    else d.prepare

def runScript (d : Database) (text : String) : World.Doing Unit :=
  (Script.statements text).forM d.execute

end Database

end MediaCatalog.Index
