import MediaCatalog.Failure
import MediaCatalog.Json

namespace MediaCatalog.Log

abbrev Level := Nat

def debug : Level := 10

def info : Level := 20

def warning : Level := 30

def error : Level := 40

def critical : Level := 50

inductive Arg where
  | text (s : String)
  | int (n : Int)
  | failure (f : Failure)
  | value (v : Json)
  deriving Repr

structure Record where
  level : Level
  logger : String
  template : String
  args : List Arg
  failure : Option Failure := none
  deriving Repr

end MediaCatalog.Log
