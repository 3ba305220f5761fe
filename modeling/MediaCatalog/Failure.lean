import MediaCatalog.Number.Digits

namespace MediaCatalog

inductive Cause where
  | system
  | notFound
  | denied
  | isDirectory
  | notDirectory
  | alreadyExists
  | timedOut
  | unknownImage
  | value
  | unicode
  | encoding
  | refused
  | badToml
  | badJson
  | runtime
  | key
  | type
  | attribute
  | index
  | overflow
  | hugeImage
  | indexQuery
  | integrity
  | operational
  | database
  | other (name : String)
  deriving DecidableEq, Repr

def Cause.isSystem : Cause → Bool
  | .system | .notFound | .denied | .isDirectory | .notDirectory | .alreadyExists | .timedOut
  | .unknownImage => true
  | _ => false

def Cause.isValue : Cause → Bool
  | .value | .unicode | .encoding | .refused | .badToml | .badJson => true
  | _ => false

inductive Flaw where
  | missing
  | recordType
  | recordShape
  | listType
  | textType
  | textUnicode
  | intType
  | intText
  | intFraction
  | intSize
  | floatType
  | floatText
  | finite
  | tooShort
  | tooLong
  | choice
  | member
  | frozen
  | malformed
  deriving DecidableEq, Repr

def Flaw.code : Flaw → String
  | .missing => "missing"
  | .recordType => "model_type"
  | .recordShape => "model_attributes_type"
  | .listType => "list_type"
  | .textType => "string_type"
  | .textUnicode => "string_unicode"
  | .intType => "int_type"
  | .intText => "int_parsing"
  | .intFraction => "int_from_float"
  | .intSize => "int_parsing_size"
  | .floatType => "float_type"
  | .floatText => "float_parsing"
  | .finite => "finite_number"
  | .tooShort => "too_short"
  | .tooLong => "too_long"
  | .choice => "literal_error"
  | .member => "enum"
  | .frozen => "frozen_instance"
  | .malformed => "json_invalid"

inductive Step where
  | field (name : String)
  | item (index : Nat)
  deriving DecidableEq, Repr

structure FieldError where
  flaw : Flaw
  place : List Step
  deriving DecidableEq, Repr

structure Failure where
  cause : Cause
  message : String
  fields : List FieldError := []
  deriving DecidableEq, Repr

namespace Failure

def ofValue (message : String) : Failure := ⟨.value, message, []⟩

def ofFields (fields : List FieldError) : Failure := ⟨.refused, "", fields⟩

def isSystem (f : Failure) : Bool := f.cause.isSystem

def isValue (f : Failure) : Bool := f.cause.isValue

def isExpected (f : Failure) : Bool := f.isSystem || f.isValue

end Failure

end MediaCatalog
