import MediaCatalog.Number.Digits

namespace MediaCatalog

structure Date where
  year : Int
  month : Nat
  day : Nat
  deriving DecidableEq, Repr

def padZeros (width : Nat) (n : Nat) : String :=
  let s := natText n
  String.ofList (List.replicate (width - s.length) '0') ++ s

namespace Date

/-- Years are counted from March here, so that the leap day is the last one of its year. Four
hundred years have 146097 days. -/
def ofDay (n : Int) : Date :=
  let shifted := n + 719468
  let era := Int.fdiv shifted 146097
  let dayOfEra := (Int.fmod shifted 146097).toNat
  let yearOfEra := (dayOfEra - dayOfEra / 1460 + dayOfEra / 36524 - dayOfEra / 146096) / 365
  let dayOfYear := dayOfEra - (365 * yearOfEra + yearOfEra / 4 - yearOfEra / 100)
  let month := (5 * dayOfYear + 2) / 153
  let day := dayOfYear - (153 * month + 2) / 5 + 1
  let year : Int := yearOfEra + era * 400
  if month < 10 then ⟨year, month + 3, day⟩ else ⟨year + 1, month - 9, day⟩

def isLeapYear (year : Int) : Bool := year % 4 = 0 && (year % 100 ≠ 0 || year % 400 = 0)

def daysIn (year : Int) (month : Nat) : Nat :=
  match month with
  | 2 => if isLeapYear year then 29 else 28
  | 4 | 6 | 9 | 11 => 30
  | _ => 31

def isReal (d : Date) : Bool := 0 < d.year && d.day ≤ daysIn d.year d.month

def text (d : Date) : String :=
  padZeros 4 d.year.toNat ++ "-" ++ padZeros 2 d.month ++ "-" ++ padZeros 2 d.day

end Date

def secondsPerDay : Int := 86400

def dayOf (seconds : Int) : Int := Int.fdiv seconds secondsPerDay

def dateText (seconds : Int) : String := (Date.ofDay (dayOf seconds)).text

def timeText (seconds : Int) : String :=
  let n := (Int.fmod seconds secondsPerDay).toNat
  dateText seconds ++ "T" ++ padZeros 2 (n / 3600) ++ ":" ++ padZeros 2 (n / 60 % 60) ++ ":" ++
    padZeros 2 (n % 60)

def midnightAfter (seconds : Int) : Int := (dayOf seconds + 1) * secondsPerDay

end MediaCatalog
