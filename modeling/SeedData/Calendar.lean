/-
Dates, times of day and their text. A date is a day on the unbounded line of days
of the Gregorian calendar; `Date.isSupported` marks the years that a table may
hold.
-/
import SeedData.Text.Blank

namespace SeedData

/-- A date, as the number of days since 1970-01-01. -/
structure Date where
  day : Int
  deriving DecidableEq, Repr

/-- A date by year, month and day of the month. -/
structure CivilDate where
  year : Int
  month : Int
  day : Int
  deriving DecidableEq, Repr

namespace Date

/-- The date of a civil date. Years start in March here, so that a leap day is
the last of its year; 400 years are 146097 days. -/
def ofCivil (c : CivilDate) : Date :=
  let y := if c.month ≤ 2 then c.year - 1 else c.year
  let era := y.fdiv 400
  let yearOfEra := y - era * 400
  let monthOfYear := if c.month > 2 then c.month - 3 else c.month + 9
  let dayOfYear := (153 * monthOfYear + 2) / 5 + c.day - 1
  let dayOfEra := yearOfEra * 365 + yearOfEra / 4 - yearOfEra / 100 + dayOfYear
  ⟨era * 146097 + dayOfEra - 719468⟩

def civil (d : Date) : CivilDate :=
  let z := d.day + 719468
  let era := z.fdiv 146097
  let dayOfEra := z - era * 146097
  let yearOfEra := (dayOfEra - dayOfEra / 1460 + dayOfEra / 36524 - dayOfEra / 146096) / 365
  let dayOfYear := dayOfEra - (365 * yearOfEra + yearOfEra / 4 - yearOfEra / 100)
  let monthOfYear := (5 * dayOfYear + 2) / 153
  let month := if monthOfYear < 10 then monthOfYear + 3 else monthOfYear - 9
  let year := yearOfEra + era * 400
  { year := if month ≤ 2 then year + 1 else year
    month := month
    day := dayOfYear - (153 * monthOfYear + 2) / 5 + 1 }

def addDays (d : Date) (n : Int) : Date := ⟨d.day + n⟩

def first : Date := ofCivil ⟨-262143, 1, 1⟩

def last : Date := ofCivil ⟨262142, 12, 31⟩

/-- Whether the date lies in the supported years. -/
def isSupported (d : Date) : Bool := first.day ≤ d.day && d.day ≤ last.day

end Date

def isLeapYear (year : Int) : Bool := year % 4 == 0 && (year % 100 != 0 || year % 400 == 0)

def daysInMonth (year month : Int) : Int :=
  if month == 2 then (if isLeapYear year then 29 else 28)
  else if month == 4 || month == 6 || month == 9 || month == 11 then 30
  else 31

/-- Whether the year has the month, and the month the day. -/
def CivilDate.isValid (c : CivilDate) : Bool :=
  1 ≤ c.month && c.month ≤ 12 && 1 ≤ c.day && c.day ≤ daysInMonth c.year c.month

/-- A time of day. A minute that ends in a leap second has a sixtieth second. -/
structure TimeOfDay where
  hour : Nat
  minute : Nat
  second : Nat
  deriving DecidableEq, Repr

def secondsPerDay : Nat := 86400

def TimeOfDay.ofSeconds (n : Nat) : TimeOfDay := ⟨n / 3600, n / 60 % 60, n % 60⟩

/-! ## Text -/

/-- The number in decimal digits, with zeros in front up to `width`. -/
def padded (width n : Nat) : String :=
  let digits := Nat.toDigits 10 n
  String.ofList (List.replicate (width - digits.length) '0' ++ digits)

/-- A year in four digits; one outside 0 to 9999 has its sign. -/
def yearText (year : Int) : String :=
  if 0 ≤ year ∧ year ≤ 9999 then padded 4 year.toNat
  else if year < 0 then "-" ++ padded 4 (-year).toNat
  else "+" ++ padded 4 year.toNat

/-- Year, month and day with hyphens between them. -/
def Date.text (d : Date) : String :=
  let c := d.civil
  yearText c.year ++ "-" ++ padded 2 c.month.toNat ++ "-" ++ padded 2 c.day.toNat

/-- Hour, minute and second with colons between them. -/
def TimeOfDay.text (t : TimeOfDay) : String :=
  padded 2 t.hour ++ ":" ++ padded 2 t.minute ++ ":" ++ padded 2 t.second

/-! ## Reading text -/

/-- The number that up to `width` leading digits write, at least one of them, and
the text after them. Blanks in front are skipped. -/
def readNumber? (width : Nat) (s : List Char) : Option (Nat × List Char) :=
  let s := Text.trimLeft s
  let digits := (s.take width).takeWhile Char.isDigit
  if digits.isEmpty then none
  else some (digits.foldl (fun n c => 10 * n + (c.toNat - '0'.toNat)) 0, s.drop digits.length)

/-- A year: up to four digits, or a sign and any number of them. -/
def readYear? (s : List Char) : Option (Int × List Char) :=
  match Text.trimLeft s with
  | '-' :: r => signed r |>.map fun (n, r) => (-n, r)
  | '+' :: r => signed r
  | r => (readNumber? 4 r).map fun (n, r) => ((n : Int), r)
where
  /-- All the digits that follow a sign; none may be missing. -/
  signed (r : List Char) : Option (Int × List Char) :=
    match r with
    | c :: _ => if c.isDigit then (readNumber? r.length r).map fun (n, r) => ((n : Int), r) else none
    | [] => none

/-- The text after a separator, blanks in front of which are skipped. -/
def afterMark? (mark : Char) (s : List Char) : Option (List Char) :=
  match Text.trimLeft s with
  | c :: r => if c = mark then some r else none
  | [] => none

/-- The date that a text of year, month and day writes, if it is one of the
calendar and lies in the supported years. -/
def Date.ofText? (text : String) : Option Date := do
  let (year, r) ← readYear? text.toList
  let r ← afterMark? '-' r
  let (month, r) ← readNumber? 2 r
  let r ← afterMark? '-' r
  let (day, r) ← readNumber? 2 r
  let civil : CivilDate := ⟨year, month, day⟩
  let date := Date.ofCivil civil
  if (Text.trimLeft r).isEmpty && civil.isValid && date.isSupported then some date else none

/-- The time of day that a text of hour, minute and second writes. -/
def TimeOfDay.ofText? (text : String) : Option TimeOfDay := do
  let (hour, r) ← readNumber? 2 text.toList
  let r ← afterMark? ':' r
  let (minute, r) ← readNumber? 2 r
  let r ← afterMark? ':' r
  let (second, r) ← readNumber? 2 r
  if r.isEmpty && hour ≤ 23 && minute ≤ 59 && second ≤ 60 then some ⟨hour, minute, second⟩ else none

end SeedData
