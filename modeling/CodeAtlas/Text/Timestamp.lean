/-
# Points in time as text

A point in time is a number of milliseconds since the beginning of 1970. It is written as date and time
of day in Universal Time, with milliseconds only where there are some. A year after 9999 has a sign in
front. Points after the last day of the year 262142 have no text.

Key definitions: `Timestamp.dateOf`, `Timestamp.text?`.
-/
namespace CodeAtlas.Timestamp

/-- A day of the calendar. -/
structure Date where
  year : Nat
  month : Nat
  day : Nat
  deriving DecidableEq

/-- The day that is the given number of days after the first of January 1970. Years are counted from
March on, so that a leap day comes last, and in spans of four hundred years. -/
def dateOf (days : Nat) : Date :=
  let shifted := days + 719468
  let span := shifted / 146097
  let dayOfSpan := shifted % 146097
  let yearOfSpan := (dayOfSpan - dayOfSpan / 1460 + dayOfSpan / 36524 - dayOfSpan / 146096) / 365
  let dayOfYear := dayOfSpan - (365 * yearOfSpan + yearOfSpan / 4 - yearOfSpan / 100)
  let monthFromMarch := (5 * dayOfYear + 2) / 153
  let day := dayOfYear - (153 * monthFromMarch + 2) / 5 + 1
  let month := if monthFromMarch < 10 then monthFromMarch + 3 else monthFromMarch - 9
  ⟨yearOfSpan + span * 400 + (if month ≤ 2 then 1 else 0), month, day⟩

/-- A number with at least the given count of digits. -/
def padded (width n : Nat) : String :=
  let digits := toString n
  String.ofList (List.replicate (width - digits.length) '0') ++ digits

/-- The text of a year. -/
def yearText (year : Nat) : String := if 9999 < year then "+" ++ toString year else padded 4 year

/-- The last point in time that has a text. -/
def last : Nat := 8210266876799999

/-- The text of a point in time. -/
def text? (millis : Nat) : Option String :=
  if last < millis then none
  else
    let date := dateOf (millis / 86400000)
    let ofDay := millis % 86400000
    let fraction := ofDay % 1000
    some (yearText date.year ++ "-" ++ padded 2 date.month ++ "-" ++ padded 2 date.day ++ "T" ++
      padded 2 (ofDay / 3600000) ++ ":" ++ padded 2 (ofDay / 60000 % 60) ++ ":" ++
      padded 2 (ofDay / 1000 % 60) ++ (if fraction = 0 then "" else "." ++ padded 3 fraction) ++ "Z")

end CodeAtlas.Timestamp
