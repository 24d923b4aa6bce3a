import VhdlFrontEnd.Toml.Number

/-!
# Dates and times

A date, a time of day, or both with or without an offset from universal time. The parts must
make a day of the calendar and a time of the day.
-/

namespace VhdlFrontEnd.Toml

/-- Exactly `n` digits; their value. -/
def digitsOf : Nat → Reader (List Char)
  | 0 => return []
  | n + 1 => do
    let first ← Reader.one Char.isDigit
    return first :: (← digitsOf n)

/-- Two digits with a value in a range. -/
def part (low high : Nat) : Reader Nat := do
  let n := digitsValue 10 (← digitsOf 2)
  if low ≤ n && n ≤ high then return n else failure

/-- Every fourth year is a leap year, but of the full centuries only every fourth. -/
def isLeapYear (year : Nat) : Bool := year % 4 == 0 && (year % 100 != 0 || year % 400 == 0)

/-- The number of days of a month. -/
def daysIn (year month : Nat) : Nat :=
  if month = 2 then if isLeapYear year then 29 else 28
  else if month = 4 || month = 6 || month = 9 || month = 11 then 30
  else 31

/-- Year, month and day. -/
def date : Reader Unit := do
  let year := digitsValue 10 (← digitsOf 4)
  Reader.char '-'
  let month ← part 1 12
  Reader.char '-'
  discard (part 1 (daysIn year month))

/-- Hours, minutes and seconds, with a fraction or without. A minute may have a leap second. -/
def time : Reader Unit := do
  discard (part 0 23)
  Reader.char ':'
  discard (part 0 59)
  Reader.char ':'
  discard (part 0 60)
  discard (Reader.option (Reader.char '.' *> Reader.someOf Char.isDigit))

/-- The offset from universal time. -/
def offset : Reader Unit :=
  discard (Reader.one fun c => c == 'Z' || c == 'z') <|> do
    discard (Reader.one fun c => c == '+' || c == '-')
    discard (part 0 23)
    Reader.char ':'
    discard (part 0 59)

/-- The time after a date, with its offset. -/
def timeOfDate : Reader Unit := do
  discard (Reader.one fun c => c == 'T' || c == 't' || c == ' ')
  time
  discard (Reader.option offset)

/-- A date with a time or without, or a time alone. -/
def moment : Reader Unit := (date *> discard (Reader.option timeOfDate)) <|> time

end VhdlFrontEnd.Toml
