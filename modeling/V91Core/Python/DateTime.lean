import V91Core.Python.Number

namespace V91Core.Python

section Calendar

def isLeap (year : Nat) : Bool := year % 4 = 0 && (year % 100 ≠ 0 || year % 400 = 0)

def daysInMonth (year month : Nat) : Nat :=
  if month = 2 then if isLeap year then 29 else 28
  else if month ∈ [4, 6, 9, 11] then 30 else 31

-- `date(year, month, day).toordinal()`: the first day of the year 1 is 1.
def toOrdinal (year month day : Nat) : Nat :=
  let before := year - 1
  before * 365 + before / 4 - before / 100 + before / 400 +
    ((List.range' 1 (month - 1)).map (daysInMonth year)).sum + day

-- `date.max.toordinal()`.
def maxOrdinal : Nat := toOrdinal 9999 12 31

-- Monday is 0.
def weekday (ordinal : Nat) : Nat := (ordinal + 6) % 7

def calendarDay (year month day : Nat) : Option Nat :=
  if 1 ≤ year ∧ year ≤ 9999 ∧ 1 ≤ month ∧ month ≤ 12 ∧ 1 ≤ day ∧ day ≤ daysInMonth year month then
    some (toOrdinal year month day)
  else none

-- The day of an ISO week. A year has 53 weeks if it starts on a Thursday, or on a
-- Wednesday and is a leap year.
def weekDay (year week day : Nat) : Option Nat :=
  let first := toOrdinal year 1 1
  let weeks := if weekday first = 3 ∨ (weekday first = 2 ∧ isLeap year) then 53 else 52
  let monday := first - weekday first + if 3 < weekday first then 7 else 0
  let ordinal := monday + (week - 1) * 7 + (day - 1)
  if 1 ≤ year ∧ 1 ≤ week ∧ week ≤ weeks ∧ 1 ≤ day ∧ day ≤ 7 ∧ ordinal ≤ maxOrdinal then some ordinal
  else none

end Calendar

section Scan

-- A number of exactly `n` digits.
def scanDigits (n : Nat) (s : PyStr) : Option (Nat × PyStr) :=
  let digits := s.take n
  if digits.length = n && digits.all CodePoint.isDigit then some (natOfDigits digits, s.drop n) else none

def skipChar (c : CodePoint) : PyStr → Option PyStr
  | d :: rest => if d = c then some rest else none
  | [] => none

-- Where the date of an ISO text ends. A week may have a day, and after a week the
-- separator may be a digit or a hyphen.
def findSeparator (s : PyStr) : Option Nat :=
  if s.length = 7 then some 7
  else if s[4]? = some (cp '-') then
    if s[5]? ≠ some (cp 'W') then some 10
    else if s[8]? ≠ some (cp '-') then some 8
    else if s.length = 9 then none
    else if s[10]?.any CodePoint.isDigit then some 8 else some 10
  else if s[4]? = some (cp 'W') then
    let stop := 7 + ((s.drop 7).takeWhile CodePoint.isDigit).length
    if stop < 9 then some stop else if stop % 2 = 0 then some 7 else some 8
  else some 8

-- The date at the start of `s`, of the given length.
def scanDate (s : PyStr) (length : Nat) : Option Nat := do
  let (year, rest) ← scanDigits 4 s
  let dashed := rest.head? = some (cp '-')
  let rest := if dashed then rest.tail else rest
  if rest.head? = some (cp 'W') then
    let (week, rest) ← scanDigits 2 rest.tail
    if s.length - rest.length < length then
      let rest ← if dashed then skipChar (cp '-') rest else some rest
      let (day, _) ← scanDigits 1 rest
      weekDay year week day
    else weekDay year week 1
  else
    let (month, rest) ← scanDigits 2 rest
    let rest ← if dashed then skipChar (cp '-') rest else some rest
    let (day, _) ← scanDigits 2 rest
    calendarDay year month day

-- A time of the day, or an offset: hours, minutes and seconds, and microseconds.
-- `unread` tells that the text goes on after them.
structure ClockText where
  fields : List Nat
  micros : Nat
  unread : Bool

def ClockText.seconds (t : ClockText) : Nat :=
  t.fields.getD 0 0 * 3600 + t.fields.getD 1 0 * 60 + t.fields.getD 2 0

-- The parser takes a null character for the end of the text.
def goesOn (s : PyStr) : Bool :=
  match s with
  | [] => false
  | c :: _ => c ≠ chr 0

-- Digits after the sixth one are skipped.
def scanFraction6 (s : PyStr) : Option ClockText := do
  let n := min 6 s.length
  let (value, rest) ← scanDigits n s
  some ⟨[], value * 10 ^ (6 - n), goesOn (rest.dropWhile CodePoint.isDigit)⟩

-- The fields that are left to read. What follows the hours tells whether colons
-- separate the fields.
def scanClock : Nat → Option Bool → PyStr → Option ClockText
  | 0, _, s => scanFraction6 s
  | n + 1, colons, s => do
      let (value, rest) ← scanDigits 2 s
      match rest with
      | [] => some ⟨[value], 0, false⟩
      | c :: tail =>
          let colons := colons.getD (c = cp ':')
          if tail = [] then if c.isAscii then some ⟨[value], 0, goesOn rest⟩ else none
          else
            let later ←
              if colons && c = cp ':' then scanClock n colons tail
              else if c = cp '.' ∨ c = cp ',' then scanFraction6 tail
              else if !colons then scanClock n colons rest
              else none
            some { later with fields := value :: later.fields }

-- `datetime.utcoffset()` in microseconds. Less than a second is no offset.
def scanOffset (sign : CodePoint) (s : PyStr) : Option Int :=
  if sign = cp 'Z' then if goesOn s then none else some 0
  else do
    let t ← scanClock 3 none s
    let micros := if t.seconds = 0 then 0 else t.seconds * 1000000 + t.micros
    if t.unread || 86400000000 ≤ micros then none
    else some (if sign = cp '-' then -micros else micros)

end Scan

-- A `datetime`: the microseconds that its clock shows since the day 0, and how far
-- that clock is ahead of UTC.
structure DateTime where
  wall : Nat
  offset : Option Int
deriving DecidableEq

section FromIso

def scanTime (s : PyStr) : Option (Nat × Option Int) := do
  let clock := s.takeWhile fun c => c ≠ cp '+' && c ≠ cp '-' && c ≠ cp 'Z'
  let t ← scanClock 3 none clock
  let offset ←
    match s.drop clock.length with
    | [] => if t.unread then none else some none
    | sign :: zone => (scanOffset sign zone).map some
  if t.fields.getD 0 0 ≤ 23 ∧ t.fields.getD 1 0 ≤ 59 ∧ t.fields.getD 2 0 ≤ 59 then
    some (t.seconds * 1000000 + t.micros, offset)
  else none

-- A surrogate may stand for the separator, and nowhere else.
def sanitize (s : PyStr) : PyStr :=
  match [7, 8, 10].find? fun i => s[i]?.any CodePoint.isSurrogate with
  | some i => s.set i (cp 'T')
  | none => s

-- `datetime.fromisoformat(text)`, where `none` is a `ValueError`.
def fromIsoFormat (text : PyStr) : Option DateTime := do
  let s := sanitize text
  if s.length < 7 || s.any CodePoint.isSurrogate then none
  let separator ← findSeparator s
  let day ← scanDate s separator
  let (time, offset) ← if s.length ≤ separator then some (0, none) else scanTime (s.drop (separator + 1))
  some ⟨day * 86400000000 + time, offset⟩

end FromIso

end V91Core.Python
