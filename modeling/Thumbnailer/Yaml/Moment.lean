import Thumbnailer.Number.Reading

/-!
# Points in time

A date, with or without a time of day; the time may come with its zone.
-/

namespace Thumbnailer.Yaml

structure TimeOfDay where
  hour : Nat
  minute : Nat
  second : Nat
  microsecond : Nat
  zone : Option Int
deriving DecidableEq, Repr

structure Moment where
  year : Nat
  month : Nat
  day : Nat
  time : Option TimeOfDay
deriving DecidableEq, Repr

/-! ## Reading -/

def readNumber? (least most : Nat) (s : List Char) : Option (Nat × List Char) :=
  let ds := (s.take most).takeWhile Char.isDigit
  if ds.length < least then none else some (Double.digitsValue ds, s.drop ds.length)

def readMark? (mark : Char) : List Char → Option (List Char)
  | c :: rest => if c == mark then some rest else none
  | [] => none

def isGap (c : Char) : Bool := c == ' ' || c == '\t'

/-- Reads the zone behind a time of day, up to the end. -/
def readZone? (s : List Char) : Option (Option Int) :=
  if s.isEmpty then some none
  else
    match s.dropWhile isGap with
    | ['Z'] => some (some 0)
    | sign :: rest =>
      if sign == '+' || sign == '-' then do
        let (hours, rest) ← readNumber? 1 2 rest
        let minutes ←
          if rest.isEmpty then pure 0
          else
            let (minutes, rest) ← readNumber? 2 2 (← readMark? ':' rest)
            if rest.isEmpty then pure minutes else none
        let distance : Int := hours * 60 + minutes
        return some (if sign == '-' then -distance else distance)
      else none
    | [] => none

/-- Reads the part of a second behind a point, if there is one. Six digits count. -/
def readFraction (s : List Char) : Nat × List Char :=
  match s with
  | '.' :: rest =>
    let ds := rest.takeWhile Char.isDigit
    let six := ds.take 6
    (Double.digitsValue (six ++ List.replicate (6 - six.length) '0'), rest.drop ds.length)
  | s => (0, s)

/-- Reads what stands between a date and its time of day. -/
def readBetween? (s : List Char) : Option (List Char) :=
  match s with
  | 'T' :: rest => some rest
  | 't' :: rest => some rest
  | c :: rest => if isGap c then some (rest.dropWhile isGap) else none
  | [] => none

/-- Reads a time of day with its zone, up to the end. -/
def readTime? (s : List Char) : Option TimeOfDay := do
  let (hour, s) ← readNumber? 1 2 s
  let (minute, s) ← readNumber? 2 2 (← readMark? ':' s)
  let (second, s) ← readNumber? 2 2 (← readMark? ':' s)
  let (microsecond, s) := readFraction s
  return { hour, minute, second, microsecond, zone := ← readZone? s }

/-- Reads a point in time. One newline may follow it. -/
def Moment.read? (text : String) : Option Moment := do
  let s := text.toList
  let s := if s.getLast? = some '\n' then s.dropLast else s
  let (year, s) ← readNumber? 4 4 s
  let (month, s) ← readNumber? 1 2 (← readMark? '-' s)
  let (day, s) ← readNumber? 1 2 (← readMark? '-' s)
  let time ← if s.isEmpty then pure none else (readTime? (← readBetween? s)).map some
  return { year, month, day, time }

/-- The text is written as a point in time: a date alone has two digits for month and day. -/
def isMoment (text : String) : Bool :=
  match Moment.read? text with
  | some m => m.time.isSome || ((text.toList.filter (· != '\n')).length == 10)
  | none => false

/-! ## Checking -/

inductive MomentError where
  /-- The zone is a day or more away from universal time. -/
  | zone (minutes : Int)
  | year (year : Nat)
  | month
  | day
  | hour
  | minute
  | second
deriving DecidableEq, Repr

/-- A length of time in minutes, as days and seconds. -/
def shownMinutes (minutes : Int) : String :=
  let days := minutes.fdiv 1440
  let seconds := (minutes.fmod 1440) * 60
  let parts := (if days = 0 then [] else [s!"days={days}"]) ++ if seconds = 0 then [] else [s!"seconds={seconds}"]
  if parts.isEmpty then "datetime.timedelta(0)" else "datetime.timedelta(" ++ ", ".intercalate parts ++ ")"

def MomentError.message : MomentError → String
  | .zone minutes =>
    s!"offset must be a timedelta strictly between -timedelta(hours=24) and timedelta(hours=24), not {shownMinutes minutes}."
  | .year n => s!"year {n} is out of range"
  | .month => "month must be in 1..12"
  | .day => "day is out of range for month"
  | .hour => "hour must be in 0..23"
  | .minute => "minute must be in 0..59"
  | .second => "second must be in 0..59"

def daysIn (year month : Nat) : Nat :=
  if month = 2 then
    if year % 4 = 0 && (year % 100 != 0 || year % 400 = 0) then 29 else 28
  else if month = 4 || month = 6 || month = 9 || month = 11 then 30
  else 31

def TimeOfDay.error? (t : TimeOfDay) : Option MomentError :=
  if t.hour > 23 then some .hour
  else if t.minute > 59 then some .minute
  else if t.second > 59 then some .second
  else none

/-- The zone, if it is too far away. -/
def TimeOfDay.farZone? (t : TimeOfDay) : Option Int := t.zone.filter fun minutes => minutes.natAbs ≥ 1440

def Moment.error? (m : Moment) : Option MomentError :=
  match m.time.bind TimeOfDay.farZone? with
  | some minutes => some (.zone minutes)
  | none =>
    if m.year = 0 then some (.year m.year)
    else if m.month = 0 || m.month > 12 then some .month
    else if m.day = 0 || m.day > daysIn m.year m.month then some .day
    else m.time.bind TimeOfDay.error?

/-! ## Writing -/

/-- A zone as a message shows it. -/
def shownZone (minutes : Int) : String :=
  if minutes = 0 then "datetime.timezone.utc" else s!"datetime.timezone({shownMinutes minutes})"

/-- A point in time as a message shows it: seconds and their parts are left out if nothing but zeros follows. -/
def Moment.shown (m : Moment) : String :=
  match m.time with
  | none => s!"datetime.date({m.year}, {m.month}, {m.day})"
  | some t =>
    let fine :=
      if t.microsecond != 0 then [t.second, t.microsecond] else if t.second != 0 then [t.second] else []
    let parts := [m.year, m.month, m.day, t.hour, t.minute] ++ fine
    let zone := (t.zone.map fun minutes => ", tzinfo=" ++ shownZone minutes).getD ""
    "datetime.datetime(" ++ ", ".intercalate (parts.map toString) ++ zone ++ ")"

end Thumbnailer.Yaml
