import Blueprint.Decimal.Numeral

/-!
# TOML dates and times

A date, a time of day, or both of them, and then perhaps with the distance from universal time. Each
is read from the text it starts, and written with two digits to a part, four to the year, and a
fraction of a second only where there is one. Where it stands by itself its bounds are those of a
clock; the text of a string that spells one may also end a day at its last hour, and lie as far from
universal time as a day is long.
-/
namespace Blueprint.Toml

structure Date where
  year : Nat
  month : Nat
  day : Nat
  deriving DecidableEq

structure Time where
  hour : Nat
  minute : Nat
  second : Nat
  nanosecond : Nat := 0
  deriving DecidableEq

/-- The distance of a local time from universal time. -/
inductive Offset where
  | universal
  | minutes (n : Int)
  deriving DecidableEq

inductive DateTime where
  | date (d : Date)
  | time (t : Time)
  | dateTime (d : Date) (t : Time) (offset : Option Offset)
  deriving DecidableEq

/-- How far the parts of a time go. -/
structure TimeBounds where
  lastHour : Nat
  /-- The distance from universal time, in hours and minutes. -/
  isOffset : Nat → Nat → Bool

/-- The bounds of a time that stands by itself. -/
def TimeBounds.plain : TimeBounds where
  lastHour := 23
  isOffset hours minutes := hours ≤ 23 && minutes ≤ 59

/-- The bounds of a time that a string spells. -/
def TimeBounds.spelled : TimeBounds where
  lastHour := 24
  isOffset hours minutes := 60 * hours + minutes ≤ 24 * 60

/-- The digits of a number, with zeros in front up to a width. -/
def padded (width n : Nat) : String :=
  let digits := Nat.toDigits 10 n
  String.ofList (List.replicate (width - digits.length) '0' ++ digits)

def takeFixed (width : Nat) (s : List Char) : Option (Nat × List Char) :=
  let digits := s.take width
  if digits.length = width ∧ digits.all Char.isDigit then
    some (Numeral.natOf digits, s.drop width)
  else none

def skipMark (mark : Char) : List Char → Option (List Char)
  | c :: rest => if c = mark then some rest else none
  | [] => none

namespace Date

def isLeapYear (year : Nat) : Bool :=
  year % 4 == 0 && (year % 100 != 0 || year % 400 == 0)

def daysInMonth (year month : Nat) : Nat :=
  if month = 2 then if isLeapYear year then 29 else 28
  else if month = 4 ∨ month = 6 ∨ month = 9 ∨ month = 11 then 30
  else 31

def isValid (d : Date) : Bool :=
  1 ≤ d.month && d.month ≤ 12 && 1 ≤ d.day && d.day ≤ daysInMonth d.year d.month

def text (d : Date) : String :=
  padded 4 d.year ++ "-" ++ padded 2 d.month ++ "-" ++ padded 2 d.day

def take? (s : List Char) : Option (Date × List Char) := do
  let (year, s) ← takeFixed 4 s
  let (month, s) ← takeFixed 2 (← skipMark '-' s)
  let (day, s) ← takeFixed 2 (← skipMark '-' s)
  let d : Date := ⟨year, month, day⟩
  if d.isValid then some (d, s) else none

end Date

namespace Time

def isValid (bounds : TimeBounds) (t : Time) : Bool :=
  t.hour ≤ bounds.lastHour && t.minute ≤ 59 && t.second ≤ 60

/-- The digits of a fraction of a second, without the zeros at its end. -/
def fractionDigits (nanosecond : Nat) : String :=
  String.ofList ((padded 9 nanosecond).toList.reverse.dropWhile (· == '0')).reverse

def text (t : Time) : String :=
  let whole := padded 2 t.hour ++ ":" ++ padded 2 t.minute ++ ":" ++ padded 2 t.second
  if t.nanosecond = 0 then whole else whole ++ "." ++ fractionDigits t.nanosecond

/-- A fraction of a second in nanoseconds. Digits beyond the ninth do not count. -/
def takeFraction (s : List Char) : Nat × List Char :=
  match s with
  | '.' :: rest =>
    match Numeral.takeDigits? rest with
    | some (digits, rest) =>
      let kept := digits.take 9
      (Numeral.natOf (kept ++ List.replicate (9 - kept.length) '0'), rest)
    | none => (0, s)
  | s => (0, s)

def take? (bounds : TimeBounds) (s : List Char) : Option (Time × List Char) := do
  let (hour, s) ← takeFixed 2 s
  let (minute, s) ← takeFixed 2 (← skipMark ':' s)
  let (second, s) ← takeFixed 2 (← skipMark ':' s)
  let (nanosecond, s) := takeFraction s
  let t : Time := ⟨hour, minute, second, nanosecond⟩
  if t.isValid bounds then some (t, s) else none

end Time

namespace Offset

def text : Offset → String
  | universal => "Z"
  | minutes n =>
    (if n < 0 then "-" else "+") ++ padded 2 (n.natAbs / 60) ++ ":" ++ padded 2 (n.natAbs % 60)

/-- Hours and minutes behind a sign. -/
def takeMinutes? (bounds : TimeBounds) (s : List Char) : Option (Nat × List Char) := do
  let (hours, s) ← takeFixed 2 s
  let (rest, s) ← takeFixed 2 (← skipMark ':' s)
  if bounds.isOffset hours rest then some (60 * hours + rest, s) else none

def take? (bounds : TimeBounds) : List Char → Option (Offset × List Char)
  | 'Z' :: rest | 'z' :: rest => some (universal, rest)
  | '+' :: rest => (takeMinutes? bounds rest).map fun (n, rest) => (minutes n, rest)
  | '-' :: rest => (takeMinutes? bounds rest).map fun (n, rest) => (minutes (-n), rest)
  | _ => none

end Offset

namespace DateTime

def text : DateTime → String
  | date d => d.text
  | time t => t.text
  | dateTime d t offset => d.text ++ "T" ++ t.text ++ (offset.map Offset.text).getD ""

/-- A time of day that follows a date, behind the letter or the blank that joins them. -/
def takeJoined? (bounds : TimeBounds) : List Char → Option (Time × List Char)
  | 'T' :: rest | 't' :: rest | ' ' :: rest => Time.take? bounds rest
  | _ => none

/-- The date or time that a text starts with. A date without a time behind it stands for itself. -/
def take? (bounds : TimeBounds) (s : List Char) : Option (DateTime × List Char) :=
  match Date.take? s with
  | none => (Time.take? bounds s).map fun (t, rest) => (time t, rest)
  | some (d, rest) =>
    match takeJoined? bounds rest with
    | none => some (date d, rest)
    | some (t, rest) =>
      match Offset.take? bounds rest with
      | none => some (dateTime d t none, rest)
      | some (offset, rest) => some (dateTime d t (some offset), rest)

/-- The date or time that the text of a string spells, all of it. -/
def ofText? (s : String) : Option DateTime :=
  match take? .spelled s.toList with
  | some (t, []) => some t
  | _ => none

end DateTime
end Blueprint.Toml
