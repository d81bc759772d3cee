import TypedColumns.Toml.Scan

/-!
# TOML dates and times

A moment is a date, a time of day, or a date with a time of day and perhaps an offset from universal time.  Its fields
have a fixed number of digits and must be in range; a day must exist in its month.

* `twoDigits` -- a field of two digits within bounds.
* `date?`, `time?`, `offset?` -- what follows a date, a time of day, an offset.
* `beginsDate`, `beginsTime` -- whether a text can only be a date, or a time of day.
* `moment?` -- what follows a moment.
-/

namespace TypedColumns.Toml

/-- A field of two digits within bounds. -/
def twoDigits (low high : Nat) : Scan Nat
  | a :: b :: cs =>
    if a.isDigit && b.isDigit then
      let n := 10 * (a.toNat - '0'.toNat) + (b.toNat - '0'.toNat)
      if low ≤ n && n ≤ high then some (n, cs) else none
    else none
  | _ => none

/-- What follows one expected character. -/
def expect? (c : Char) : List Char → Option (List Char)
  | d :: cs => if d = c then some cs else none
  | [] => none

/-- Whether a year has a leap day. -/
def isLeapYear (year : Nat) : Bool := year % 4 == 0 && (year % 100 != 0 || year % 400 == 0)

/-- The number of days of a month. -/
def daysInMonth (year month : Nat) : Nat :=
  match month with
  | 2 => if isLeapYear year then 29 else 28
  | 4 | 6 | 9 | 11 => 30
  | _ => 31

/-- Whether a text begins with a year and a dash. -/
def beginsDate : List Char → Bool
  | a :: b :: c :: d :: '-' :: _ => a.isDigit && b.isDigit && c.isDigit && d.isDigit
  | _ => false

/-- Whether a text begins with an hour and a colon. -/
def beginsTime (cs : List Char) : Bool :=
  match twoDigits 0 23 cs with
  | some (_, ':' :: _) => true
  | _ => false

/-- What follows a date. -/
def date? (cs : List Char) : Option (List Char) := do
  let (century, cs) ← twoDigits 0 99 cs
  let (year, cs) ← twoDigits 0 99 cs
  let cs ← expect? '-' cs
  let (month, cs) ← twoDigits 1 12 cs
  let cs ← expect? '-' cs
  let (_, cs) ← twoDigits 1 (daysInMonth (100 * century + year) month) cs
  return cs

/-- What follows the fraction of a second, if there is one. -/
def skipFraction : List Char → List Char
  | '.' :: c :: cs => if c.isDigit then cs.dropWhile Char.isDigit else '.' :: c :: cs
  | cs => cs

/-- What follows a time of day. -/
def time? (cs : List Char) : Option (List Char) := do
  let (_, cs) ← twoDigits 0 23 cs
  let cs ← expect? ':' cs
  let (_, cs) ← twoDigits 0 59 cs
  let cs ← expect? ':' cs
  let (_, cs) ← twoDigits 0 60 cs
  return skipFraction cs

/-- What follows an offset, if there is one. -/
def offset? (cs : List Char) : Option (List Char) :=
  match cs with
  | [] => some []
  | c :: rest =>
    if c = 'Z' || c = 'z' then some rest
    else if c = '+' || c = '-' then do
      let (_, rest) ← twoDigits 0 23 rest
      let rest ← expect? ':' rest
      let (_, rest) ← twoDigits 0 59 rest
      return rest
    else some (c :: rest)

/-- What follows a date and, behind a letter or a blank, a time of day if there is one. -/
def dateTime? (cs : List Char) : Option (List Char) := do
  match ← date? cs with
  | c :: rest =>
    if (c = 'T' || c = 't' || c = ' ') && beginsTime rest then
      offset? (← time? rest)
    else return c :: rest
  | [] => return []

/-- What follows a moment. -/
def moment? (cs : List Char) : Option (List Char) := if beginsDate cs then dateTime? cs else time? cs

end TypedColumns.Toml
