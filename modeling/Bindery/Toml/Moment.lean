namespace Bindery

/-!
# Dates and times

The written forms of dates, times of day and both with or without an offset from universal time.

* `daysIn` — the length of a month.
* `isDate`, `isTime`, `isOffset` — the parts; seconds may be missing, and a leap second is allowed.
* `isMoment` — the whole, with a `T` or a space between date and time.
-/

namespace Toml

/-- The number of two digits. -/
def twoDigits? (a b : Char) : Option Nat :=
  if a.isDigit && b.isDigit then some (10 * (a.toNat - '0'.toNat) + (b.toNat - '0'.toNat)) else none

/-- The days of a month. -/
def daysIn (year month : Nat) : Nat :=
  if month = 2 then
    if year % 4 = 0 ∧ (year % 100 ≠ 0 ∨ year % 400 = 0) then 29 else 28
  else if month = 4 ∨ month = 6 ∨ month = 9 ∨ month = 11 then 30
  else 31

/-- Whether the text is a date of the calendar. -/
def isDate : List Char → Bool
  | [y₁, y₂, y₃, y₄, '-', m₁, m₂, '-', d₁, d₂] =>
    match twoDigits? y₁ y₂, twoDigits? y₃ y₄, twoDigits? m₁ m₂, twoDigits? d₁ d₂ with
    | some century, some year, some month, some day =>
      1 ≤ month && month ≤ 12 && 1 ≤ day && day ≤ daysIn (100 * century + year) month
    | _, _, _, _ => false
  | _ => false

/-- Whether two digits are a number up to a bound. -/
def upTo (bound : Nat) (a b : Char) : Bool := (twoDigits? a b).any (· ≤ bound)

/-- Whether the text is a fraction of a second, or nothing. -/
def isFraction : List Char → Bool
  | [] => true
  | '.' :: digits => !digits.isEmpty && digits.all Char.isDigit
  | _ => false

/-- Whether the text is a time of day. -/
def isTime : List Char → Bool
  | h₁ :: h₂ :: ':' :: m₁ :: m₂ :: rest =>
    upTo 23 h₁ h₂ && upTo 59 m₁ m₂ &&
      match rest with
      | [] => true
      | ':' :: s₁ :: s₂ :: fraction => upTo 60 s₁ s₂ && isFraction fraction
      | _ => false
  | _ => false

/-- Whether the text is an offset from universal time. -/
def isOffset : List Char → Bool
  | [c] => c = 'Z' || c = 'z'
  | [sign, h₁, h₂, ':', m₁, m₂] =>
    (sign = '+' || sign = '-') && upTo 23 h₁ h₂ && upTo 59 m₁ m₂
  | _ => false

/-- Whether the text is a time of day, perhaps with an offset. -/
def isZonedTime (cs : List Char) : Bool :=
  let inTime (c : Char) : Bool := c.isDigit || c = ':' || c = '.'
  let offset := cs.dropWhile inTime
  isTime (cs.takeWhile inTime) && (offset.isEmpty || isOffset offset)

/-- Whether the text is a date, a time of day, or both. -/
def isMoment (cs : List Char) : Bool :=
  isTime cs || isDate cs ||
    match cs.drop 10 with
    | separator :: time =>
      isDate (cs.take 10) && (separator = 'T' || separator = 't' || separator = ' ') &&
        isZonedTime time
    | [] => false

end Toml

end Bindery
