import HttpRoutes.Text.Reader
import HttpRoutes.Toml.Value

/-!
# Dates and times in TOML

* `date`, `time`, `offset` : the parts;
* `dateTime` : a date, a time, or a date and a time with or without an offset.
-/

namespace HttpRoutes.Toml

open Text Text.Reader

/-- A number of `width` digits between two bounds. -/
def fixedNumber (width low high : Nat) : Reader Nat := do
  let digits ← count (satisfy Char.isDigit) width
  let n := digits.foldl (fun n c => n * 10 + (c.toNat - '0'.toNat)) 0
  if low ≤ n && n ≤ high then return n else failure

def daysIn (year month : Nat) : Nat :=
  if month == 2 then
    if year % 4 == 0 && (year % 100 != 0 || year % 400 == 0) then 29 else 28
  else if [4, 6, 9, 11].contains month then 30
  else 31

def date : Reader Unit := do
  let year ← fixedNumber 4 0 9999
  let _ ← char '-'
  let month ← fixedNumber 2 1 12
  let _ ← char '-'
  let _ ← fixedNumber 2 1 (daysIn year month)

/-- A time of day, up to a leap second. -/
def time : Reader Unit := do
  let _ ← fixedNumber 2 0 23
  let _ ← char ':'
  let _ ← fixedNumber 2 0 59
  let _ ← char ':'
  let _ ← fixedNumber 2 0 60
  (do
    let _ ← char '.'
    let _ ← satisfy Char.isDigit
    let _ ← takeWhile Char.isDigit) <|> pure ()

/-- The distance from universal time. -/
def offset : Reader Unit :=
  (char 'Z' <|> char 'z').yields () <|> do
    let _ ← char '+' <|> char '-'
    let _ ← fixedNumber 2 0 23
    let _ ← char ':'
    let _ ← fixedNumber 2 0 59

def timeOfDate : Reader Unit := do
  let _ ← char 'T' <|> char 't' <|> char ' '
  time
  offset <|> pure ()

def dateTime : Reader Value := do
  return .dateTime (String.ofList
    (← captured ((do date; timeOfDate <|> pure ()) <|> time)))

end HttpRoutes.Toml
