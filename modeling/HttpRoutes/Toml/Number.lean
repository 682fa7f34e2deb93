import HttpRoutes.Text.Reader
import HttpRoutes.Toml.Text
import HttpRoutes.Toml.Value

/-!
# Numbers in TOML

* `integer` : an integer of 64 bits, in base 10, 16, 8 or 2;
* `float` : a number with a fraction or an exponent, infinity or not-a-number;
* `overflows` : whether a decimal number is too large for a double.
-/

namespace HttpRoutes.Toml

open Text Text.Reader

/-- Digits, with single underscores allowed in between and left out. -/
def digitRun (isDigit : Char → Bool) : Reader (List Char) := do
  return (← satisfy isDigit) :: (← many (satisfy isDigit <|> (char '_' *> satisfy isDigit)))

/-- Decimal digits without a needless zero in front. -/
def wholeDigits : Reader (List Char) :=
  (do let _ ← char '0'; return ['0']) <|> digitRun Char.isDigit

def sign : Reader Bool :=
  (char '+').yields false <|> (char '-').yields true <|> pure false

/-- The number that digits of a base denote. -/
def ofDigits (base : Nat) (digits : List Char) : Nat :=
  digits.foldl (fun n c => n * base + hexValue c) 0

/-- An integer, if 64 bits hold it. -/
def inRange (n : Int) : Reader Int :=
  if Int64.minValue.toInt ≤ n ∧ n ≤ Int64.maxValue.toInt then return n else failure

def based (mark : String) (base : Nat) (isDigit : Char → Bool) : Reader Int := do
  word mark
  inRange (ofDigits base (← digitRun isDigit))

def integer : Reader Value :=
  Value.integer <$>
    (based "0x" 16 isHexDigit <|> based "0o" 8 (fun c => '0' ≤ c && c ≤ '7') <|>
      based "0b" 2 (fun c => c == '0' || c == '1') <|> do
        let negative ← sign
        let n : Int := ofDigits 10 (← wholeDigits)
        inRange (if negative then -n else n))

/-- The least number that rounds to infinity: half a unit above the largest double. -/
def overflowBound : Nat := 1 <<< 1024 - 1 <<< 970

/-- Whether `digits * 10 ^ exponent` rounds to infinity. The number of digits settles all cases but
those close to the bound, which has 309 digits. -/
def overflows (digits : Nat) (exponent : Int) : Bool :=
  let size := (Nat.toDigits 10 digits).length + exponent
  if digits == 0 || size < 309 then false
  else if 309 < size then true
  else if 0 ≤ exponent then overflowBound ≤ digits * Nat.pow 10 exponent.toNat
  else overflowBound * Nat.pow 10 (-exponent).toNat ≤ digits

def exponent : Reader Int := do
  let _ ← char 'e' <|> char 'E'
  let negative ← sign
  let n : Int := ofDigits 10 (← digitRun Char.isDigit)
  return if negative then -n else n

/-- A number with a fraction, an exponent or both. One above the range of doubles is refused, one
below it is not. -/
def decimal : Reader Unit := do
  let negative ← sign
  let whole ← wholeDigits
  let (fraction, scale) ←
    (do
      let _ ← char '.'
      let fraction ← digitRun Char.isDigit
      return (fraction, ← exponent <|> pure 0)) <|>
    (do return ([], ← exponent))
  if !negative && overflows (ofDigits 10 (whole ++ fraction)) (scale - fraction.length) then failure

def special : Reader Unit := do
  let _ ← sign
  word "inf" <|> word "nan"

def float : Reader Value := do
  return .float (String.ofList (← captured (decimal <|> special)))

end HttpRoutes.Toml
