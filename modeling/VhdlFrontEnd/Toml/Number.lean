import VhdlFrontEnd.Text.Charset
import VhdlFrontEnd.Toml.Reader

/-!
# Numbers

Whole numbers in base ten, sixteen, eight or two within 64 bits, and numbers with a point or an
exponent. A single underscore may stand between two digits.
-/

namespace VhdlFrontEnd.Toml

/-- The largest whole number. -/
def integerMax : Nat := 9223372036854775807

/-- A digit of the class `p` and more digits, each after an underscore or directly. The
underscores are left out. -/
def digitRun (p : Char → Bool) : Reader (List Char) := do
  let first ← Reader.one p
  let rest ← Reader.many ((Reader.char '_' *> Reader.one p) <|> Reader.one p)
  return first :: rest

/-- The value of digits in a base. -/
def digitsValue (base : Nat) (digits : List Char) : Nat :=
  digits.foldl (fun n c => base * n + (Text.digitValue? c).getD 0) 0

/-- A sign or none; whether it is a minus. -/
def sign : Reader Bool :=
  (Reader.char '-' *> pure true) <|> (Reader.char '+' *> pure false) <|> pure false

/-- A sign or none, and digits of base ten without a zero in front. -/
def decimal : Reader (Bool × List Char) := do
  let negative ← sign
  let digits ← (Reader.char '0' *> pure ['0']) <|> digitRun Char.isDigit
  return (negative, digits)

/-- The digits of a number in a base that stands in front of it. -/
def prefixed (mark : String) (base : Nat) : Reader Int := do
  Reader.word mark
  let n := digitsValue base (← digitRun (Text.isDigitIn base))
  if n ≤ integerMax then return n else failure

def decimalInteger : Reader Int := do
  let (negative, digits) ← decimal
  let n := digitsValue 10 digits
  if negative then
    if n ≤ integerMax + 1 then return -n else failure
  else if n ≤ integerMax then return n
  else failure

def integer : Reader Int := do
  match ← Reader.option (Reader.ahead (Reader.word "0x")) with
  | some _ => prefixed "0x" 16
  | none => prefixed "0o" 8 <|> prefixed "0b" 2 <|> decimalInteger

def exponent : Reader Int := do
  discard (Reader.one fun c => c == 'e' || c == 'E')
  let negative ← sign
  let n := digitsValue 10 (← digitRun Char.isDigit)
  return if negative then -n else n

/-- The first number that is rounded to infinity in 64 bits: the 1024th power of two less the
970th. -/
def realBound : Nat := Nat.shiftLeft 1 1024 - Nat.shiftLeft 1 970

/-- A number with `n` zeros after it. -/
def shiftDecimal (m n : Nat) : Nat := m * Nat.pow 10 n

/-- The number `mantissa · 10 ^ exponent` is too large. It has 309 digits if it is as large as the
bound up to a factor of ten. -/
def exceedsReal (mantissa : Nat) (exponent : Int) : Bool :=
  let digits := (toString mantissa).length + exponent
  if mantissa = 0 || digits < 309 then false
  else if digits > 309 then true
  else if 0 ≤ exponent then realBound ≤ shiftDecimal mantissa exponent.toNat
  else shiftDecimal realBound (-exponent).toNat ≤ mantissa

/-- A number with a point or an exponent. -/
def real : Reader Unit := do
  let (negative, whole) ← decimal
  let (fraction, power) ← (do return ([], ← exponent)) <|> (do
    Reader.char '.'
    let fraction ← digitRun Char.isDigit
    return (fraction, ← exponent <|> pure 0))
  let mantissa := digitsValue 10 (whole ++ fraction)
  if !negative && exceedsReal mantissa (power - fraction.length) then failure else return ()

/-- Infinity or no number at all. -/
def specialReal : Reader Unit := sign *> (Reader.word "inf" <|> Reader.word "nan")

end VhdlFrontEnd.Toml
