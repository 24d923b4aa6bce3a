import VhdlFrontEnd.Log.Pattern

/-!
# Values in filters

A filter may compare a field with a value: a number, or a pattern for its text. Such a comparison is
only made in spans, and the front end opens none, so of a value only counts whether it is one.
-/

namespace VhdlFrontEnd.FilterValue

/-- The text without the sign in front of it. -/
def unsigned (cs : List Char) : List Char :=
  match cs with
  | '+' :: rest | '-' :: rest => rest
  | _ => cs

/-- A run of digits. -/
def isDigits (cs : List Char) : Bool := !cs.isEmpty && cs.all (·.isDigit)

/-- An exponent, or nothing. -/
def isExponent : List Char → Bool
  | [] => true
  | c :: cs => (c = 'e' || c = 'E') && isDigits (unsigned cs)

/-- Digits with or without a point and an exponent. The point needs a digit on one side. -/
def isDecimal (cs : List Char) : Bool :=
  let whole := cs.takeWhile (·.isDigit)
  match cs.dropWhile (·.isDigit) with
  | '.' :: rest =>
    !(whole ++ rest.takeWhile (·.isDigit)).isEmpty && isExponent (rest.dropWhile (·.isDigit))
  | rest => !whole.isEmpty && isExponent rest

/-- A number with or without a sign. Words stand for the values that are not finite. -/
def isNumber (cs : List Char) : Bool :=
  let size := unsigned cs
  isDecimal size || ["inf", "infinity", "nan"].contains (String.ofList (size.map Char.toLower))

/-- The text is a value. -/
def isValue (cs : List Char) : Bool := isNumber cs || Pattern.isWellFormed cs

end VhdlFrontEnd.FilterValue
