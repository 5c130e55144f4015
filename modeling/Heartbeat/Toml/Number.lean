import Heartbeat.Text.Decimal
import Heartbeat.Toml.Quoted

/-!
# TOML numbers

Integers are written in decimal digits with an optional sign and no zero in front, or without a
sign in hexadecimal, octal or binary digits behind `0x`, `0o` or `0b`. Other numbers have a
fraction or an exponent, or are infinite or no number. A single underscore may stand between two
digits.

* `Number.ofText?`: reads a number.
* `Number.underscoresFit`: whether the underscores stand in their places.

Text without spaces that starts like an integer with underscores counts as a number whatever
follows, as long as its underscores fit; if it gives no integer, it is a number without a value. So
do the letters of a base without any digits behind them.
-/

namespace Heartbeat.Toml

open Heartbeat.Text

/-- A number. -/
inductive Number where
  | integer (value : Int)
  /-- A number of another kind, or one without a value. -/
  | other
deriving Repr, DecidableEq

namespace Number

/-! ## Underscores -/

/-- Whether each underscore has a digit behind it and one in front. The flag says whether a digit
stands in front of the text. -/
def underscoresFitFrom (digit : Char → Bool) : Bool → List Char → Bool
  | _, [] => true
  | _, ['_'] => false
  | here, '_' :: c :: s => here && digit c && underscoresFitFrom digit true s
  | _, c :: s => underscoresFitFrom digit (digit c) s

/-- Whether each underscore stands between two digits. -/
def underscoresFit (digit : Char → Bool) (s : List Char) : Bool :=
  underscoresFitFrom digit false s

/-- A text without its underscores. -/
def dropUnderscores (s : List Char) : List Char := s.filter (· != '_')

/-- A text without the sign at its start. -/
def dropSign : List Char → List Char
  | '+' :: s => s
  | '-' :: s => s
  | s => s

/-! ## Integers -/

/-- Whether a character is a digit of the base sixteen, and so of any base. -/
def isAnyDigit (c : Char) : Bool := (Quoted.hexValue? c).isSome

/-- The value of digits to a base. -/
def valueIn (base : Nat) (digits : List Char) : Nat :=
  digits.foldl (fun n c => base * n + (Quoted.hexValue? c).getD 0) 0

/-- Whether a character is a digit of a base. -/
def isDigitOf (base : Nat) (c : Char) : Bool :=
  match Quoted.hexValue? c with
  | some d => d < base
  | none => false

/-- The number of what stands behind the letters of a base. -/
def inBase? (base : Nat) (s : List Char) : Option Number :=
  let digits := dropUnderscores s
  if digits.all (isDigitOf base) && underscoresFit isAnyDigit s then
    some (if digits = [] then .other else .integer (valueIn base digits))
  else none

/-- Whether a text without sign has a zero in front of something else. -/
def hasLeadingZero : List Char → Bool
  | '0' :: _ :: _ => true
  | _ => false

/-- Whether a text without sign starts like an integer: it is a run of digits, or one that an
underscore follows. -/
def startsInteger (s : List Char) : Bool :=
  match s.dropWhile isDigit with
  | [] => s != []
  | c :: _ => c == '_'

/-- The number of a text with an optional sign that starts like an integer. -/
def valueOf (s : List Char) : Number :=
  let digits := dropUnderscores (dropSign s)
  if digits.all isDigit then
    .integer (if s.head? = some '-' then -(natOfDigits digits : Int) else natOfDigits digits)
  else .other

/-! ## Other numbers -/

/-- What follows a run of digits, between which underscores may stand. There has to be a digit, and,
unless zeros may stand in front, a zero only if it is the only one. -/
def afterDigits? (zeros : Bool) (s : List Char) : Option (List Char) :=
  let isDigitChar (c : Char) : Bool := isDigit c || c == '_'
  match (s.takeWhile isDigitChar).filter isDigit with
  | [] => none
  | _ :: more =>
    if !zeros && more != [] && s.head? == some '0' then none
    else some (s.dropWhile isDigitChar)

/-- What follows a fraction, if there is one. -/
def afterFraction? : List Char → Option (List Char)
  | '.' :: s => afterDigits? true s
  | s => some s

/-- Whether a character marks an exponent. -/
def isExponentMark (c : Char) : Bool := c == 'e' || c == 'E'

/-- What follows an exponent, if there is one. -/
def afterExponent? : List Char → Option (List Char)
  | [] => some []
  | c :: s => if isExponentMark c then afterDigits? true (dropSign s) else some (c :: s)

/-- Whether a text without sign is a number with a fraction, an exponent, or both. -/
def isReal (s : List Char) : Bool :=
  ((afterDigits? false s).bind afterFraction?).bind afterExponent? == some []

/-! ## All numbers -/

/-- Reads a number. -/
def ofText? (s : List Char) : Option Number :=
  match s with
  | '0' :: 'x' :: s => inBase? 16 s
  | '0' :: 'o' :: s => inBase? 8 s
  | '0' :: 'b' :: s => inBase? 2 s
  | s =>
    let unsigned := dropSign s
    if unsigned = ['i', 'n', 'f'] ∨ unsigned = ['n', 'a', 'n'] then some .other
    else if unsigned.any fun c => c == '.' || isExponentMark c then
      if isReal unsigned && underscoresFit isDigit s then some .other else none
    else if startsInteger unsigned && !hasLeadingZero unsigned && !s.contains ' ' &&
        underscoresFit isAnyDigit s then
      some (valueOf s)
    else none

end Number

end Heartbeat.Toml
