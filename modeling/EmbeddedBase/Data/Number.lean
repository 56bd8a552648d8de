import EmbeddedBase.Data.Double
import EmbeddedBase.Data.Text

/-!
# Numbers in texts

Python's `float` of a text: the number it spells, and the double nearest to it.
-/

namespace EmbeddedBase.Data

/-! ## The grammar -/

/-- `digit (["_"] digit)*`: the digits. -/
def digitPart : Text → Option Text
  | [] => none
  | [char] => if char.isDigit then some [char] else none
  | char :: next :: rest =>
      if char.isDigit then
        if next = '_' then (digitPart rest).map (char :: ·)
        else (digitPart (next :: rest)).map (char :: ·)
      else none

/-- `[digitpart] "." digitpart | digitpart ["."]`: the digits, and how many are decimals. -/
def pointNumber (text : Text) : Option (Text × Nat) :=
  match text.splitOn '.' with
  | [whole] => (digitPart whole).map fun digits => (digits, 0)
  | [whole, decimals] =>
      if decimals = [] then (digitPart whole).map fun digits => (digits, 0)
      else if whole = [] then (digitPart decimals).map fun digits => (digits, digits.length)
      else (digitPart whole).bind fun digits => (digitPart decimals).map fun more =>
        (digits ++ more, more.length)
  | _ => none

/-- An optional sign. -/
def takeSign : Text → Bool × Text
  | [] => (false, [])
  | char :: rest =>
      if char = '-' then (true, rest) else if char = '+' then (false, rest)
      else (false, char :: rest)

/-- The exponent. -/
def exponent (text : Text) : Option ℤ :=
  (digitPart (takeSign text).2).map fun digits =>
    if (takeSign text).1 then -(Nat.ofDigitChars 10 digits 0 : ℤ)
    else (Nat.ofDigitChars 10 digits 0 : ℤ)

/-- The value of the digits, some of them decimals, with an exponent. -/
def decimalValue (digits : Text) (decimals : Nat) (exponent : ℤ) : ℚ :=
  (Nat.ofDigitChars 10 digits 0 : ℚ) * 10 ^ (exponent - decimals)

/-- `number [("e" | "E") [sign] digitpart]`. -/
def floatNumber (text : Text) : Option ℚ :=
  match text.splitOnP fun char => char = 'e' || char = 'E' with
  | [number] => (pointNumber number).map fun point => decimalValue point.1 point.2 0
  | [number, power] => (pointNumber number).bind fun point => (exponent power).map fun shift =>
      decimalValue point.1 point.2 shift
  | _ => none

/-! ## The function -/

/-- What `float` takes a character for: white space is a blank, and any decimal digit the one of
ASCII. -/
def toAscii (toDecimal : Char → Option (Fin 10)) (char : Char) : Char :=
  if char.toNat < 127 then char
  else if isSpace char then ' '
  else match toDecimal char with
    | some digit => Nat.digitChar digit
    | none => '?'

/-- The white space of ASCII that `float` allows at the ends. -/
def isAsciiSpace (char : Char) : Bool :=
  (0x09 ≤ char.toNat && char.toNat ≤ 0x0D) || char.toNat == 0x20

section Float

-- The value of a decimal digit of Unicode, `unicodedata.decimal`.
variable (toDecimal : Char → Option (Fin 10))

/-- The text that is parsed, behind its sign. -/
def signed (text : Text) : Bool × Text :=
  takeSign (trim isAsciiSpace (text.map (toAscii toDecimal)))

/-- The sign and the magnitude of the number that a text spells. -/
def numeral (text : Text) : Option (Bool × ℚ) :=
  (floatNumber (signed toDecimal text).2).map fun value => ((signed toDecimal text).1, value)

/-- The infinity or the `nan` that a text names. -/
def floatWord (text : Text) : Option Double :=
  let lower := (signed toDecimal text).2.map Char.toLower
  if lower = ['i', 'n', 'f'] ∨ lower = ['i', 'n', 'f', 'i', 'n', 'i', 't', 'y'] then
    some (.infinity (signed toDecimal text).1)
  else if lower = ['n', 'a', 'n'] then some .nan
  else none

/-- `float`; `none` is a `ValueError`. -/
def float (text : Text) : Option Double :=
  match numeral toDecimal text with
  | some number => some (toDouble number.1 number.2)
  | none => floatWord toDecimal text

end Float

/-! ## Digits only -/

end EmbeddedBase.Data
