import V91Core.Python.Number

namespace V91Core.Python

-- What a numeric text denotes.
inductive Numeral where
  | decimal (neg : Bool) (digits : Nat) (exponent : Int)
  | infinity (neg : Bool)
  | nan
deriving DecidableEq

-- The zeros of the decimal digits beyond ASCII. Nine other digits follow each of them.
def decimalZeros : List Nat :=
  [0x660, 0x6F0, 0x7C0, 0x966, 0x9E6, 0xA66, 0xAE6, 0xB66, 0xBE6, 0xC66, 0xCE6, 0xD66, 0xDE6, 0xE50, 0xED0,
    0xF20, 0x1040, 0x1090, 0x17E0, 0x1810, 0x1946, 0x19D0, 0x1A80, 0x1A90, 0x1B50, 0x1BB0, 0x1C40, 0x1C50,
    0xA620, 0xA8D0, 0xA900, 0xA9D0, 0xA9F0, 0xAA50, 0xABF0, 0xFF10, 0x104A0, 0x10D30, 0x11066, 0x110F0,
    0x11136, 0x111D0, 0x112F0, 0x11450, 0x114D0, 0x11650, 0x116C0, 0x11730, 0x118E0, 0x11950, 0x11C50,
    0x11D50, 0x11DA0, 0x16A60, 0x16AC0, 0x16B50, 0x1D7CE, 0x1D7D8, 0x1D7E2, 0x1D7EC, 0x1D7F6, 0x1E140,
    0x1E2F0, 0x1E950, 0x1FBF0]

-- Decimal digits and spaces are read as those of ASCII. No other character beyond
-- ASCII belongs to a number, and neither does the question mark.
def toAsciiDigit (c : CodePoint) : CodePoint :=
  if c.val < 127 then c
  else if c.isSpace then cp ' '
  else match decimalZeros.find? fun first => first ≤ c.val && c.val < first + 10 with
    | some first => chr (0x30 + (c.val - first))
    | none => cp '?'

def isAsciiSpace (c : CodePoint) : Bool := (0x09 ≤ c.val && c.val ≤ 0x0D) || c.val = 0x20

def isUnderscore (c : CodePoint) : Bool := c = cp '_'

-- An underscore stands between two digits and is left out. The first argument is the
-- character before the text.
def dropUnderscores : Option CodePoint → PyStr → Option PyStr
  | before, [] => if before.any isUnderscore then none else some []
  | before, c :: rest =>
      if isUnderscore c then
        if before.any CodePoint.isDigit then dropUnderscores (some c) rest else none
      else if before.any isUnderscore && !c.isDigit then none
      else (dropUnderscores (some c) rest).map (c :: ·)

def lowerAscii (s : PyStr) : PyStr := s.map fun c => if 0x41 ≤ c.val && c.val ≤ 0x5A then chr (c.val + 0x20) else c

-- The digits after a point, which may stand alone, and what follows.
def scanPoint : PyStr → PyStr × PyStr
  | [] => ([], [])
  | c :: rest =>
      if c = cp '.' then (rest.takeWhile CodePoint.isDigit, rest.dropWhile CodePoint.isDigit) else ([], c :: rest)

-- A text without digits, or with something after the number, is no number.
def readDecimal (neg : Bool) (s : PyStr) : Option Numeral :=
  let whole := s.takeWhile CodePoint.isDigit
  let point := scanPoint (s.dropWhile CodePoint.isDigit)
  let exponent := scanExponent point.2
  if whole ++ point.1 = [] ∨ exponent.2 ≠ [] then none
  else some (.decimal neg (natOfDigits (whole ++ point.1)) (exponent.1.getD 0 - point.1.length))

def readNumeral (s : PyStr) : Option Numeral :=
  let neg := s.head? = some (cp '-')
  let body := unsigned s
  if lowerAscii body = py "nan" then some .nan
  else if lowerAscii body = py "inf" ∨ lowerAscii body = py "infinity" then some (.infinity neg)
  else readDecimal neg body

-- `float(text)`, where `none` is a `ValueError`.
def floatText (text : PyStr) : Option Numeral :=
  (dropUnderscores none (text.map toAsciiDigit)).bind fun s =>
    readNumeral ((s.dropWhile isAsciiSpace).rdropWhile isAsciiSpace)

def Numeral.toFloat : Numeral → Float
  | .decimal neg digits exponent => decimalToFloat neg digits exponent
  | .infinity neg => .ofModel (.pack (.infinity (if neg then .negative else .positive)))
  | .nan => .ofModel (.pack .notANumber)

end V91Core.Python
