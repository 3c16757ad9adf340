/-!
# What a plain scalar reads as

A scalar without quotes is read as null, a flag or a number if it has the form of one, and
as a text otherwise.  A writer that keeps texts texts has to quote all the others, so the
forms are spelled out here: integers in four bases that fit 128 bits, and decimal numbers
whose nearest double is finite.
-/

namespace ActionsWorkflow.Yaml

inductive PlainKind where
  | null
  | boolean
  | integer
  | float
  | text
  deriving DecidableEq, Repr

inductive Sign where
  | plus
  | minus
  deriving DecidableEq, Repr

def splitSign : List Char → Option Sign × List Char
  | '+' :: rest => (some .plus, rest)
  | '-' :: rest => (some .minus, rest)
  | text => (none, text)

def digitValue? (base : Nat) (c : Char) : Option Nat :=
  let value? :=
    if '0' ≤ c && c ≤ '9' then some (c.toNat - '0'.toNat)
    else if 'a' ≤ c && c ≤ 'f' then some (c.toNat - 'a'.toNat + 10)
    else if 'A' ≤ c && c ≤ 'F' then some (c.toNat - 'A'.toNat + 10)
    else none
  value?.filter (· < base)

def natural? (base : Nat) (digits : List Char) : Option Nat :=
  if digits.isEmpty then none
  else digits.foldlM (fun value c => (digitValue? base c).map (base * value + ·)) 0

def magnitude? : List Char → Option Nat
  | '0' :: 'x' :: digits => natural? 16 digits
  | '0' :: 'o' :: digits => natural? 8 digits
  | '0' :: 'b' :: digits => natural? 2 digits
  | digits => natural? 10 digits

/-- An integer that a signed or an unsigned word of 128 bits can hold. -/
def isInteger (text : List Char) : Bool :=
  let (sign, body) := splitSign text
  let limit := if sign = some .minus then Nat.pow 2 127 else Nat.pow 2 128 - 1
  match magnitude? body with
  | some magnitude => magnitude ≤ limit
  | none => false

/-- Digits behind a zero that adds nothing, which readers take for a number or for a text. -/
def hasLeadingZero (text : List Char) : Bool :=
  match (splitSign text).2 with
  | '0' :: c :: rest => (c :: rest).all Char.isDigit
  | _ => false

/-! ## Decimal numbers -/

/-- A number as its digits, without the point, and the power of ten that scales them. -/
structure DecimalNumber where
  digits : Nat
  exponent : Int
  deriving DecidableEq, Repr

def exponent? : List Char → Option Int
  | [] => some 0
  | e :: rest =>
      if e = 'e' || e = 'E' then
        let (sign, digits) := splitSign rest
        (natural? 10 digits).map fun value =>
          if sign = some .minus then -(value : Int) else value
      else none

/-- Digits with at most one point among them, at least one digit, and maybe an exponent. -/
def decimalNumber? (text : List Char) : Option DecimalNumber := do
  let whole := text.takeWhile Char.isDigit
  let afterWhole := text.dropWhile Char.isDigit
  let (fraction, tail) := match afterWhole with
    | '.' :: rest => (rest.takeWhile Char.isDigit, rest.dropWhile Char.isDigit)
    | rest => ([], rest)
  let digits ← natural? 10 (whole ++ fraction)
  let exponent ← exponent? tail
  some ⟨digits, exponent - fraction.length⟩

/-- Half a unit above the largest finite double; from here on rounding gives infinity. -/
def overflowThreshold : Nat := Nat.pow 2 1024 - Nat.pow 2 970

def DecimalNumber.isFinite (number : DecimalNumber) : Bool :=
  let places := (Nat.toDigits 10 number.digits).length
  let scale := places + number.exponent
  number.digits = 0 || scale < 309 || (scale = 309 &&
    number.digits * Nat.pow 10 number.exponent.toNat <
      overflowThreshold * Nat.pow 10 (-number.exponent).toNat)

def infinityWords : List String := [".inf", ".Inf", ".INF"]

def notANumberWords : List String := [".nan", ".NaN", ".NAN"]

def isFloat (text : List Char) : Bool :=
  let body := (splitSign text).2
  infinityWords.contains (String.ofList body) ||
    notANumberWords.contains (String.ofList text) ||
    match decimalNumber? body with
    | some number => number.isFinite
    | none => false

def nullWords : List String := ["", "~", "null", "Null", "NULL"]

def booleanWords : List String := ["true", "True", "TRUE", "false", "False", "FALSE"]

def resolve (text : List Char) : PlainKind :=
  if nullWords.contains (String.ofList text) then .null
  else if booleanWords.contains (String.ofList text) then .boolean
  else if isInteger text && !hasLeadingZero text then .integer
  else if isFloat text then .float
  else .text

end ActionsWorkflow.Yaml
