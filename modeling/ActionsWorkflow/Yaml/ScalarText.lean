import ActionsWorkflow.Yaml.PlainScalar

/-!
# Written form of a text

A text is written plain where that is safe, else in single quotes, else in double quotes;
a text of several lines is written as a literal block where that keeps it.  The four
conditions depend only on the characters of the text.
-/

namespace ActionsWorkflow.Yaml

def isBreak (c : Char) : Bool :=
  c = '\n' || c = '\r' || c = '\u0085' || c = '\u2028' || c = '\u2029'

def isSpecial (c : Char) : Bool :=
  let code := c.toNat
  !(c = '\n' || (0x20 ≤ code && code ≤ 0x7E) || (0xA0 ≤ code && code ≤ 0xD7FF) ||
    (0xE000 ≤ code && code ≤ 0xFFFD && code ≠ 0xFEFF) || 0x10000 ≤ code)

def isSeparator (c : Char) : Bool := c = ' ' || c = '\t' || isBreak c || c = '\x00'

def endsToken : List Char → Bool
  | [] => true
  | c :: _ => isSeparator c

def hasNeighbours (related : Char → Char → Bool) : List Char → Bool
  | a :: b :: rest => related a b || hasNeighbours related (b :: rest)
  | _ => false

def isSpaceOrBreak (c : Char) : Bool := c = ' ' || isBreak c

def indicators : List Char :=
  ['#', ',', '[', ']', '\x7b', '\x7d', '&', '*', '!', '|', '>', '\'', '"', '%', '@', '`']

def documentMarkers : List (List Char) := [['-', '-', '-'], ['.', '.', '.']]

/-- Whether a plain scalar may start like this. -/
def plainStart : List Char → Bool
  | [] => false
  | c :: rest =>
      !indicators.contains c &&
        !((c = '?' || c = ':' || c = '-') && endsToken rest) &&
        !documentMarkers.any fun marker => marker.isPrefixOf (c :: rest)

/-- Whether a plain scalar may go on like this after `before`: no `: ` and no ` #`. -/
def plainRest (before : Char) : List Char → Bool
  | [] => true
  | c :: rest =>
      !(c = ':' && endsToken rest) && !(c = '#' && isSeparator before) && plainRest c rest

def plainAllowed : List Char → Bool
  | [] => false
  | c :: rest =>
      plainStart (c :: rest) && plainRest c rest &&
        !(c :: rest).any isBreak && !(c :: rest).any isSpecial &&
        c ≠ ' ' && (c :: rest).getLast? ≠ some ' '

def singleQuotedAllowed (text : List Char) : Bool :=
  !text.any isSpecial &&
    !hasNeighbours (fun a b => (a = ' ' && isBreak b) || (isBreak a && b = ' ')) text

def literalAllowed (text : List Char) : Bool :=
  !text.any isSpecial && text.getLast? ≠ some ' ' &&
    !hasNeighbours (fun a b => a = ' ' && isBreak b) text

/-! ## Styles -/

inductive Style where
  | plain
  | singleQuoted
  | doubleQuoted
  | literal
  deriving DecidableEq, Repr

def readsAsText (text : List Char) : Bool := resolve text = .text && !hasLeadingZero text

def style (text : List Char) : Style :=
  if text.contains '\n' then
    if literalAllowed text then .literal else .doubleQuoted
  else if plainAllowed text && readsAsText text then .plain
  else if singleQuotedAllowed text then .singleQuoted
  else .doubleQuoted

def spaces (count : Nat) : List Char := List.replicate count ' '

def singleQuotedBody (indent : Nat) (afterBreak : Bool) : List Char → List Char
  | [] => if afterBreak then spaces indent else []
  | c :: rest =>
      if isBreak c then c :: singleQuotedBody indent true rest
      else
        let lead := if afterBreak then spaces indent else []
        let shown := if c = '\'' then ['\'', '\''] else [c]
        lead ++ shown ++ singleQuotedBody indent false rest

def hexDigit (value : Nat) : Char := (Nat.digitChar value).toUpper

def hexDigits (value : Nat) : Nat → List Char
  | 0 => []
  | width + 1 => hexDigits (value / 16) width ++ [hexDigit (value % 16)]

def escapeLetter? (c : Char) : Option Char :=
  match c with
  | '\x00' => some '0'
  | '\x07' => some 'a'
  | '\x08' => some 'b'
  | '\t' => some 't'
  | '\n' => some 'n'
  | '\x0b' => some 'v'
  | '\x0c' => some 'f'
  | '\r' => some 'r'
  | '\x1b' => some 'e'
  | '"' => some '"'
  | '\\' => some '\\'
  | '\u0085' => some 'N'
  | '\u2028' => some 'L'
  | '\u2029' => some 'P'
  | _ => none

def escaped (c : Char) : List Char :=
  match escapeLetter? c with
  | some letter => ['\\', letter]
  | none =>
      if !isSpecial c then [c]
      else if c.toNat ≤ 0xFF then '\\' :: 'x' :: hexDigits c.toNat 2
      else '\\' :: 'u' :: hexDigits c.toNat 4

/-- How a block ends: `-` for a text that does not end in a break, `+` for one that ends in
several or is nothing else than one. -/
def chompingHint (text : List Char) : List Char :=
  match text.reverse with
  | [] => ['-']
  | c :: rest =>
      if !isBreak c then ['-']
      else match rest with
        | [] => ['+']
        | d :: _ => if isBreak d then ['+'] else []

def literalHeader (text : List Char) : List Char :=
  let indentHint := if text.head?.any isSpaceOrBreak then ['2'] else []
  '|' :: indentHint ++ chompingHint text ++ ['\n']

def literalBody (indent : Nat) (atLineStart : Bool) : List Char → List Char
  | [] => []
  | c :: rest =>
      if isBreak c then c :: literalBody indent true rest
      else if atLineStart then spaces indent ++ c :: literalBody indent false rest
      else c :: literalBody indent false rest

/-- The written form of a text; its further lines, if any, stand `indent` columns in. -/
def writeText (indent : Nat) (text : List Char) : List Char :=
  match style text with
  | .plain => text
  | .singleQuoted => '\'' :: singleQuotedBody indent false text ++ ['\'']
  | .doubleQuoted => '"' :: text.flatMap escaped ++ ['"']
  | .literal => literalHeader text ++ literalBody indent true text

/-- The break after a text; a block that ends in a break has it already. -/
def terminator (text : List Char) : List Char :=
  if style text = .literal && text.getLast?.any isBreak then [] else ['\n']

end ActionsWorkflow.Yaml
