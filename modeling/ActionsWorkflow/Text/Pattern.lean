import ActionsWorkflow.Text.Character

/-!
# Regular patterns

A pattern describes a set of texts.  Acceptance follows all partial derivatives of the
pattern at once: after each character the patterns that the rest of the text may still
match are kept in a list without repetition.  There are at most as many of them as the
pattern has parts, so no choice is ever taken back.
-/

namespace ActionsWorkflow.Text

inductive CharClass where
  | between (low high : Char)
  | anyOf (chars : List Char)
  | noneOf (chars : List Char)
  | decimalDigit
  deriving DecidableEq, Repr

def CharClass.contains (c : Char) : CharClass → Bool
  | .between low high => low ≤ c && c ≤ high
  | .anyOf chars => chars.contains c
  | .noneOf chars => !chars.contains c
  | .decimalDigit => isDecimalDigit c

/-- A text with no character in it is described by `empty`, and no text at all by `never`. -/
inductive Pattern where
  | never
  | empty
  | one (chars : CharClass)
  | seq (first second : Pattern)
  | alt (left right : Pattern)
  | star (repeated : Pattern)
  deriving DecidableEq, Repr

namespace Pattern

def nullable : Pattern → Bool
  | .never => false
  | .empty => true
  | .one _ => false
  | .seq first second => first.nullable && second.nullable
  | .alt left right => left.nullable || right.nullable
  | .star _ => true

/-- A sequence, without the useless `empty` in front that a derivative leaves behind. -/
def andThen (first second : Pattern) : Pattern :=
  if first = .empty then second else .seq first second

/-- What may follow `c` in a text that the pattern describes. -/
def derivatives (c : Char) : Pattern → List Pattern
  | .never => []
  | .empty => []
  | .one chars => if chars.contains c then [.empty] else []
  | .seq first second =>
      let inFirst := (first.derivatives c).map (·.andThen second)
      if first.nullable then inFirst ++ second.derivatives c else inFirst
  | .alt left right => left.derivatives c ++ right.derivatives c
  | .star repeated => (repeated.derivatives c).map (·.andThen (.star repeated))

def step (states : List Pattern) (c : Char) : List Pattern :=
  (states.flatMap (derivatives c)).eraseDups

def accepts (pattern : Pattern) (text : List Char) : Bool :=
  (text.foldl step [pattern]).any nullable

def literal (text : String) : Pattern :=
  text.toList.foldr (fun c rest => .seq (.one (.anyOf [c])) rest) .empty

def anyChar : Pattern := .one (.noneOf [])

def plus (pattern : Pattern) : Pattern := .seq pattern (.star pattern)

def optional (pattern : Pattern) : Pattern := .alt pattern .empty

def oneOf (patterns : List Pattern) : Pattern := patterns.foldr .alt .never

def sequence (patterns : List Pattern) : Pattern := patterns.foldr .seq .empty

def times (count : Nat) (pattern : Pattern) : Pattern :=
  sequence (List.replicate count pattern)

end Pattern

end ActionsWorkflow.Text
