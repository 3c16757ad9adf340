/-!
# Styled text

Pieces of text with a weight.  Where it is written for a terminal, a weight is switched on
by control functions ahead of the piece and off by one after it.
-/

namespace ActionsWorkflow.Terminal

inductive Piece where
  | plain (text : String)
  | bold (text : String)
  | heading (text : String)
  deriving DecidableEq, Repr

def weightFunction (code : Nat) : String := "\x1b[" ++ toString code ++ "m"

def boldOn : String := weightFunction 1

def underlineOn : String := weightFunction 4

def weightOff : String := weightFunction 0

def Piece.render : Piece → String
  | .plain text => text
  | .bold text => boldOn ++ text ++ weightOff
  | .heading text => boldOn ++ underlineOn ++ text ++ weightOff

def renderPieces (pieces : List Piece) : String := String.join (pieces.map Piece.render)

end ActionsWorkflow.Terminal
