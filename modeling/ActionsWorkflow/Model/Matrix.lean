import ActionsWorkflow.Model.Setting
import ActionsWorkflow.Table

/-!
# Build matrices

A job with a matrix runs once for each combination of the values on its axes; rows add
combinations or take them away.  The matrix may also be the value of an expression.
-/

namespace ActionsWorkflow

abbrev MatrixRow := Table Scalar

inductive Matrix where
  | axes (values : Table (List String)) (included excluded : List MatrixRow)
  | expression (text : String)

namespace Matrix

def empty : Matrix := .axes .empty [] []

def addAxis (matrix : Matrix) (name : String) (values : List String) : Matrix :=
  match matrix with
  | .axes table included excluded => .axes (table.insert name values) included excluded
  | .expression text => .expression text

def includeRow (matrix : Matrix) (row : MatrixRow) : Matrix :=
  match matrix with
  | .axes table included excluded => .axes table (included ++ [row]) excluded
  | .expression text => .expression text

def excludeRow (matrix : Matrix) (row : MatrixRow) : Matrix :=
  match matrix with
  | .axes table included excluded => .axes table included (excluded ++ [row])
  | .expression text => .expression text

end Matrix

structure Strategy where
  matrix : Matrix
  failFast : Option Bool := none
  maxParallel : Option Nat := none

end ActionsWorkflow
