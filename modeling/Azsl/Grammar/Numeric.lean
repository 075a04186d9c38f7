/-
Azsl.Grammar.Numeric — scalar, vector and matrix types.

These stand alone as types, as template arguments of resources and as constructors in
expressions.
-/
import Azsl.Grammar.Name

namespace Azsl

namespace Production

/-- A template argument list. -/
def templateArguments (arguments : Production) : Production :=
  expect "<" >=> arguments >=> expect ">"

/-- A scalar type. -/
def scalarType : Production :=
  ifAhead Lookahead.isUnsignedInt (node .scalarType (bumpJoined 1 .token)) <|
    guard (fun rest => Keyword.category? (Lookahead.text rest 0) == some .scalar) >=>
    tokenNode .scalarType

/-- A scalar type or a vector type without template arguments. -/
def scalarOrVectorType : Production :=
  ifAhead
    (fun rest =>
      Keyword.category? (Lookahead.text rest 0) == some .vector && !Lookahead.isAt rest 1 "<")
    (tokenNode .vectorType) scalarType

/-- A numeric type. -/
def numericType : Production :=
  node .scalarOrVectorOrMatrixType <|
    ifAhead (fun rest => Keyword.category? (Lookahead.text rest 0) == some .matrix)
      (tokenNode .matrixType) scalarOrVectorType

end Production

end Azsl
