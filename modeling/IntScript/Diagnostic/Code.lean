/-!
The classes of errors a program can meet, with the code and the description of each.
-/

namespace IntScript

inductive Phase where
  | lexing
  | parsing
  | running
deriving DecidableEq

/-- The class of an error. Its code is stable, so that it can be searched for. -/
inductive ErrorCode where
  | invalidCharacter
  | integerOutOfRange
  | unexpectedToken
  | expectedExpression
  | unclosedDelimiter
  | expectedIdentifier
  | duplicateVariable
  | duplicateFunction
  | undefinedVariable
  | undefinedFunction
  | argumentCount
  | divisionByZero
  | moduloByZero
  | callDepth
deriving DecidableEq

namespace ErrorCode

def all : List ErrorCode :=
  [invalidCharacter, integerOutOfRange, unexpectedToken, expectedExpression, unclosedDelimiter,
    expectedIdentifier, duplicateVariable, duplicateFunction, undefinedVariable,
    undefinedFunction, argumentCount, divisionByZero, moduloByZero, callDepth]

/-- The code as it is shown. Its first digit tells the phase. -/
def text : ErrorCode → String
  | invalidCharacter => "E0002"
  | integerOutOfRange => "E0003"
  | unexpectedToken => "E1001"
  | expectedExpression => "E1002"
  | unclosedDelimiter => "E1003"
  | expectedIdentifier => "E1004"
  | duplicateVariable => "E6001"
  | duplicateFunction => "E6002"
  | undefinedVariable => "E6003"
  | undefinedFunction => "E6004"
  | argumentCount => "E6005"
  | divisionByZero => "E6006"
  | moduloByZero => "E6007"
  | callDepth => "E6008"

def description : ErrorCode → String
  | invalidCharacter => "invalid character in source"
  | integerOutOfRange => "integer literal out of range"
  | unexpectedToken => "unexpected token"
  | expectedExpression => "expected expression"
  | unclosedDelimiter => "unclosed delimiter"
  | expectedIdentifier => "expected identifier"
  | duplicateVariable => "variable declared twice in one scope"
  | duplicateFunction => "function declared twice in one scope"
  | undefinedVariable => "undefined variable"
  | undefinedFunction => "undefined function"
  | argumentCount => "wrong number of arguments"
  | divisionByZero => "division by zero"
  | moduloByZero => "modulo by zero"
  | callDepth => "call depth limit exceeded"

def phase : ErrorCode → Phase
  | invalidCharacter | integerOutOfRange => .lexing
  | unexpectedToken | expectedExpression | unclosedDelimiter | expectedIdentifier => .parsing
  | duplicateVariable | duplicateFunction | undefinedVariable | undefinedFunction
  | argumentCount | divisionByZero | moduloByZero | callDepth => .running

def ofText? (code : String) : Option ErrorCode :=
  all.find? (fun c => c.text == code)

end ErrorCode

end IntScript
