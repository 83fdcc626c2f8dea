/-!
# Operators — the operators of expressions and their spelling in source code

An operator has two names: the symbol of source code, and the word that serialized trees use.
Both tables are injective, so a word determines its operator.
-/
namespace Recast

inductive BinaryOperator
  | assign | addAssign | subAssign | mulAssign | divAssign | remAssign
  | andAssign | orAssign | xorAssign | shlAssign | shrAssign | ushrAssign
  | add | sub | mul | div | rem | shl | shr | ushr
  | bitAnd | bitOr | bitXor | and | or
  | eq | ne | lt | le | gt | ge
deriving DecidableEq

namespace BinaryOperator

def symbol : BinaryOperator → String
  | assign => "="
  | addAssign => "+="
  | subAssign => "-="
  | mulAssign => "*="
  | divAssign => "/="
  | remAssign => "%="
  | andAssign => "&="
  | orAssign => "|="
  | xorAssign => "^="
  | shlAssign => "<<="
  | shrAssign => ">>="
  | ushrAssign => ">>>="
  | add => "+"
  | sub => "-"
  | mul => "*"
  | div => "/"
  | rem => "%"
  | shl => "<<"
  | shr => ">>"
  | ushr => ">>>"
  | bitAnd => "&"
  | bitOr => "|"
  | bitXor => "^"
  | and => "&&"
  | or => "||"
  | eq => "=="
  | ne => "!="
  | lt => "<"
  | le => "<="
  | gt => ">"
  | ge => ">="

def word : BinaryOperator → String
  | assign => "assign"
  | addAssign => "add_assign"
  | subAssign => "sub_assign"
  | mulAssign => "mul_assign"
  | divAssign => "div_assign"
  | remAssign => "rem_assign"
  | andAssign => "and_assign"
  | orAssign => "or_assign"
  | xorAssign => "xor_assign"
  | shlAssign => "shl_assign"
  | shrAssign => "shr_assign"
  | ushrAssign => "ushr_assign"
  | add => "add"
  | sub => "sub"
  | mul => "mul"
  | div => "div"
  | rem => "rem"
  | shl => "shl"
  | shr => "shr"
  | ushr => "ushr"
  | bitAnd => "bit_and"
  | bitOr => "bit_or"
  | bitXor => "bit_xor"
  | and => "and"
  | or => "or"
  | eq => "eq"
  | ne => "ne"
  | lt => "lt"
  | le => "le"
  | gt => "gt"
  | ge => "ge"

def all : List BinaryOperator :=
  [assign, addAssign, subAssign, mulAssign, divAssign, remAssign, andAssign, orAssign, xorAssign,
   shlAssign, shrAssign, ushrAssign, add, sub, mul, div, rem, shl, shr, ushr, bitAnd, bitOr, bitXor,
   and, or, eq, ne, lt, le, gt, ge]

def ofWord? (w : String) : Option BinaryOperator := all.find? (·.word == w)

theorem ofWord?_word (o : BinaryOperator) : ofWord? o.word = some o := by
  cases o <;> rfl

end BinaryOperator

inductive UnaryOperator
  | increment | decrement | plus | minus | not | bitNot
deriving DecidableEq

namespace UnaryOperator

def word : UnaryOperator → String
  | increment => "increment"
  | decrement => "decrement"
  | plus => "plus"
  | minus => "minus"
  | not => "not"
  | bitNot => "bit_not"

def all : List UnaryOperator := [increment, decrement, plus, minus, not, bitNot]

def ofWord? (w : String) : Option UnaryOperator := all.find? (·.word == w)

theorem ofWord?_word (o : UnaryOperator) : ofWord? o.word = some o := by
  cases o <;> rfl

end UnaryOperator

/-- Before or after: a unary operator and its operand, a loop's condition and its body. -/
inductive Side
  | before
  | after
deriving DecidableEq

end Recast
