/-
The predicates of branches and loops.

A condition is a tree: operators inside, operands at the leaves.  Its JSON form has the
shape of the tree, with the operator or the kind of the operand under `type`.
-/
import Testbed.Token
import Testbed.Vocabulary

namespace Testbed

/-- The operators with two operands. -/
inductive BinaryOperator where
  | equal
  | notEqual
  | below
  | belowOrEqual
  | above
  | aboveOrEqual
  | and
  | or
  | xor
deriving DecidableEq, Inhabited

namespace BinaryOperator

/-- All operators, in the order in which they are listed to users. -/
def all : List BinaryOperator :=
  [equal, notEqual, below, belowOrEqual, above, aboveOrEqual, and, or, xor]

/-- The sign of an operator. -/
def tag : BinaryOperator → String
  | equal => "="
  | notEqual => "!="
  | below => "<"
  | belowOrEqual => "<="
  | above => ">"
  | aboveOrEqual => ">="
  | and => "and"
  | or => "or"
  | xor => "xor"

/-- The operator with a sign. -/
def ofTag? (tag : String) : Option BinaryOperator := all.find? fun op => op.tag == tag

/-- The operator that a word names. -/
def read : String → Except UnknownWord BinaryOperator := expectWord (all.map tag) ofTag?

end BinaryOperator

/-- The sign of negation, the only operator with one operand. -/
def negationTag : String := "not"

/-- The signs of all operators. -/
def operatorTags : List String := BinaryOperator.all.map BinaryOperator.tag ++ [negationTag]

/-! ### Operands -/

/-- A leaf of a condition. -/
inductive Operand where
  /-- A value. -/
  | value (token : Token)
  /-- The present value of a property of a database entity. -/
  | database (name : String) (key : Token) (property : String)
  /-- The last value collected for a statistic. -/
  | statistic (measurement : Token) (field : String)

namespace Operand

/-- The tag of an operand. -/
def tag : Operand → String
  | value _ => "value"
  | database .. => "database"
  | statistic .. => "statistic"

/-- The tags of operands, in the order in which they are listed to users. -/
def tags : List String := ["value", "database", "statistic"]

/-- The JSON form of an operand, its token resolved. -/
def build (d : Declarations) (o : Operand) : Except UnknownName Json :=
  match o with
  | value token => do
    let v ← token.resolve d
    return .object [("type", .string o.tag), ("value", v)]
  | database name key property => do
    let v ← key.resolve d
    return .object [("type", .string o.tag), ("name", .string name), ("key", v),
      ("attribute", .string property)]
  | statistic measurement field => do
    let v ← measurement.resolve d
    return .object [("type", .string o.tag), ("measurement", v), ("field", .string field)]

/-- The names an operand refers to. -/
def references : Operand → List String
  | value token => token.references
  | database _ key _ => key.references
  | statistic measurement _ => measurement.references

/-- Equality of operands, with their tokens compared as tokens. -/
def same : Operand → Operand → Bool
  | value a, value b => a.same b
  | database n k a, database m l b => n == m && k.same l && a == b
  | statistic m f, statistic n g => m.same n && f == g
  | _, _ => false

end Operand

/-! ### Trees -/

mutual

/-- A child of a condition. -/
inductive Expression where
  | operand (operand : Operand)
  | condition (condition : Condition)

/-- An inner node of a condition tree. -/
inductive Condition where
  | binary (operator : BinaryOperator) (left right : Expression)
  | negation (child : Expression)

end

/-- An operator sign that makes no node with two children. -/
structure InvalidOperator where
  operator : String
  reason : String
deriving DecidableEq

/-- A node with two children from the sign of its operator. -/
def Condition.make (operator : String) (left right : Expression) :
    Except InvalidOperator Condition :=
  if operator = negationTag then
    .error ⟨operator, "unary operator, use Condition::not"⟩
  else
    match BinaryOperator.ofTag? operator with
    | some op => .ok (.binary op left right)
    | none => .error ⟨operator, "expected one of " ++ ", ".intercalate operatorTags⟩

/-- The sign of the operator of a condition. -/
def Condition.tag : Condition → String
  | .binary operator .. => operator.tag
  | .negation _ => negationTag

/-- The sign of a condition or the tag of an operand. -/
def Expression.tag : Expression → String
  | .operand o => o.tag
  | .condition c => c.tag

mutual

/-- How many conditions stand inside one another, this one included. -/
def Condition.depth : Condition → Nat
  | .binary _ left right => 1 + max left.depth right.depth
  | .negation child => 1 + child.depth

/-- How many conditions stand inside one another; an operand is none. -/
def Expression.depth : Expression → Nat
  | .operand _ => 0
  | .condition c => c.depth

end

mutual

/-- The names a condition refers to, from left to right. -/
def Condition.references : Condition → List String
  | .binary _ left right => left.references ++ right.references
  | .negation child => child.references

/-- The names a child refers to. -/
def Expression.references : Expression → List String
  | .operand o => o.references
  | .condition c => c.references

end

mutual

/-- The JSON form of a condition.  What is on the left is resolved first. -/
def Condition.build (d : Declarations) : Condition → Except UnknownName Json
  | .binary operator left right => do
    let l ← left.build d
    let r ← right.build d
    return .object [("type", .string operator.tag), ("left_operand", l), ("right_operand", r)]
  | .negation child => do
    let v ← child.build d
    return .object [("type", .string negationTag), ("operand", v)]

/-- The JSON form of a child. -/
def Expression.build (d : Declarations) : Expression → Except UnknownName Json
  | .operand o => o.build d
  | .condition c => c.build d

end

mutual

/-- Equality of conditions: the same tree, with equal operands. -/
def Condition.same : Condition → Condition → Bool
  | .binary op l r, .binary op' l' r' => op == op' && l.same l' && r.same r'
  | .negation a, .negation b => a.same b
  | _, _ => false

/-- Equality of children; an operand never equals a condition. -/
def Expression.same : Expression → Expression → Bool
  | .operand a, .operand b => a.same b
  | .condition a, .condition b => a.same b
  | _, _ => false

end

end Testbed
