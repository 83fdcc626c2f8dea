import Recast.Decimal.Shortest
/-!
# JSON values — the serialized form of types, trees and settings

Members of an object keep their order, and a name may occur twice, so that a reader of values can
tell repeated members from single ones.  A number read from text is an integer or a decimal as
written; a number that comes from a tree may be a float, written as the shortest decimal that reads
back as the same float.
-/
namespace Recast

inductive Number
  | integer (n : Int)
  | decimal (d : Decimal)
  | single (x : Float32)
  | double (x : Float)

namespace Number

def text : Number → String
  | .integer n => toString n
  | .decimal d => d.text .double
  | .single x => (Decimal.ofSingle x).text .single
  | .double x => (Decimal.ofDouble x).text .double

/-- The double that a number is read as, infinite beyond the range. -/
def toFloat : Number → Float
  | .integer n => Decimal.toFloat ⟨n < 0, n.natAbs, 0⟩
  | .decimal d => d.toFloat
  | .single x => x.toFloat
  | .double x => x

end Number

inductive Json
  | null
  | bool (value : Bool)
  | number (value : Number)
  | string (value : String)
  | array (items : List Json)
  | object (members : List (String × Json))

instance : Inhabited Json := ⟨.null⟩

namespace Json

abbrev Members := List (String × Json)

def integer (n : Int) : Json := .number (.integer n)

def nat (n : Nat) : Json := integer n

/-- Only finite numbers have a written form. -/
def single (x : Float32) : Json := if x.isFinite then .number (.single x) else .null

def double (x : Float) : Json := if x.isFinite then .number (.double x) else .null

def ofOption {α : Type} (f : α → Json) : Option α → Json
  | none => .null
  | some x => f x

def ofList {α : Type} (f : α → Json) (xs : List α) : Json := .array (xs.map f)

/-- A member that is left out when it has nothing to say. -/
def optionalMember (name : String) : Option Json → Members
  | none => []
  | some j => [(name, j)]

end Json

mutual

/-- Nesting of arrays and objects. -/
def Json.depth : Json → Nat
  | .array items => depthOfItems items + 1
  | .object members => depthOfMembers members + 1
  | .null | .bool _ | .number _ | .string _ => 0

def depthOfItems : List Json → Nat
  | [] => 0
  | j :: js => max j.depth (depthOfItems js)

def depthOfMembers : List (String × Json) → Nat
  | [] => 0
  | (_, j) :: ms => max j.depth (depthOfMembers ms)

end

end Recast
