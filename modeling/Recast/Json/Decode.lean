import Recast.Json.Basic
/-!
# Decoding — values of JSON as values of the domain

A decoder takes a value in exactly one shape and refuses everything else.  Of an object it takes the
members it knows: one of them given twice is refused, any other is passed over.  A member may be
required, absent or null, or absent with a default; null is not a default.
-/
namespace Recast

abbrev Decoder (α : Type) := Json → Option α

namespace Decoder

def bool : Decoder Bool
  | .bool b => some b
  | _ => none

def string : Decoder String
  | .string s => some s
  | _ => none

def char : Decoder Char
  | .string s =>
    match s.toList with
    | [c] => some c
    | _ => none
  | _ => none

/-- An integer written as one, in the given range. -/
def integer (low high : Int) : Decoder Int
  | .number (.integer n) => if low ≤ n ∧ n ≤ high then some n else none
  | _ => none

def nat : Decoder Nat
  | .number (.integer n) => n.toNat?
  | _ => none

def uint16 : Decoder UInt16 := fun j => (integer 0 0xFFFF j).map fun n => .ofNat n.toNat

def uint32 : Decoder UInt32 := fun j => (integer 0 0xFFFFFFFF j).map fun n => .ofNat n.toNat

def int32 : Decoder Int32 := fun j => (integer (-0x80000000) 0x7FFFFFFF j).map .ofInt

def int64 : Decoder Int64 := fun j => (integer (-0x8000000000000000) 0x7FFFFFFFFFFFFFFF j).map .ofInt

/-- Any number within the range. -/
def double : Decoder Float
  | .number x => if x.toFloat.isFinite then some x.toFloat else none
  | _ => none

/-- Integers of 64 bits are rounded once, all other numbers by way of a double. -/
def single : Decoder Float32
  | .number (.single x) => some x
  | .number (.integer n) =>
    if 0 ≤ n ∧ n < 0x10000000000000000 then some (UInt64.ofNat n.toNat).toFloat32
    else if -0x8000000000000000 ≤ n ∧ n < 0 then some (Int64.ofInt n).toFloat32
    else (double (.number (.integer n))).map Float.toFloat32
  | j => (double j).map Float.toFloat32

def list {α : Type} (d : Decoder α) : Decoder (List α)
  | .array js => js.mapM d
  | _ => none

/-- Null is no value. -/
def orNull {α : Type} (d : Decoder α) : Decoder (Option α)
  | .null => some none
  | j => (d j).map some

end Decoder

namespace Json

def members? : Json → Option Members
  | .object ms => some ms
  | _ => none

namespace Members

/-- The member of that name: refused if there are two, `none` if there is none. -/
def find? (ms : Members) (name : String) : Option (Option Json) :=
  match ms.filter (·.1 == name) with
  | [] => some none
  | [m] => some (some m.2)
  | _ => none

def required {α : Type} (ms : Members) (name : String) (d : Decoder α) : Option α :=
  match ms.find? name with
  | some (some j) => d j
  | _ => none

def nullable {α : Type} (ms : Members) (name : String) (d : Decoder α) : Option (Option α) :=
  match ms.find? name with
  | some (some j) => d.orNull j
  | some none => some none
  | none => none

def withDefault {α : Type} (ms : Members) (name : String) (absent : α) (d : Decoder α) : Option α :=
  match ms.find? name with
  | some (some j) => d j
  | some none => some absent
  | none => none

/-- Whether every member has one of the names. -/
def within (ms : Members) (names : List String) : Bool := ms.all fun m => names.contains m.1

end Members

end Json

end Recast
