/-!
# Types — primitives, class types, type variables and arrays of them

`Ty` is the static type of an expression or declaration.  A class type keeps its name in binary
form (`java/util/Map$Entry`), its type arguments and its array dimension; the three types are
mutually recursive because a type argument holds a type.  No argument list is the raw form, an
empty one the diamond, and the two are different types.

Types are values: `withDimension` and `raw` give a new one.  Equality is decidable, and every rule
of the library that says "the same type" means this equality.
-/
namespace Recast

inductive Primitive
  | boolean | byte | char | short | int | long | float | double | void
deriving DecidableEq

namespace Primitive

def keyword : Primitive → String
  | boolean => "boolean"
  | byte => "byte"
  | char => "char"
  | short => "short"
  | int => "int"
  | long => "long"
  | float => "float"
  | double => "double"
  | void => "void"

/-- The letter that stands for the primitive in a descriptor. -/
def letter : Primitive → Char
  | boolean => 'Z'
  | byte => 'B'
  | char => 'C'
  | short => 'S'
  | int => 'I'
  | long => 'J'
  | float => 'F'
  | double => 'D'
  | void => 'V'

def ofLetter? : Char → Option Primitive
  | 'Z' => some boolean
  | 'B' => some byte
  | 'C' => some char
  | 'S' => some short
  | 'I' => some int
  | 'J' => some long
  | 'F' => some float
  | 'D' => some double
  | 'V' => some void
  | _ => none

theorem ofLetter?_letter (p : Primitive) : ofLetter? p.letter = some p := by
  cases p <;> rfl

theorem letter_of_ofLetter? {c : Char} {p : Primitive} (h : ofLetter? c = some p) : p.letter = c := by
  unfold ofLetter? at h
  split at h <;> cases h <;> rfl

end Primitive

/-- A type variable such as `T` in `class Box<T>`, or an array of it. -/
structure TypeVar where
  name : String
  dimension : UInt32 := 0
deriving DecidableEq

mutual

/-- A class or interface type; `arguments` is `none` for the raw form, `some []` for the diamond. -/
structure ClassType where
  name : String
  arguments : Option (List TypeArgument) := none
  dimension : UInt32 := 0

inductive Ty
  | primitive (kind : Primitive) (dimension : UInt32)
  | object (type : ClassType)
  | var (type : TypeVar)

/-- One argument of a parameterized type: `T`, `?`, `? extends T` or `? super T`. -/
inductive TypeArgument
  | exact (ty : Ty)
  | any
  | upper (ty : Ty)
  | lower (ty : Ty)

end

instance : Inhabited ClassType := ⟨⟨"", none, 0⟩⟩

/-! ## Equality -/

mutual

def ClassType.decEq : (a b : ClassType) → Decidable (a = b)
  | ⟨n, none, d⟩, ⟨m, none, e⟩ => decidable_of_iff (n = m ∧ d = e) (by simp)
  | ⟨_, none, _⟩, ⟨_, some _, _⟩ => isFalse (by simp)
  | ⟨_, some _, _⟩, ⟨_, none, _⟩ => isFalse (by simp)
  | ⟨n, some as, d⟩, ⟨m, some bs, e⟩ =>
    have := decEqArguments as bs
    decidable_of_iff (n = m ∧ as = bs ∧ d = e) (by simp)

def Ty.decEq : (a b : Ty) → Decidable (a = b)
  | .primitive k d, .primitive l e => decidable_of_iff (k = l ∧ d = e) (by simp)
  | .object c, .object d =>
    have := c.decEq d
    decidable_of_iff (c = d) (by simp)
  | .var v, .var w => decidable_of_iff (v = w) (by simp)
  | .primitive .., .object _ | .primitive .., .var _ | .object _, .primitive .. | .object _, .var _
  | .var _, .primitive .. | .var _, .object _ => isFalse nofun

def TypeArgument.decEq : (a b : TypeArgument) → Decidable (a = b)
  | .exact t, .exact u =>
    have := t.decEq u
    decidable_of_iff (t = u) (by simp)
  | .any, .any => isTrue rfl
  | .upper t, .upper u =>
    have := t.decEq u
    decidable_of_iff (t = u) (by simp)
  | .lower t, .lower u =>
    have := t.decEq u
    decidable_of_iff (t = u) (by simp)
  | .exact _, .any | .exact _, .upper _ | .exact _, .lower _ | .any, .exact _ | .any, .upper _
  | .any, .lower _ | .upper _, .exact _ | .upper _, .any | .upper _, .lower _ | .lower _, .exact _
  | .lower _, .any | .lower _, .upper _ => isFalse nofun

def decEqArguments : (as bs : List TypeArgument) → Decidable (as = bs)
  | [], [] => isTrue rfl
  | [], _ :: _ | _ :: _, [] => isFalse nofun
  | a :: as, b :: bs =>
    have := a.decEq b
    have := decEqArguments as bs
    decidable_of_iff (a = b ∧ as = bs) (by simp)

end

instance : DecidableEq ClassType := ClassType.decEq
instance : DecidableEq Ty := Ty.decEq
instance : DecidableEq TypeArgument := TypeArgument.decEq

/-! ## Class types -/

namespace ClassType

/-- Binary name of the root of the class hierarchy. -/
def rootName : String := "java/lang/Object"

def stringName : String := "java/lang/String"

def className : String := "java/lang/Class"

/-- The class alone: raw, not an array. -/
def ofName (name : String) : ClassType := ⟨name, none, 0⟩

def root : ClassType := ofName rootName

def string : ClassType := ofName stringName

/-- The type of class literals, `Class<A>`, or raw `Class`. -/
def classOf : Option TypeArgument → ClassType
  | none => ofName className
  | some a => ⟨className, some [a], 0⟩

def withArguments (c : ClassType) (arguments : List TypeArgument) : ClassType :=
  { c with arguments := some arguments }

def withDimension (c : ClassType) (dimension : UInt32) : ClassType := { c with dimension }

/-- The erased form: same class, same dimension, no type arguments. -/
def raw (c : ClassType) : ClassType := { c with arguments := none }

def isRaw (c : ClassType) : Bool := c.arguments.isNone

/-- The root class itself: neither an array nor parameterized. -/
def isRoot (c : ClassType) : Bool := c.dimension == 0 && c.isRaw && c.name == rootName

@[simp] theorem raw_name (c : ClassType) : c.raw.name = c.name := rfl

@[simp] theorem raw_dimension (c : ClassType) : c.raw.dimension = c.dimension := rfl

@[simp] theorem raw_arguments (c : ClassType) : c.raw.arguments = none := rfl

@[simp] theorem raw_raw (c : ClassType) : c.raw.raw = c.raw := rfl

theorem isRoot_iff (c : ClassType) : c.isRoot = true ↔ c = root := by
  obtain ⟨n, a, d⟩ := c
  cases a <;> simp [isRoot, isRaw, root, ofName]
  exact and_comm

end ClassType

/-! ## Types -/

namespace Ty

def ofPrimitive (p : Primitive) : Ty := .primitive p 0

def ofClass (name : String) : Ty := .object (.ofName name)

def ofVar (name : String) : Ty := .var ⟨name, 0⟩

def root : Ty := .object .root

def dimension : Ty → UInt32
  | .primitive _ d => d
  | .object c => c.dimension
  | .var v => v.dimension

/-- The same element type with another array dimension. -/
def withDimension : Ty → UInt32 → Ty
  | .primitive p _, d => .primitive p d
  | .object c, d => .object (c.withDimension d)
  | .var v, d => .var { v with dimension := d }

/-- Type arguments erased; primitives and type variables stay as they are. -/
def raw : Ty → Ty
  | .object c => .object c.raw
  | t => t

def isPrimitive : Ty → Bool
  | .primitive .. => true
  | _ => false

def isObject : Ty → Bool
  | .object _ => true
  | _ => false

def isVar : Ty → Bool
  | .var _ => true
  | _ => false

def class? : Ty → Option ClassType
  | .object c => some c
  | _ => none

def var? : Ty → Option TypeVar
  | .var v => some v
  | _ => none

def isRoot : Ty → Bool
  | .object c => c.isRoot
  | _ => false

@[simp] theorem raw_raw (t : Ty) : t.raw.raw = t.raw := by cases t <;> rfl

@[simp] theorem dimension_withDimension (t : Ty) (d : UInt32) : (t.withDimension d).dimension = d := by
  cases t <;> rfl

theorem isRoot_iff (t : Ty) : t.isRoot = true ↔ t = root := by
  cases t <;> simp [isRoot, root, ClassType.isRoot_iff]

end Ty

end Recast
