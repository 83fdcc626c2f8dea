import Recast.Ty.Bounds
import Recast.Json.Document
/-!
# Serialized types — types, arguments and bounds as JSON

A type is an object with the member `kind` beside its parts, an argument one with the member
`bound`; bounds are an object from names to lists.  A dimension of zero and a missing argument list
are not written, so the raw form and the diamond differ.  Decoding is bounded by the nesting of the
value.
-/
namespace Recast

namespace Primitive

def all : List Primitive := [boolean, byte, char, short, int, long, float, double, void]

def ofKeyword? (w : String) : Option Primitive := all.find? (·.keyword == w)

theorem ofKeyword?_keyword (p : Primitive) : ofKeyword? p.keyword = some p := by
  cases p <;> rfl

def decode : Decoder Primitive := fun j => (Decoder.string j).bind ofKeyword?

end Primitive

/-! ## Encoding -/

/-- The member for a dimension, unless it is zero. -/
def dimensionMember (d : UInt32) : Json.Members :=
  Json.optionalMember "dimension" (if d = 0 then none else some (Json.nat d.toNat))

mutual

def ClassType.encodeMembers : ClassType → Json.Members
  | ⟨n, none, d⟩ => ("internal_name", .string n) :: dimensionMember d
  | ⟨n, some as, d⟩ =>
    ("internal_name", .string n) :: ("type_arguments", .array (encodeArguments as)) :: dimensionMember d

def Ty.encode : Ty → Json
  | .primitive p d => .object (("kind", .string "primitive") :: ("primitive", .string p.keyword) :: dimensionMember d)
  | .object c => .object (("kind", .string "object") :: c.encodeMembers)
  | .var v => .object (("kind", .string "generic") :: ("name", .string v.name) :: dimensionMember v.dimension)

def TypeArgument.encode : TypeArgument → Json
  | .exact t => .object [("bound", .string "type"), ("type", t.encode)]
  | .any => .object [("bound", .string "wildcard")]
  | .upper t => .object [("bound", .string "extends"), ("type", t.encode)]
  | .lower t => .object [("bound", .string "super"), ("type", t.encode)]

def encodeArguments : List TypeArgument → List Json
  | [] => []
  | a :: as => a.encode :: encodeArguments as

end

def ClassType.encode (c : ClassType) : Json := .object c.encodeMembers

def TypeVar.encode (v : TypeVar) : Json := .object (("name", .string v.name) :: dimensionMember v.dimension)

def TypeBounds.encode (b : TypeBounds) : Json :=
  .object (b.entries.map fun (n, ts) => (n, Json.ofList Ty.encode ts))

/-! ## Decoding -/

mutual

def decodeClassMembers : Nat → Json.Members → Option ClassType
  | 0, _ => none
  | n + 1, ms => do
    let name ← ms.required "internal_name" .string
    let arguments ← ms.nullable "type_arguments" (.list (decodeArgument n))
    let dimension ← ms.withDefault "dimension" 0 .uint32
    return ⟨name, arguments, dimension⟩

def decodeTy : Nat → Decoder Ty
  | 0, _ => none
  | n + 1, j => do
    let ms ← j.members?
    match ← ms.required "kind" .string with
    | "primitive" =>
      let primitive ← ms.required "primitive" Primitive.decode
      let dimension ← ms.withDefault "dimension" 0 .uint32
      return .primitive primitive dimension
    | "object" => (decodeClassMembers n ms).map .object
    | "generic" =>
      let name ← ms.required "name" .string
      let dimension ← ms.withDefault "dimension" 0 .uint32
      return .var ⟨name, dimension⟩
    | _ => none

def decodeArgument : Nat → Decoder TypeArgument
  | 0, _ => none
  | n + 1, j => do
    let ms ← j.members?
    match ← ms.required "bound" .string with
    | "type" => (ms.required "type" (decodeTy n)).map .exact
    | "wildcard" =>
      match ← ms.nullable "type" some with
      | none => return .any
      | some _ => none
    | "extends" => (ms.required "type" (decodeTy n)).map .upper
    | "super" => (ms.required "type" (decodeTy n)).map .lower
    | _ => none

end

/-- Each level of nesting takes three steps at most. -/
def typeSteps (j : Json) : Nat := 3 * j.depth + 3

def Ty.decode : Decoder Ty := fun j => decodeTy (typeSteps j) j

def TypeArgument.decode : Decoder TypeArgument := fun j => decodeArgument (typeSteps j) j

def ClassType.decode : Decoder ClassType := fun j => j.members?.bind (decodeClassMembers (typeSteps j))

/-- Of entries with one name the last counts. -/
def TypeBounds.decode : Decoder TypeBounds := fun j => do
  let entries ← (← j.members?).mapM fun (n, ts) => (Decoder.list Ty.decode ts).map (n, ·)
  return .ofList entries

/-! ## Documents

An argument and a class type are records, which pass over what they do not know; of a type and of bounds
everything is examined. -/

def TypeArgument.selection : Selection := .members (Selection.whole ["bound", "type"])

def ClassType.selection : Selection :=
  .members (("type_arguments", .items TypeArgument.selection) :: Selection.whole ["internal_name", "dimension"])

def Ty.ofJson? : String → Option Ty := Ty.decode.ofDocument? .everything

def TypeArgument.ofJson? : String → Option TypeArgument := TypeArgument.decode.ofDocument? TypeArgument.selection

def ClassType.ofJson? : String → Option ClassType := ClassType.decode.ofDocument? ClassType.selection

def TypeBounds.ofJson? : String → Option TypeBounds := TypeBounds.decode.ofDocument? .everything

end Recast
