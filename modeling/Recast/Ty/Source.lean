import Recast.Ty.Basic
/-!
# Types in source form — the text a type has in source code

Package and nesting separators become dots, type arguments stand in angle brackets with ", "
between them, and every array dimension is one pair of brackets.
-/
namespace Recast

def isSeparator (c : Char) : Bool := c == '/' || c == '$'

/-- One pair of brackets per dimension. -/
def brackets (dimension : UInt32) : String :=
  String.join (List.replicate dimension.toNat "[]")

namespace ClassType

/-- `java/util/Map$Entry` reads `java.util.Map.Entry`. -/
def qualifiedName (c : ClassType) : String :=
  c.name.map fun ch => if isSeparator ch then '.' else ch

/-- The part of the name after its last separator. -/
def simpleName (c : ClassType) : String :=
  String.ofList (c.name.toList.reverse.takeWhile (!isSeparator ·)).reverse

end ClassType

mutual

def ClassType.source : ClassType → String
  | ⟨n, none, d⟩ => (ClassType.ofName n).qualifiedName ++ brackets d
  | ⟨n, some as, d⟩ =>
    (ClassType.ofName n).qualifiedName ++ "<" ++ ", ".intercalate (sourceArguments as) ++ ">" ++ brackets d

def Ty.source : Ty → String
  | .primitive p d => p.keyword ++ brackets d
  | .object c => c.source
  | .var v => v.name ++ brackets v.dimension

def TypeArgument.source : TypeArgument → String
  | .exact t => t.source
  | .any => "?"
  | .upper t => "? extends " ++ t.source
  | .lower t => "? super " ++ t.source

def sourceArguments : List TypeArgument → List String
  | [] => []
  | a :: as => a.source :: sourceArguments as

end

end Recast
