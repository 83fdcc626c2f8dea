import Recast.Ty.Basic
/-!
# Descriptors — the erased form in which class files spell types

A field descriptor is `[` once per dimension, then a primitive's letter or `L`, a class name and
`;`.  A method descriptor is the parameters' descriptors in parentheses and the result's, or `V`.
`component` reads one field descriptor off the front of a text and returns what is left.

An error names what is wrong with the whole text: it does not spell a type, goes on after a
complete one, or has `void` where a value is needed.
-/
namespace Recast

inductive DescriptorFault
  | malformed
  | trailing
  | misplacedVoid
deriving DecidableEq

structure DescriptorError where
  fault : DescriptorFault
  text : String
deriving DecidableEq

def DescriptorError.message (e : DescriptorError) : String :=
  match e.fault with
  | .malformed => "invalid descriptor: " ++ e.text
  | .trailing => "descriptor has trailing input after a complete type: " ++ e.text
  | .misplacedVoid => "`void` is only valid as a method return type: " ++ e.text

structure MethodType where
  parameters : List Ty
  returns : Ty
deriving DecidableEq

def MethodType.arity (m : MethodType) : Nat := m.parameters.length

namespace Descriptor

/-- Split at the first `;`, which belongs to neither part. -/
def className : List Char → Option (List Char × List Char)
  | [] => none
  | c :: cs => if c = ';' then some ([], cs) else (className cs).map fun (n, r) => (c :: n, r)

/-- The field descriptor in front, under `dimension` brackets already read, and the rest. -/
def component (dimension : UInt32) : List Char → Except DescriptorFault (Ty × List Char)
  | [] => .error .malformed
  | '[' :: cs => component (dimension + 1) cs
  | 'L' :: cs =>
    match className cs with
    | some (c :: n, rest) => .ok (.object ⟨String.ofList (c :: n), none, dimension⟩, rest)
    | _ => .error .malformed
  | c :: cs =>
    match Primitive.ofLetter? c with
    | some .void => .error .misplacedVoid
    | some p => .ok (.primitive p dimension, cs)
    | none => .error .malformed

theorem className_length : ∀ {cs n r : List Char}, className cs = some (n, r) → r.length < cs.length
  | [], _, _, h => by simp [className] at h
  | c :: cs, n, r, h => by
    unfold className at h
    split at h
    · simp only [Option.some.injEq, Prod.mk.injEq] at h
      simp [h.2]
    · obtain ⟨⟨n', r'⟩, h', heq⟩ := Option.map_eq_some_iff.1 h
      have := className_length h'
      simp only [Prod.mk.injEq] at heq
      simp only [List.length_cons, ← heq.2]
      omega

/-- A component takes at least one character. -/
theorem component_length : ∀ {cs : List Char} {d : UInt32} {t : Ty} {r : List Char},
    component d cs = .ok (t, r) → r.length < cs.length
  | [], d, t, r, h => by simp [component] at h
  | c :: cs, d, t, r, h => by
    unfold component at h
    split at h
    · simp at h
    · rename_i heq
      cases heq
      have := component_length h
      simp only [List.length_cons]
      omega
    · rename_i heq
      cases heq
      split at h
      · rename_i hn
        cases h
        have := className_length hn
        simp only [List.length_cons]
        omega
      · simp at h
    · rename_i heq
      cases heq
      split at h
      · simp at h
      · cases h
        simp
      · simp at h

def fieldType (cs : List Char) : Except DescriptorFault Ty :=
  match component 0 cs with
  | .ok (t, []) => .ok t
  | .ok (_, _ :: _) => .error .trailing
  | .error f => .error f

/-- Parameters up to the closing parenthesis, and what follows it. -/
def parameters (cs : List Char) : Except DescriptorFault (List Ty × List Char) :=
  match cs with
  | ')' :: rest => .ok ([], rest)
  | cs =>
    match _h : component 0 cs with
    | .ok (t, rest) =>
      match parameters rest with
      | .ok (ts, rest) => .ok (t :: ts, rest)
      | .error f => .error f
    | .error f => .error f
termination_by cs.length
decreasing_by exact component_length _h

def methodType : List Char → Except DescriptorFault MethodType
  | '(' :: cs =>
    match parameters cs with
    | .ok (ts, ['V']) => .ok ⟨ts, .ofPrimitive .void⟩
    | .ok (ts, rest) => (fieldType rest).map (⟨ts, ·⟩)
    | .error f => .error f
  | _ => .error .malformed

end Descriptor

/-- The erased type that a field descriptor spells. -/
def Ty.ofDescriptor (text : String) : Except DescriptorError Ty :=
  (Descriptor.fieldType text.toList).mapError (⟨·, text⟩)

/-- The erased signature that a method descriptor spells. -/
def MethodType.ofDescriptor (text : String) : Except DescriptorError MethodType :=
  (Descriptor.methodType text.toList).mapError (⟨·, text⟩)

end Recast
