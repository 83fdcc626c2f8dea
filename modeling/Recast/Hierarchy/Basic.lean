import Recast.Ty.Basic
import Recast.Descriptor
/-!
# Class hierarchy — the classes a program's types refer to

A `ClassDecl` is what assignability and overloading need of one class: its parameters, its direct
supertypes in terms of them, and its methods by name and descriptor.  A `Hierarchy` holds at most one
declaration per name, which is part of its type.  Registering checks every method descriptor first
and puts the class in, in place of the one of that name, only if each has an arity.

A class that is not registered is opaque: it has no supertypes and no methods.
-/
namespace Recast

inductive ClassKind
  | ordinary
  | interface
deriving DecidableEq

/-- A method by name and descriptor; constructors are called `<init>`. -/
structure MethodDecl where
  name : String
  descriptor : String
deriving DecidableEq

namespace MethodDecl

def constructorName : String := "<init>"

def arity? (m : MethodDecl) : Option Nat :=
  match MethodType.ofDescriptor m.descriptor with
  | .ok t => some t.arity
  | .error _ => none

end MethodDecl

structure ClassDecl where
  name : String
  kind : ClassKind
  parameters : List String
  superclass : Option ClassType
  interfaces : List ClassType
  methods : List MethodDecl
deriving DecidableEq

namespace ClassDecl

/-- A class below the root, without parameters, interfaces or methods. -/
def ofClass (name : String) : ClassDecl := ⟨name, .ordinary, [], some .root, [], []⟩

def ofInterface (name : String) : ClassDecl := ⟨name, .interface, [], none, [], []⟩

def withMethods (c : ClassDecl) (methods : List (String × String)) : ClassDecl :=
  { c with methods := methods.map fun (n, d) => ⟨n, d⟩ }

/-- The fault of the first method descriptor that has one. -/
def fault? (c : ClassDecl) : Option DescriptorError :=
  c.methods.findSome? fun m =>
    match MethodType.ofDescriptor m.descriptor with
    | .ok _ => none
    | .error e => some e

end ClassDecl

/-- Class declarations by name, the last one put in first. -/
structure Hierarchy where
  classes : List ClassDecl
  distinct : classes.Pairwise (fun a b => a.name ≠ b.name)

namespace Hierarchy

def empty : Hierarchy := ⟨[], .nil⟩

def find? (h : Hierarchy) (name : String) : Option ClassDecl :=
  h.classes.find? (·.name == name)

def contains (h : Hierarchy) (name : String) : Bool := (h.find? name).isSome

/-- The raw type of a registered class. -/
def resolve? (h : Hierarchy) (name : String) : Option ClassType :=
  if h.contains name then some (.ofName name) else none

/-- Put a declaration in, in place of the one of that name. -/
def put (h : Hierarchy) (c : ClassDecl) : Hierarchy where
  classes := c :: h.classes.filter (·.name != c.name)
  distinct := List.pairwise_cons.2
    ⟨fun _ hd => Ne.symm (bne_iff_ne.1 (List.mem_filter.1 hd).2), h.distinct.filter _⟩

/-- The last declaration of a name is the one that is found. -/
theorem find?_put (h : Hierarchy) (c : ClassDecl) (name : String) :
    (h.put c).find? name = if name = c.name then some c else h.find? name := by
  by_cases hn : name = c.name
  · simp [find?, put, hn]
  · simp only [find?, put, if_neg hn]
    rw [List.find?_cons_of_neg (by simpa using Ne.symm hn), List.find?_filter]
    congr 1
    funext d
    by_cases hd : d.name = name
    · simp [hd, hn]
    · simp [hd]

def register (h : Hierarchy) (c : ClassDecl) : Except DescriptorError Hierarchy :=
  match c.fault? with
  | none => .ok (h.put c)
  | some e => .error e

end Hierarchy

end Recast
