/-!
# Selections — which parts of a value are examined

A record takes the members it knows and passes over the others.  What is passed over need only be
well-formed; what is examined must also be representable, texts and numbers alike, and not nest too
deep.
-/
namespace Recast

/-- What is examined of a value: nothing, everything, of an object the members named, or of an array all
the items in the same way. -/
inductive Selection
  | nothing
  | everything
  | members (named : List (String × Selection))
  | items (each : Selection)

namespace Selection

def isNothing : Selection → Bool
  | nothing => true
  | everything | members _ | items _ => false

/-- What is examined of a member, going by its name. -/
def member : Selection → String → Selection
  | everything, _ => everything
  | members named, name => (named.lookup name).getD nothing
  | nothing, _ | items _, _ => nothing

/-- What is examined of an item. -/
def item : Selection → Selection
  | everything => everything
  | items each => each
  | nothing | members _ => nothing

/-- Levels of nesting left inside an array or object, if it may be entered. -/
def enter? : Selection → (levels : Nat) → Option Nat
  | nothing, n => some n
  | _, 0 => none
  | _, n + 1 => some n

/-- The members of these names, examined throughout. -/
def whole (names : List String) : List (String × Selection) := names.map (·, everything)

end Selection

end Recast
