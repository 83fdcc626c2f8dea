/-!
# Settings — what a run of the cast pass can be told

Both switches are on by default; logging is at `info`, as text.
-/
namespace Recast

structure LogSettings where
  level : String := "info"
  json : Bool := false
deriving DecidableEq

/-- `removeRedundantCasts` unwraps casts whose operand fits already; `anonymousClassBodies` enters
the bodies attached to object creations. -/
structure Settings where
  removeRedundantCasts : Bool := true
  anonymousClassBodies : Bool := true
  logging : LogSettings := {}
deriving DecidableEq

end Recast
