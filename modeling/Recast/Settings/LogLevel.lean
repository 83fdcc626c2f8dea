/-!
# Log levels — from nothing to everything
-/
namespace Recast

inductive LogLevel
  | off | error | warn | info | debug | trace
deriving DecidableEq

namespace LogLevel

def word : LogLevel → String
  | off => "off"
  | error => "error"
  | warn => "warn"
  | info => "info"
  | debug => "debug"
  | trace => "trace"

/-- From the least to the most, so that a level's place is its number. -/
def all : List LogLevel := [off, error, warn, info, debug, trace]

/-- By its word, in upper or lower case. -/
def ofWord? (w : String) : Option LogLevel := all.find? (·.word == w.toLower)

/-- By its number, which may have a plus sign and leading zeros. -/
def ofNumber? (cs : List Char) : Option LogLevel :=
  let digits := match cs with | '+' :: ds => ds | ds => ds
  if digits.isEmpty || !digits.all Char.isDigit then none
  else all[digits.foldl (fun n d => 10 * n + (d.toNat - 48)) 0]?

def ofText? (cs : List Char) : Option LogLevel := (ofNumber? cs).or (ofWord? (String.ofList cs))

end LogLevel

end Recast
