import Recast.Settings.Basic
import Recast.Settings.LogLevel
import Recast.Text.Alphanumeric
import Recast.Text.Blank
/-!
# Log filters — which targets and spans log at which level

A filter is a list of directives, at most one for each place: a target, a span, a span of a target, or
everything.  Those without a span come first; among them, as among the others, the more specific do:
longer targets before shorter ones, targets of one length in descending order, and a directive without
a target last.

The level of the settings may be a whole filter.  The environment's filter is added to it and wins
where both have a directive; where the two together are not a filter, the environment's counts alone,
then the settings' alone, then `info`.
-/
namespace Recast

structure Directive where
  target : Option String
  span : Option String
  level : LogLevel
deriving DecidableEq

abbrev LogFilter := List Directive

namespace Directive

/-- The directive for everything. -/
def everywhere (l : LogLevel) : Directive := ⟨none, none, l⟩

/-- A directive begins with the span's bracket or with a character of a target. -/
def starts (c : Char) : Bool := isAlphanumeric c || ['-', ':', '_', '['].contains c

/-- The level behind an equals sign; nothing stands for everything. -/
def levelAfter? (cs : List Char) : Option LogLevel := if cs.isEmpty then some .trace else LogLevel.ofText? cs

/-- `[SPAN]` or `[SPAN]=LEVEL` behind the target.  The span ends where `shape` says; the parts are taken
from `cs`. -/
def ofSpan? (target : Option String) (shape cs : List Char) : Option Directive :=
  let n := (shape.takeWhile (· != ']')).length
  let directive := Directive.mk target (some (String.ofList (cs.take n)))
  if (shape.take n).contains '\x7b' then none
  else match shape.drop n with
    | [_] => some (directive .trace)
    | _ :: '=' :: _ => (levelAfter? (cs.drop (n + 2))).map directive
    | _ => none

/-- `LEVEL`, `TARGET`, `TARGET=LEVEL`, and the forms with a span; without a level everything gets
through.  A span may not restrict fields.

Blanks around a directive belong to its parts: where the parts end is seen in the trimmed text, and
they are taken at the same places of the text as it is, so that blanks in front leave no level. -/
def ofText? (cs : List Char) : Option Directive :=
  let shape := trimBlanks cs
  let n := (shape.takeWhile fun c => c != '=' && c != '[').length
  let target := String.ofList (cs.take n)
  if !(shape.head?.any starts) then none
  else match shape.drop n with
    | [] =>
      match LogLevel.ofText? cs with
      | some l => some (everywhere l)
      | none => some ⟨some (String.ofList cs), none, .trace⟩
    | '=' :: _ => (levelAfter? (cs.drop (n + 1))).map (⟨some target, none, ·⟩)
    | _ :: rest => ofSpan? (if n = 0 then none else some target) rest (cs.drop (n + 1))

/-- What is before the level's equals sign, if anything. -/
def place? (d : Directive) : Option String :=
  match d.target, d.span with
  | none, none => none
  | t, none => t
  | t, some s => some (t.getD "" ++ "[" ++ s ++ "]")

def text (d : Directive) : String :=
  match d.place? with
  | some p => p ++ "=" ++ d.level.word
  | none => d.level.word

/-- Whether one target is more specific than another. -/
def moreSpecific : Option String → Option String → Bool
  | some s, some t => t.utf8ByteSize < s.utf8ByteSize || (s.utf8ByteSize == t.utf8ByteSize && t < s)
  | some _, none => true
  | none, _ => false

/-- Whether one directive stands before another. -/
def precedes (d e : Directive) : Bool :=
  match d.span, e.span with
  | none, some _ => true
  | some _, none => false
  | none, none => moreSpecific d.target e.target
  | some s, some t => if d.target = e.target then t < s else moreSpecific d.target e.target

end Directive

namespace LogFilter

/-- Put a directive in its place, instead of the one for the same target and span. -/
def insert (d : Directive) : LogFilter → LogFilter
  | [] => [d]
  | x :: xs =>
    if d.target = x.target ∧ d.span = x.span then d :: xs
    else if d.precedes x then d :: x :: xs
    else x :: insert d xs

/-- Directives with commas between them; empty ones are passed over, and of two for one place the later
counts. -/
def ofText? (cs : List Char) : Option LogFilter :=
  (((cs.splitOn ',').filter (!·.isEmpty)).mapM Directive.ofText?).map fun ds => ds.foldl (fun f d => insert d f) []

def text (f : LogFilter) : String := ",".intercalate (f.map Directive.text)

end LogFilter

namespace LogSettings

/-- The level as a filter text: one of the common level names becomes its lower-case word, with
`warning` for `warn`, and nothing at all becomes the default. -/
def levelText (s : LogSettings) : List Char :=
  let level := trimBlanks s.level.toList
  let word := (String.ofList level).toLower
  if level.isEmpty then "info".toList
  else if word = "warning" then "warn".toList
  else if ["trace", "debug", "info", "warn", "error"].contains word then word.toList
  else level

/-- The filter in force, given the environment's. -/
def filter (s : LogSettings) (environment : Option String) : LogFilter :=
  let level := s.levelText
  let alone := (LogFilter.ofText? level).getD [.everywhere .info]
  match trimBlanks (environment.getD "").toList with
  | [] => alone
  | env => (LogFilter.ofText? (level ++ ',' :: env)).getD ((LogFilter.ofText? env).getD alone)

end LogSettings

end Recast
