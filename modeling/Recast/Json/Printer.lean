import Recast.Json.Basic
/-!
# Writing JSON — values as text, on one line or indented

Strings escape the quote, the backslash and the control characters, those with a letter by their
letter and the rest by number.  The indented form puts every item and member on a line of its own,
two spaces deeper than what holds it; an empty array or object stays on its line.
-/
namespace Recast

namespace Json

def hexDigit (n : Nat) : Char := Nat.digitChar n

def escaped (c : Char) : String :=
  if c = '"' then "\\\"" else if c = '\\' then "\\\\"
  else if c = '\x08' then "\\b" else if c = '\x0c' then "\\f"
  else if c = '\n' then "\\n" else if c = '\r' then "\\r" else if c = '\t' then "\\t"
  else if c.toNat < 32 then "\\u00" ++ String.ofList [hexDigit (c.toNat / 16), hexDigit (c.toNat % 16)]
  else c.toString

/-- The string in quotes, after `out`. -/
def quotedTo (out s : String) : String := (s.foldl (fun out c => out ++ escaped c) (out.push '"')).push '"'

def newline (out : String) (level : Nat) : String :=
  level.fold (fun _ _ out => out ++ "  ") (out.push '\n')

end Json

mutual

/-- The value on one line, after `out`. -/
def Json.compactTo (out : String) : Json → String
  | .null => out ++ "null"
  | .bool b => out ++ if b then "true" else "false"
  | .number n => out ++ n.text
  | .string s => Json.quotedTo out s
  | .array [] => out ++ "[]"
  | .array (j :: js) => (compactItems (j.compactTo (out.push '[')) js).push ']'
  | .object [] => (out.push '{').push '}'
  | .object ((n, j) :: ms) =>
    (compactMembers (j.compactTo ((Json.quotedTo (out.push '{') n).push ':')) ms).push '}'

def compactItems (out : String) : List Json → String
  | [] => out
  | j :: js => compactItems (j.compactTo (out.push ',')) js

def compactMembers (out : String) : List (String × Json) → String
  | [] => out
  | (n, j) :: ms => compactMembers (j.compactTo ((Json.quotedTo (out.push ',') n).push ':')) ms

end

mutual

/-- The indented value, after `out`, its lines at `level` below the first. -/
def Json.prettyTo (level : Nat) (out : String) : Json → String
  | .null => out ++ "null"
  | .bool b => out ++ if b then "true" else "false"
  | .number n => out ++ n.text
  | .string s => Json.quotedTo out s
  | .array [] => out ++ "[]"
  | .array (j :: js) =>
    let first := j.prettyTo (level + 1) (Json.newline (out.push '[') (level + 1))
    (Json.newline (prettyItems (level + 1) first js) level).push ']'
  | .object [] => (out.push '{').push '}'
  | .object ((n, j) :: ms) =>
    let name := Json.quotedTo (Json.newline (out.push '{') (level + 1)) n
    let first := j.prettyTo (level + 1) (name ++ ": ")
    (Json.newline (prettyMembers (level + 1) first ms) level).push '}'

def prettyItems (level : Nat) (out : String) : List Json → String
  | [] => out
  | j :: js => prettyItems level (j.prettyTo level (Json.newline (out.push ',') level)) js

def prettyMembers (level : Nat) (out : String) : List (String × Json) → String
  | [] => out
  | (n, j) :: ms =>
    prettyMembers level (j.prettyTo level (Json.quotedTo (Json.newline (out.push ',') level) n ++ ": ")) ms

end

namespace Json

def compact (j : Json) : String := j.compactTo ""

def pretty (j : Json) : String := j.prettyTo 0 ""

end Json

end Recast
