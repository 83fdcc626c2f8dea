import Recast.Json.Basic
import Recast.Json.Selection
import Recast.Text.Hex
/-!
# Reading JSON — the strict grammar, nothing more

No comments, no trailing commas, no control characters in strings, nothing but blanks after the value.
A number without fraction and exponent is an integer, except `-0`, which is the decimal with that sign.

A selection says what of the value is examined.  There unpaired surrogates, numbers beyond the range
and nesting beyond the given levels are refused; members that are passed over are left out of what is
returned, the grammar of their values checked.

Every reader returns what it read and the rest of the text.  The one for values is bounded by a
number of steps that the length of the text cannot exhaust.
-/
namespace Recast

namespace JsonText

def isBlank (c : Char) : Bool := c == ' ' || c == '\t' || c == '\n' || c == '\r'

def skipBlanks (cs : List Char) : List Char := cs.dropWhile isBlank

def isHighSurrogate (n : Nat) : Bool := 0xD800 ≤ n && n < 0xDC00

def isLowSurrogate (n : Nat) : Bool := 0xDC00 ≤ n && n < 0xE000

def joinSurrogates (high low : Nat) : Nat := 0x10000 + (high - 0xD800) * 0x400 + (low - 0xDC00)

def letterEscape? : Char → Option Char
  | '"' => some '"'
  | '\\' => some '\\'
  | '/' => some '/'
  | 'b' => some '\x08'
  | 'f' => some '\x0c'
  | 'n' => some '\n'
  | 'r' => some '\r'
  | 't' => some '\t'
  | _ => none

/-- The rest of a string after its opening quote; `high` is a surrogate that waits for its partner and
`acc` what has been read, last character first. -/
def quoted (high : Option Nat) (acc : List Char) : List Char → Option (String × List Char)
  | [] => none
  | '"' :: cs => if high.isSome then none else some (String.ofList acc.reverse, cs)
  | '\\' :: 'u' :: a :: b :: c :: d :: cs =>
    match hex? [a, b, c, d], high with
    | some n, some h => if isLowSurrogate n then quoted none (.ofNat (joinSurrogates h n) :: acc) cs else none
    | some n, none =>
      if isHighSurrogate n then quoted (some n) acc cs
      else if isLowSurrogate n then none
      else quoted none (.ofNat n :: acc) cs
    | none, _ => none
  | '\\' :: c :: cs =>
    match letterEscape? c, high with
    | some e, none => quoted none (e :: acc) cs
    | _, _ => none
  | c :: cs => if c.toNat < 32 ∨ high.isSome then none else quoted none (c :: acc) cs

/-- The text behind a string that is passed over. -/
def quotedEnd? : List Char → Option (List Char)
  | [] => none
  | '"' :: cs => some cs
  | '\\' :: 'u' :: a :: b :: c :: d :: cs => if (hex? [a, b, c, d]).isSome then quotedEnd? cs else none
  | '\\' :: c :: cs => if (letterEscape? c).isSome then quotedEnd? cs else none
  | c :: cs => if c.toNat < 32 then none else quotedEnd? cs

/-- The rest of a string after its opening quote; one that is passed over reads as empty. -/
def string (s : Selection) (cs : List Char) : Option (String × List Char) :=
  if s.isNothing then (quotedEnd? cs).map ("", ·) else quoted none [] cs

def digitsValue (ds : List Char) : Nat := ds.foldl (fun n c => 10 * n + (c.toNat - 48)) 0

/-- Leading digits and the rest. -/
def digits (cs : List Char) : List Char × List Char := (cs.takeWhile Char.isDigit, cs.dropWhile Char.isDigit)

/-- Digits of an integer part, without a superfluous zero. -/
def integerPart? (cs : List Char) : Option (List Char × List Char) :=
  match digits cs with
  | ([], _) => none
  | ('0' :: _ :: _, _) => none
  | p => some p

/-- Digits behind a point, if there is one. -/
def fractionPart? : List Char → Option (List Char × List Char)
  | '.' :: cs =>
    match digits cs with
    | ([], _) => none
    | p => some p
  | cs => some ([], cs)

/-- The exponent, if there is one. -/
def exponentPart? : List Char → Option (Option Int × List Char)
  | 'e' :: cs | 'E' :: cs =>
    let (sign, cs) : Int × List Char :=
      match cs with
      | '-' :: cs => (-1, cs)
      | '+' :: cs => (1, cs)
      | cs => (1, cs)
    match digits cs with
    | ([], _) => none
    | (ds, cs) => some (some (sign * digitsValue ds), cs)
  | cs => some (none, cs)

/-- A number of any size. -/
def numeral (cs : List Char) : Option (Number × List Char) := do
  let (negative, cs) :=
    match cs with
    | '-' :: cs => (true, cs)
    | cs => (false, cs)
  let (whole, cs) ← integerPart? cs
  let (fraction, cs) ← fractionPart? cs
  let (exponent, cs) ← exponentPart? cs
  if fraction.isEmpty ∧ exponent.isNone ∧ ¬ (negative ∧ whole = ['0']) then
    let n : Int := digitsValue whole
    return (.integer (if negative then -n else n), cs)
  else
    return (.decimal ⟨negative, digitsValue (whole ++ fraction), exponent.getD 0 - fraction.length⟩, cs)

def number (s : Selection) (cs : List Char) : Option (Number × List Char) :=
  (numeral cs).filter fun (x, _) => s.isNothing || x.toFloat.isFinite

mutual

def value : (steps : Nat) → Selection → (levels : Nat) → List Char → Option (Json × List Char)
  | 0, _, _, _ => none
  | n + 1, s, levels, cs =>
    match skipBlanks cs with
    | 'n' :: 'u' :: 'l' :: 'l' :: cs => some (.null, cs)
    | 't' :: 'r' :: 'u' :: 'e' :: cs => some (.bool true, cs)
    | 'f' :: 'a' :: 'l' :: 's' :: 'e' :: cs => some (.bool false, cs)
    | '"' :: cs => (string s cs).map fun (t, cs) => (.string t, cs)
    | '[' :: cs =>
      match s.enter? levels, skipBlanks cs with
      | none, _ => none
      | some _, ']' :: cs => some (.array [], cs)
      | some levels, cs => (items n s.item levels cs).map fun (js, cs) => (.array js, cs)
    | '{' :: cs =>
      match s.enter? levels, skipBlanks cs with
      | none, _ => none
      | some _, '}' :: cs => some (.object [], cs)
      | some levels, cs =>
        (members n s levels cs).map fun (ms, cs) =>
          (.object (ms.filter fun m => !(s.member m.1).isNothing), cs)
    | cs => (number s cs).map fun (x, cs) => (.number x, cs)

/-- One item or more, up to the closing bracket. -/
def items : (steps : Nat) → (each : Selection) → (levels : Nat) → List Char → Option (List Json × List Char)
  | 0, _, _, _ => none
  | n + 1, each, levels, cs => do
    let (j, cs) ← value n each levels cs
    match skipBlanks cs with
    | ']' :: cs => some ([j], cs)
    | ',' :: cs =>
      let (js, cs) ← items n each levels cs
      some (j :: js, cs)
    | _ => none

/-- A member of an object of which `s` is examined. -/
def member : (steps : Nat) → (s : Selection) → (levels : Nat) → List Char → Option ((String × Json) × List Char)
  | 0, _, _, _ => none
  | n + 1, s, levels, cs =>
    match skipBlanks cs with
    | '"' :: cs => do
      let (name, cs) ← string s cs
      match skipBlanks cs with
      | ':' :: cs =>
        let (j, cs) ← value n (s.member name) levels cs
        some ((name, j), cs)
      | _ => none
    | _ => none

/-- One member or more, up to the closing brace. -/
def members :
    (steps : Nat) → (s : Selection) → (levels : Nat) → List Char → Option (List (String × Json) × List Char)
  | 0, _, _, _ => none
  | n + 1, s, levels, cs => do
    let (m, cs) ← member n s levels cs
    match skipBlanks cs with
    | '}' :: cs => some ([m], cs)
    | ',' :: cs =>
      let (ms, cs) ← members n s levels cs
      some (m :: ms, cs)
    | _ => none

end

end JsonText

namespace Json

/-- What is examined of the value that a text is, blanks around it aside. -/
def readSelected? (s : Selection) (levels : Nat) (text : String) : Option Json :=
  match JsonText.value (3 * text.length + 3) s levels text.toList with
  | some (j, rest) => if (JsonText.skipBlanks rest).isEmpty then some j else none
  | none => none

/-- The whole value that a text is, however deep. -/
def read? (text : String) : Option Json := readSelected? .everything text.length text

end Json

end Recast
