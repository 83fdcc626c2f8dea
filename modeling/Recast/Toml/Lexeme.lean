import Recast.Json.Basic
import Recast.Text.Hex
/-!
# Lexemes of TOML — blanks, comments, keys and scalar values

A reader returns what it read and the rest of the text, or nothing where the text does not go on as
the grammar asks.  A line ends with a line feed, with or without a carriage return before it; in the
value of a string both read as a line feed.  Control characters other than the tab are refused
everywhere.

Of the scalar values there are strings, booleans and integers; settings have no use for dates and
fractions, and a text with one is refused.
-/
namespace Recast

namespace Toml

abbrev Text := List Char

def isBlank (c : Char) : Bool := c == ' ' || c == '\t'

def skipBlanks (cs : Text) : Text := cs.dropWhile isBlank

/-- A character that may stand in comments and strings. -/
def isPrintable (c : Char) : Bool := c == '\t' || (32 ≤ c.toNat && c.toNat != 127)

/-- The text without a comment in front. -/
def skipComment : Text → Text
  | '#' :: cs => cs.dropWhile isPrintable
  | cs => cs

/-- The text behind a line end. -/
def lineEnd? : Text → Option Text
  | '\n' :: cs => some cs
  | '\r' :: '\n' :: cs => some cs
  | _ => none

/-! ## Strings -/

def letterEscape? : Char → Option Char
  | 'b' => some '\x08'
  | 't' => some '\t'
  | 'n' => some '\n'
  | 'f' => some '\x0c'
  | 'r' => some '\r'
  | '"' => some '"'
  | '\\' => some '\\'
  | _ => none

/-- The character with the code written in exactly `count` hexadecimal digits. -/
def charOfHex? (count : Nat) (cs : Text) : Option Char :=
  if (cs.take count).length = count then
    (hex? (cs.take count)).bind fun n =>
      if n.isValidChar then some (.ofNat n) else none
  else none

/-- The character of an escape and the rest, behind the backslash. -/
def escape? : Text → Option (Char × Text)
  | 'u' :: cs => (charOfHex? 4 cs).map (·, cs.drop 4)
  | 'U' :: cs => (charOfHex? 8 cs).map (·, cs.drop 8)
  | c :: cs => (letterEscape? c).map (·, cs)
  | [] => none

/-- The text behind blanks and line ends; `steps` bounds the number of line ends. -/
def dropLines : (steps : Nat) → Text → Text
  | 0, cs => cs
  | n + 1, cs =>
    match lineEnd? (skipBlanks cs) with
    | some rest => dropLines n rest
    | none => skipBlanks cs

/-- What may follow a backslash at the end of a line: blanks and line ends, with one line end at least. -/
def foldedLine? (cs : Text) : Option Text := (lineEnd? (skipBlanks cs)).map (dropLines cs.length)

/-- The rest of a one-line string up to its closing quote, `acc` holding what was read in reverse.
`steps` bounds the length of the string. -/
def lineString (quote : Char) : (steps : Nat) → (acc : List Char) → Text → Option (String × Text)
  | 0, _, _ => none
  | _ + 1, _, [] => none
  | n + 1, acc, c :: cs =>
    if c = quote then some (String.ofList acc.reverse, cs)
    else if c = '\\' ∧ quote = '"' then
      (escape? cs).bind fun (e, cs) => lineString quote n (e :: acc) cs
    else if isPrintable c then lineString quote n (c :: acc) cs
    else none

/-- The end of a string in triple quotes: of up to five quotes in a row the last three close it, and
those before belong to it. -/
def closing? (quote : Char) (cs : Text) : Option (List Char × Text) :=
  let run := (cs.takeWhile (· == quote)).length
  if run < 3 then none
  else
    let inside := min (run - 3) 2
    some (List.replicate inside quote, cs.drop (inside + 3))

/-- The rest of a string in triple quotes. -/
def blockString (quote : Char) : (steps : Nat) → (acc : List Char) → Text → Option (String × Text)
  | 0, _, _ => none
  | _ + 1, _, [] => none
  | n + 1, acc, c :: cs =>
    match closing? quote (c :: cs), lineEnd? (c :: cs) with
    | some (quotes, rest), _ => some (String.ofList (quotes ++ acc).reverse, rest)
    | none, some rest => blockString quote n ('\n' :: acc) rest
    | none, none =>
      if c = '\\' ∧ quote = '"' then
        match foldedLine? cs with
        | some rest => blockString quote n acc rest
        | none => (escape? cs).bind fun (e, rest) => blockString quote n (e :: acc) rest
      else if isPrintable c then blockString quote n (c :: acc) cs
      else none

/-- A line end right behind the opening quotes is not part of the string. -/
def openBlock (quote : Char) (cs : Text) : Option (String × Text) :=
  blockString quote (cs.length + 1) [] ((lineEnd? cs).getD cs)

def string? : Text → Option (String × Text)
  | '"' :: '"' :: '"' :: cs => openBlock '"' cs
  | '\'' :: '\'' :: '\'' :: cs => openBlock '\'' cs
  | '"' :: cs => lineString '"' (cs.length + 1) [] cs
  | '\'' :: cs => lineString '\'' (cs.length + 1) [] cs
  | _ => none

/-! ## Keys -/

def isKeyChar (c : Char) : Bool := c.isAlphanum || c == '_' || c == '-'

/-- One part of a key, bare or in quotes; triple quotes do not make a key. -/
def keyPart? (cs : Text) : Option (String × Text) :=
  match cs with
  | '"' :: rest => lineString '"' (rest.length + 1) [] rest
  | '\'' :: rest => lineString '\'' (rest.length + 1) [] rest
  | cs =>
    match cs.takeWhile isKeyChar with
    | [] => none
    | name => some (String.ofList name, cs.dropWhile isKeyChar)

/-- A key of one part or more with dots between them, blanks allowed around each. -/
def key? : (steps : Nat) → Text → Option (List String × Text)
  | 0, _ => none
  | n + 1, cs =>
    (keyPart? (skipBlanks cs)).bind fun (name, cs) =>
      match skipBlanks cs with
      | '.' :: cs => (key? n cs).map fun (names, cs) => (name :: names, cs)
      | cs => some ([name], cs)

/-! ## Integers -/

/-- Digits that may have single underscores between them. -/
def groupedDigits? (cs : List Char) : Option (List Char) :=
  let groups := cs.splitOn '_'
  if groups.any (·.isEmpty) then none else some groups.flatten

def ofDigits? (base : Nat) (cs : List Char) : Option Nat :=
  (groupedDigits? cs).bind fun ds =>
    ds.foldlM (fun n c => (hexValue? c).bind fun d => if d < base then some (base * n + d) else none) 0

/-- A decimal has no leading zero. -/
def ofDecimal? : List Char → Option Nat
  | '0' :: _ :: _ => none
  | cs => ofDigits? 10 cs

def integer? : List Char → Option Int
  | '0' :: 'x' :: ds => (ofDigits? 16 ds).map .ofNat
  | '0' :: 'o' :: ds => (ofDigits? 8 ds).map .ofNat
  | '0' :: 'b' :: ds => (ofDigits? 2 ds).map .ofNat
  | '+' :: ds => (ofDecimal? ds).map .ofNat
  | '-' :: ds => (ofDecimal? ds).map fun n => -(n : Int)
  | ds => (ofDecimal? ds).map .ofNat

def isWordChar (c : Char) : Bool := isKeyChar c || c == '+' || c == '.'

/-- A value that is neither a string nor a container. -/
def word? (cs : Text) : Option (Json × Text) :=
  match cs.takeWhile isWordChar, cs.dropWhile isWordChar with
  | ['t', 'r', 'u', 'e'], rest => some (.bool true, rest)
  | ['f', 'a', 'l', 's', 'e'], rest => some (.bool false, rest)
  | word, rest => (integer? word).map fun n => (.integer n, rest)

end Toml

end Recast
