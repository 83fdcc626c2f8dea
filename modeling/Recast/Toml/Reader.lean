import Recast.Toml.Lexeme
import Recast.Toml.Table
/-!
# Reading TOML — a text as the object its tables make

A document is a sequence of lines: a key with its value, a header, or nothing, each with a comment
after it if need be.  Values nest in arrays, which may span lines, and in inline tables, which may
not.  A byte order mark in front is skipped.
-/
namespace Recast

namespace Toml

/-- Blanks, comments and line ends, in any number. -/
def skipLines : (steps : Nat) → Text → Text
  | 0, cs => cs
  | n + 1, cs =>
    match lineEnd? (skipComment (skipBlanks cs)) with
    | some rest => skipLines n rest
    | none => skipComment (skipBlanks cs)

mutual

def value? : (steps : Nat) → Text → Option (Json × Text)
  | 0, _ => none
  | n + 1, cs =>
    match cs with
    | '[' :: cs => (items? n cs).map fun (js, cs) => (.array js, cs)
    | '{' :: cs =>
      match skipBlanks cs with
      | '}' :: cs => some (.object [], cs)
      | cs => (pairs? n [] cs).map fun (es, cs) => (.object (entriesToMembers es), cs)
    | cs =>
      match string? cs with
      | some (s, cs) => some (.string s, cs)
      | none => word? cs

/-- The items of an array up to its bracket; a comma may follow the last one. -/
def items? : (steps : Nat) → Text → Option (List Json × Text)
  | 0, _ => none
  | n + 1, cs =>
    match skipLines (cs.length + 1) cs with
    | ']' :: cs => some ([], cs)
    | cs => do
      let (j, cs) ← value? n cs
      match skipLines (cs.length + 1) cs with
      | ',' :: cs =>
        let (js, cs) ← items? n cs
        some (j :: js, cs)
      | ']' :: cs => some ([j], cs)
      | _ => none

/-- The pairs of an inline table up to its brace, added to those before. -/
def pairs? : (steps : Nat) → Entries → Text → Option (Entries × Text)
  | 0, _, _ => none
  | n + 1, es, cs => do
    let (key, cs) ← key? (cs.length + 1) cs
    match skipBlanks cs with
    | '=' :: cs =>
      let (j, cs) ← value? n (skipBlanks cs)
      let es ← Entries.assign j key es
      match skipBlanks cs with
      | ',' :: cs => pairs? n es cs
      | '}' :: cs => some (es, cs)
      | _ => none
    | _ => none

end

/-- The document so far: its entries, and the table that the last header opened. -/
structure Document where
  entries : Entries
  current : List String

/-- One line up to its end or comment. -/
def line? (d : Document) (cs : Text) : Option (Document × Text) :=
  match skipBlanks cs with
  | [] => some (d, [])
  | '#' :: cs => some (d, '#' :: cs)
  | '\n' :: cs => some (d, '\n' :: cs)
  | '\r' :: cs => some (d, '\r' :: cs)
  | '[' :: '[' :: cs => do
    let (key, cs) ← key? (cs.length + 1) cs
    match cs with
    | ']' :: ']' :: cs =>
      let es ← d.entries.open? Entries.appendTable key
      some (⟨es, key⟩, cs)
    | _ => none
  | '[' :: cs => do
    let (key, cs) ← key? (cs.length + 1) cs
    match cs with
    | ']' :: cs =>
      let es ← d.entries.open? Entries.defineTable key
      some (⟨es, key⟩, cs)
    | _ => none
  | cs => do
    let (key, cs) ← key? (cs.length + 1) cs
    match cs with
    | '=' :: cs =>
      let (j, cs) ← value? (2 * cs.length + 2) (skipBlanks cs)
      let es ← d.entries.assignBelow key j d.current
      some (⟨es, d.current⟩, cs)
    | _ => none

def lines? : (steps : Nat) → Document → Text → Option Document
  | 0, _, _ => none
  | n + 1, d, cs => do
    let (d, cs) ← line? d cs
    match skipComment (skipBlanks cs) with
    | [] => some d
    | cs =>
      let cs ← lineEnd? cs
      lines? n d cs

def skipByteOrderMark : Text → Text
  | '\uFEFF' :: cs => cs
  | cs => cs

/-- The document that a text is. -/
def read? (text : String) : Option Json :=
  let cs := skipByteOrderMark text.toList
  (lines? (cs.length + 1) ⟨[], []⟩ cs).map fun d => .object (entriesToMembers d.entries)

end Toml

end Recast
