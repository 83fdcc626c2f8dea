import Recast.Json.Basic
/-!
# Tables of TOML — what keys and headers define, and what they may not define twice

A table remembers how it came about: from a header, from the prefix of a header or of a dotted key,
or closed with all its content as an inline value.  A header defines its table once and may come
after a header below it; dotted keys go on only in tables that dotted keys began.  An array of tables
grows by one table per header and is entered at its last.
-/
namespace Recast

namespace Toml

/-- What made a table: a header, the way to another header's table, or a dotted key. -/
inductive Origin
  | header
  | passed
  | dotted
deriving DecidableEq

inductive Node
  | value (value : Json)
  | table (origin : Origin) (entries : List (String × Node))
  | tables (items : List (List (String × Node)))

abbrev Entries := List (String × Node)

mutual

def Node.toJson : Node → Json
  | .value j => j
  | .table _ es => .object (entriesToMembers es)
  | .tables ts => .array (tablesToJson ts)

def entriesToMembers : List (String × Node) → List (String × Json)
  | [] => []
  | (n, x) :: es => (n, x.toJson) :: entriesToMembers es

def tablesToJson : List (List (String × Node)) → List Json
  | [] => []
  | es :: ts => .object (entriesToMembers es) :: tablesToJson ts

end

namespace Entries

/-- Put a node under a name, in place of the one that is there. -/
def set (name : String) (x : Node) : Entries → Entries
  | [] => [(name, x)]
  | (n, y) :: es => if n = name then (n, x) :: es else (n, y) :: set name x es

/-- Define a value by a key, whose parts but the last are tables made by dotted keys. -/
def assign (j : Json) : List String → Entries → Option Entries
  | [], _ => none
  | [name], es => if (es.lookup name).isNone then some (set name (.value j) es) else none
  | name :: path, es =>
    match es.lookup name with
    | none => (assign j path []).map fun below => set name (.table .dotted below) es
    | some (.table .dotted below) =>
      (assign j path below).map fun below => set name (.table .dotted below) es
    | some _ => none

/-- Follow a header's path and put what `create` makes of its end there.  Tables on the way that do
not exist yet are made, and an array of tables is entered at its last. -/
def open? (create : Option Node → Option Node) : List String → Entries → Option Entries
  | [], _ => none
  | [name], es => (create (es.lookup name)).map (set name · es)
  | name :: path, es =>
    match es.lookup name with
    | none => (open? create path []).map fun below => set name (.table .passed below) es
    | some (.table o below) => (open? create path below).map fun below => set name (.table o below) es
    | some (.tables ts) =>
      match ts.getLast? with
      | some last => (open? create path last).map fun last => set name (.tables (ts.dropLast ++ [last])) es
      | none => none
    | some (.value _) => none

/-- `[name]`: a new table, or one that only stood on the way to another. -/
def defineTable : Option Node → Option Node
  | none => some (.table .header [])
  | some (.table .passed es) => some (.table .header es)
  | some _ => none

/-- `[[name]]`: a new table at the end of an array of tables. -/
def appendTable : Option Node → Option Node
  | none => some (.tables [[]])
  | some (.tables ts) => some (.tables (ts ++ [[]]))
  | some _ => none

/-- Define a value below the table that the last header opened. -/
def assignBelow (key : List String) (j : Json) : List String → Entries → Option Entries
  | [], es => assign j key es
  | name :: path, es =>
    match es.lookup name with
    | some (.table o below) =>
      (assignBelow key j path below).map fun below => set name (.table o below) es
    | some (.tables ts) =>
      match ts.getLast? with
      | some last =>
        (assignBelow key j path last).map fun last => set name (.tables (ts.dropLast ++ [last])) es
      | none => none
    | _ => none

end Entries

end Toml

end Recast
