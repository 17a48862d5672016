/-! The content of a configuration file in TOML: keys with strings, arrays and tables.
Every key is set once, and a table is opened once, so adding to a table can fail.
-/

namespace Gcode.ConfigFile

/-- How a table came to be. -/
inductive TableKind where
  /-- By a header of its own. -/
  | header
  /-- By a header of a table inside it. -/
  | implied
  /-- By a dotted key. -/
  | dotted
  /-- In braces. -/
  | inline
deriving DecidableEq

inductive Node where
  | string (text : String)
  /-- A boolean, a number or a date. -/
  | scalar
  | array (items : List Node)
  | table (kind : TableKind) (entries : List (String × Node))
  /-- The tables of a double-bracket header, in order. -/
  | tables (items : List (List (String × Node)))

abbrev Entries := List (String × Node)

namespace Entries

/-- The entries with the node of a key that is there exchanged. -/
def exchange (entries : Entries) (key : String) (node : Node) : Entries :=
  entries.map fun entry => if entry.1 = key then (key, node) else entry

/-- Changes the entries of the table at a path. Tables that are missing on the way are made, of
the given kind. A table in braces takes nothing more, and dotted keys lead into no table with a
header of its own.
-/
def changeAt (made : TableKind) (change : TableKind → Entries → Option Entries)
    : List String → TableKind → Entries → Option Entries
  | [], kind, entries => change kind entries
  | key :: path, _, entries =>
      match entries.lookup key with
      | none => do
          let inner ← changeAt made change path made []
          return entries ++ [(key, .table made inner)]
      | some (.table kind inner) =>
          if kind = .inline ∨ made = .dotted ∧ kind = .header then none
          else do
            let inner ← changeAt made change path kind inner
            return entries.exchange key (.table kind inner)
      | some (.tables items) => do
          let last ← items.getLast?
          let last ← changeAt made change path .header last
          return entries.exchange key (.tables (items.dropLast ++ [last]))
      | some _ => none

/-- Sets a key of a table. The path before the key is the dotted one; without it the key does
not go into a table of dotted keys, and with it, into none with a header of its own.
-/
def set? (path : List String) (key : String) (node : Node) (kind : TableKind) (entries : Entries)
    : Option Entries :=
  entries.changeAt .dotted
    (fun kind entries =>
      let refused : List TableKind := if path = [] then [.dotted] else [.header, .inline]
      if kind ∈ refused ∨ (entries.lookup key).isSome then none
      else some (entries ++ [(key, node)]))
    path kind

/-- Opens the table of a header: a new one, or one that other headers implied. -/
def openTable? (key : String) (entries : Entries) : Option Entries :=
  match entries.lookup key with
  | none => some (entries ++ [(key, .table .header [])])
  | some (.table .implied inner) => some (entries.exchange key (.table .header inner))
  | some _ => none

/-- Opens one more table of a double-bracket header. -/
def openNextTable? (key : String) (entries : Entries) : Option Entries :=
  match entries.lookup key with
  | none => some (entries ++ [(key, .tables [[]])])
  | some (.tables items) => some (entries.exchange key (.tables (items ++ [[]])))
  | some _ => none

end Entries
end Gcode.ConfigFile
