import Gcode.ConfigFile.Node

/-! Records in configuration files.
A record is a table, or an array with the values of its keys in a fixed order; keys that it does
not know are no error.
-/

namespace Gcode.ConfigFile

inductive Record where
  | named (entries : Entries)
  | listed (values : List Node)

namespace Record

/-- The record that a node stands for. An array must give at least that many values. -/
def ofNode? (required : Nat) : Node → Option Record
  | .table _ entries => some (.named entries)
  | .array values => if required ≤ values.length then some (.listed values) else none
  | _ => none

/-- The node of a key, or of its place in the order of the keys. -/
def node? (record : Record) (key : String) (place : Nat) : Option Node :=
  match record with
  | named entries => entries.lookup key
  | listed values => values[place]?

end Record

namespace Node

def text? : Node → Option String
  | .string text => some text
  | _ => none

/-- A name out of a fixed set of names: a string, or a table with nothing but that key and
nothing under it.
-/
def choice? : Node → Option String
  | .string name => some name
  | .table _ [(name, .table _ [])] => some name
  | .table _ [(name, .array [])] => some name
  | _ => none

/-- The items of an array, whichever way it is written. -/
def items? : Node → Option (List Node)
  | .array items => some items
  | .tables items => some (items.map (.table .header ·))
  | _ => none

end Node

namespace Record

/-- The string of a key that has to be there. -/
def text? (record : Record) (key : String) (place : Nat) : Option String :=
  (record.node? key place).bind Node.text?

/-- The string of a key that may be missing. -/
def optionalText? (record : Record) (key : String) (place : Nat) : Option (Option String) :=
  match record.node? key place with
  | none => some none
  | some node => node.text?.map some

end Record
end Gcode.ConfigFile
