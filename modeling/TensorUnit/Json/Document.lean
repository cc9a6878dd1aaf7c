import TensorUnit.Json.Parser
import TensorUnit.Json.Printer

namespace TensorUnit

/-- Values as JSON documents. A record is an object of its fields, where unknown members are skipped
and a repeated field is refused, or an array of its fields in order, where the last ones may be
missing. A variant is its name, or an object with the name as its only key. -/
class Document (α : Type) where
  toJson : α → Json
  ofJson? : Json → Option α

namespace Document

def parse? {α : Type} [Document α] (text : String) : Option α :=
  (Json.parse? text).bind ofJson?

instance : Document Bool where
  toJson := .bool
  ofJson? := fun
    | .bool value => some value
    | _ => none

def natBelow? (bound : Nat) : Json → Option Nat
  | .int value => if 0 ≤ value ∧ value < bound then some value.toNat else none
  | _ => none

instance : Document Int where
  toJson := .int
  ofJson? := fun
    | .int value => some value
    | _ => none

instance : Document Nat where
  toJson := .nat
  ofJson? := fun
    | .int value => if 0 ≤ value then some value.toNat else none
    | _ => none

instance : Document Json where
  toJson := id
  ofJson? := some

instance : Document UInt8 where
  toJson value := .nat value.toNat
  ofJson? json := (natBelow? UInt8.size json).map .ofNat

instance : Document UInt32 where
  toJson value := .nat value.toNat
  ofJson? json := (natBelow? UInt32.size json).map .ofNat

instance : Document UInt64 where
  toJson value := .nat value.toNat
  ofJson? json := (natBelow? UInt64.size json).map .ofNat

instance : Document String where
  toJson := .text
  ofJson? := fun
    | .str text => text
    | _ => none

instance {α : Type} [Document α] : Document (List α) where
  toJson values := .arr (values.map toJson)
  ofJson? := fun
    | .arr items => items.mapM ofJson?
    | _ => none

def members? : Json → Option (List (String × Json))
  | .obj members => members.mapM fun m => m.1.map (·, m.2)
  | _ => none

def entry {α : Type} (name : String) (value : α) (table : List (String × α)) :
    List (String × α) :=
  (name, value) :: table.filter fun e => e.1 ≠ name

/-- A table: of two entries of one name the last counts. -/
instance table {α : Type} [Document α] : Document (List (String × α)) where
  toJson entries := .record (entries.map fun e => (e.1, toJson e.2))
  ofJson? json := do
    let members ← members? json
    members.foldlM (fun done m => (ofJson? m.2).map fun value => entry m.1 value done) []

abbrev Parts := List (String × Json)

/-- The parts of a record with the given fields. A closed record refuses unknown members. -/
def parts? (closed : Bool) (fields : List String) : Json → Option Parts
  | .arr items => if items.length ≤ fields.length then some (fields.zip items) else none
  | json => do
    let members ← members? json
    let known := members.filter fun m => fields.contains m.1
    if (known.map Prod.fst).eraseDups.length = known.length
        ∧ (closed → known.length = members.length) then
      some known
    else none

def Parts.get {α : Type} [Document α] (parts : Parts) (field : String) : Option α :=
  (parts.lookup field).bind ofJson?

def Parts.getD {α : Type} [Document α] (parts : Parts) (field : String) (default : α) :
    Option α :=
  match parts.lookup field with
  | some json => ofJson? json
  | none => some default

def variant? : Json → Option (String × Option Json)
  | .str (some name) => some (name, none)
  | .obj [(some name, data)] => some (name, some data)
  | _ => none

/-- A choice among named values. A value may also be written as an object with a null. -/
def choice? {α : Type} (name : α → String) (all : List α) (json : Json) : Option α :=
  match variant? json with
  | some (written, none) | some (written, some .null) => all.find? fun value => name value = written
  | _ => none

end Document

end TensorUnit
