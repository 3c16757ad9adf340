/-!
# Documents

The tree that a record is written as: texts, integers and flags, sequences, and mappings
whose keys are texts in a fixed order.  There is no node for an absent value; a record
leaves the key out instead.
-/

namespace ActionsWorkflow

inductive Document where
  | text (value : String)
  | integer (value : Int)
  | boolean (value : Bool)
  | sequence (items : List Document)
  | mapping (entries : List (String × Document))

class ToDocument (α : Type) where
  toDocument : α → Document

export ToDocument (toDocument)

namespace Document

def record (fields : List (String × Option Document)) : Document :=
  .mapping (fields.filterMap fun field => field.2.map (field.1, ·))

end Document

instance : ToDocument String := ⟨.text⟩

instance : ToDocument Bool := ⟨.boolean⟩

instance : ToDocument Nat := ⟨fun number => .integer number⟩

instance {α : Type} [ToDocument α] : ToDocument (List α) :=
  ⟨fun items => .sequence (items.map toDocument)⟩

def optionalEntry {α : Type} [ToDocument α] (name : String) (value? : Option α) :
    String × Option Document :=
  (name, value?.map toDocument)

def entry {α : Type} [ToDocument α] (name : String) (value : α) : String × Option Document :=
  (name, some (toDocument value))

end ActionsWorkflow
