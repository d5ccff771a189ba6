import Runbooks.Document.Tree

/-!
Records read from a tree by the names of their fields. A field has one name and at most one
alias; unknown keys are passed over; a field given twice, also once by its name and once by its
alias, is refused.
-/

namespace Runbooks

/-- A field of a record: its name, and a second one under which it may be given. -/
structure Field where
  name : String
  alias? : Option String := none
  deriving DecidableEq, Repr

namespace Field

def answers (f : Field) (key : String) : Bool :=
  key = f.name || f.alias? = some key

end Field

/-- The fields of a record in their order. -/
abbrev Schema := List Field

/-- The name of the field that a key gives, if it gives one. -/
def Schema.canonical? (s : Schema) (key : String) : Option String :=
  (s.find? (·.answers key)).map Field.name

/-- The fields that a record gives, each at most once. -/
structure Record where
  entries : List (String × Tree)

namespace Record

/-- How many items a row holds for a record, at least and at most. -/
def rowFits (row : Row) (complete : Bool) (fields items : Nat) : Bool :=
  (!complete || fields ≤ items) && match row with
    | .never => false
    | .exact => items ≤ fields
    | .lenient => true

/-- Tables give fields by name, whatever their order; a row gives the leading fields in theirs, or
all of them where a `complete` record is asked for. -/
def ofTree? (schema : Schema) (complete : Bool := false) : Tree → Option Record
  | .leaf _ l => if l.hollow then some ⟨[]⟩ else none
  | .list _ row items =>
    if rowFits row complete schema.length items.length then
      some ⟨(schema.map Field.name).zip items⟩
    else none
  | .table _ _ entries => do
    let keyed ← entries.mapM fun (key, value) => key.text?.map (·, value)
    let known := keyed.filterMap fun (key, value) => (schema.canonical? key).map (·, value)
    if (known.map Prod.fst).Nodup then some ⟨known⟩ else none
  | .alias t => ofTree? schema complete t

def get? (r : Record) (name : String) : Option Tree :=
  r.entries.lookup name

/-- A field that may be absent, or present and marked as absent. -/
def optional? {α : Type} (r : Record) (read : Tree → Option α) (name : String) :
    Option (Option α) :=
  match r.get? name with
  | none => some none
  | some t => t.optional? read

/-- A field with a value to take where it is absent. -/
def withDefault? {α : Type} (r : Record) (read : Tree → Option α) (default : α) (name : String) :
    Option α :=
  match r.get? name with
  | none => some default
  | some t => read t

/-- A field that has to be there. -/
def required? {α : Type} (r : Record) (read : Tree → Option α) (name : String) : Option α :=
  (r.get? name).bind read

end Record

end Runbooks
