import SqlRender.Value

/-!
# Fields

A `Field` is a column expression: a column, a value, another field under an alias, or a row of
fields. A field has a *degree*, the number of columns it stands for, and where one is known a
declared type.
-/

namespace SqlRender

/-- A column, as a schema describes it. -/
structure Column where
  name : String
  /-- The table name or table alias that the column is qualified with. -/
  qualifier : Option String := none
  dataType : Option DataType := none
deriving DecidableEq, Repr

/-- The column with a declared type. -/
def Column.typed (c : Column) (t : DataType) : Column := { c with dataType := some t }

/-- A column expression. -/
inductive Field where
  /-- A column of a table. -/
  | column (c : Column)
  /-- A literal or a bind value. -/
  | value (p : Param)
  /-- `field AS name` where it is declared, `name` elsewhere. -/
  | aliased (field : Field) (name : String)
  /-- `(a, b, …)`. -/
  | row (fields : List Field)

/-- The fields of a row, as `VALUES` lists them. -/
abbrev Row := List Field

namespace Field

/-- A column by its name. -/
def named (name : String) : Field := .column { name }

/-- A column by the name of its table and its own. -/
def qualified (qualifier name : String) : Field :=
  .column { name, qualifier := some qualifier }

/-- A bind value. -/
def val {α : Type} [ToValue α] (a : α) : Field := .value { value := toValue a }

/-- A value that is always written as a literal. -/
def inlined {α : Type} [ToValue α] (a : α) : Field :=
  .value { value := toValue a, inline := true }

/-- A bind value under a name. -/
def param {α : Type} [ToValue α] (name : String) (a : α) : Field :=
  .value { value := toValue a, name := some name }

/-- The number of columns that a field stands for. -/
def degree : Field → Nat
  | row fields => fields.length
  | _ => 1

/-- The declared type, where one is known. -/
def dataType : Field → Option DataType
  | column c => c.dataType
  | value p => p.dataType
  | aliased field _ => field.dataType
  | row _ => none

/-- Whether a field is written as a row of fields. -/
def isRow : Field → Bool
  | row _ => true
  | _ => false

end Field

end SqlRender
