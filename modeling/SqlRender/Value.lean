import SqlRender.Number.Shortest

/-!
# Values and parameters

A `Value` is what a statement sends to the backend, a `Param` a value together with how it wants to
be written: with a declared type, under a name, or in place.

Two occurrences of a name must carry values that *agree*. Agreement is equality but for floating
point numbers, where it is equality of numbers: `0` agrees with `-0`, and a NaN with nothing.
-/

namespace SqlRender

/-- A value of SQL at run time. -/
inductive Value where
  | null
  | bool (b : Bool)
  | int (n : Int64)
  | float (x : Double)
  /-- Text, also the text of dates and times. -/
  | text (s : String)
deriving DecidableEq, Repr, Inhabited

namespace Value

def isNull : Value → Bool
  | null => true
  | _ => false

/-- Whether two values are equal, floating point numbers taken as numbers. -/
def agrees : Value → Value → Bool
  | float x, float y => x.agrees y
  | v, w => v == w

end Value

/-- The scalar type that a schema declares for a column or a value. -/
inductive DataType where
  | integer | bigInt | numeric | double | boolean | varchar | text | date | timestamp
  | other (name : String)
deriving DecidableEq, Repr

/-- A value in a statement, and how it is to be written. -/
structure Param where
  value : Value
  dataType : Option DataType := none
  /-- Occurrences of one name share a bind slot where the dialect numbers its placeholders. -/
  name : Option String := none
  /-- Written as a literal, whatever the parameter style. -/
  inline : Bool := false
deriving DecidableEq, Repr

namespace Param

/-- The parameter with a declared type. -/
def typed (p : Param) (t : DataType) : Param := { p with dataType := some t }

/-- The parameter under a name. -/
def named (p : Param) (name : String) : Param := { p with name := some name }

/-- The parameter, to be written as a literal. -/
def inlined (p : Param) : Param := { p with inline := true }

end Param

/-! ## Values of host types -/

/-- Types whose values stand for SQL values. -/
class ToValue (α : Type) where
  toValue : α → Value

export ToValue (toValue)

instance : ToValue Value := ⟨id⟩
instance : ToValue Bool := ⟨.bool⟩
instance : ToValue Int16 := ⟨fun n => .int n.toInt64⟩
instance : ToValue Int32 := ⟨fun n => .int n.toInt64⟩
instance : ToValue Int64 := ⟨.int⟩
instance : ToValue Single := ⟨fun x => .float x.toDouble⟩
instance : ToValue Double := ⟨.float⟩
instance : ToValue String := ⟨.text⟩

/-- What is absent is `NULL`. -/
instance {α : Type} [ToValue α] : ToValue (Option α) where
  toValue
    | none => .null
    | some a => toValue a

end SqlRender
