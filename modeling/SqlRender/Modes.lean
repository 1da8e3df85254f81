import SqlRender.Value

/-!
# Modes

How a part is written depends on where it stands: an alias is declared in a select list and only
named elsewhere, the columns of an assignment's target lose their qualifier, and a literal takes the
type of the field it is compared with. A render carries these circumstances as its `Modes`.
-/

namespace SqlRender

/-- A circumstance that is on or off. -/
inductive Mode where
  /-- Tables are declared (`t AS x`) rather than named (`x`). -/
  | declareTables
  /-- Fields are declared (`f AS x`) rather than named (`x`). -/
  | declareFields
  /-- Columns carry their qualifier. -/
  | qualify
deriving DecidableEq, Repr

/-- The circumstances under which a part is written. -/
structure Modes where
  declareTables : Bool := false
  declareFields : Bool := false
  qualify : Bool := true
  /-- The type that values without one of their own are taken to have. -/
  assumed : Option DataType := none
deriving DecidableEq, Repr

namespace Modes

/-- Whether a mode is on. -/
def isOn (m : Modes) : Mode → Bool
  | .declareTables => m.declareTables
  | .declareFields => m.declareFields
  | .qualify => m.qualify

/-- The modes with one of them switched. -/
def switch (m : Modes) (mode : Mode) (on : Bool) : Modes :=
  match mode with
  | .declareTables => { m with declareTables := on }
  | .declareFields => { m with declareFields := on }
  | .qualify => { m with qualify := on }

/-- The modes with another assumed type. -/
def assume (m : Modes) (t : Option DataType) : Modes := { m with assumed := t }

@[simp] theorem isOn_switch (m : Modes) (mode mode' : Mode) (on : Bool) :
    (m.switch mode on).isOn mode' = if mode' = mode then on else m.isOn mode' := by
  cases mode <;> cases mode' <;> rfl

end Modes

end SqlRender
