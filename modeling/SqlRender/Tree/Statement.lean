import SqlRender.Tree.Query

/-!
# Statements

A `Statement` is a query or one of the three statements that change a table.
-/

namespace SqlRender

/-- `target = value`. The target may be a row, and then the value is a row of the same degree. -/
structure Assignment where
  target : Field
  value : Field

/-- Where the rows of an `INSERT` come from. -/
inductive InsertSource where
  /-- `VALUES (…), (…)`, or one row of column defaults if there are none. -/
  | values (rows : List Row)
  /-- `INSERT … SELECT …`. -/
  | query (q : Query)

/-- An `INSERT`. -/
structure Insert where
  into : Table
  columns : List Field := []
  source : InsertSource := .values []
  onDuplicateKeyUpdate : List Assignment := []
  returning : List Field := []

/-- An `UPDATE`. -/
structure Update where
  table : Table
  assignments : List Assignment := []
  filter : Option Condition := none
  returning : List Field := []

/-- A `DELETE`. -/
structure Delete where
  table : Table
  filter : Option Condition := none

/-- A statement. -/
inductive Statement where
  | query (q : Query)
  | insert (i : Insert)
  | update (u : Update)
  | delete (d : Delete)

namespace Insert

/-- The insert into further columns. -/
def addColumns (i : Insert) (columns : List Field) : Insert :=
  { i with columns := i.columns ++ columns }

/-- The insert of a further row of values; a query as source is given up for it. -/
def addRow (i : Insert) (row : Row) : Insert :=
  match i.source with
  | .values rows => { i with source := .values (rows ++ [row]) }
  | .query _ => { i with source := .values [row] }

/-- The insert of the rows of a query. -/
def setQuery (i : Insert) (q : Query) : Insert := { i with source := .query q }

/-- The insert with a further assignment for a row that exists already. -/
def addOnDuplicate (i : Insert) (target value : Field) : Insert :=
  { i with onDuplicateKeyUpdate := i.onDuplicateKeyUpdate ++ [{ target, value }] }

/-- The insert that answers further fields. -/
def addReturning (i : Insert) (fields : List Field) : Insert :=
  { i with returning := i.returning ++ fields }

end Insert

namespace Update

/-- The update with a further assignment. -/
def addAssignment (u : Update) (target value : Field) : Update :=
  { u with assignments := u.assignments ++ [{ target, value }] }

/-- The update with this condition and no other. -/
def setFilter (u : Update) (c : Condition) : Update := { u with filter := some c }

/-- The update with a further condition. -/
def addFilter (u : Update) (c : Condition) : Update :=
  { u with filter := some (Condition.narrow u.filter c) }

/-- The update that answers further fields. -/
def addReturning (u : Update) (fields : List Field) : Update :=
  { u with returning := u.returning ++ fields }

end Update

namespace Delete

/-- The delete with this condition and no other. -/
def setFilter (d : Delete) (c : Condition) : Delete := { d with filter := some c }

/-- The delete with a further condition. -/
def addFilter (d : Delete) (c : Condition) : Delete :=
  { d with filter := some (Condition.narrow d.filter c) }

end Delete

end SqlRender
