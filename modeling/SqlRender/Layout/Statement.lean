import SqlRender.Layout.Query

/-!
# How statements are written

Like a select, each statement opens all of its slots in order. What a dialect may leave out leaves
its slot empty: nothing of it is looked at.
-/

namespace SqlRender

variable (d : Dialect)

/-! ## Slots that statements share -/

/-- Assignments, each in a clause of its own. Columns of a target stand without their qualifier, and
the value takes the declared type of the target. -/
def Assignment.body (clause : Clause) (a : Assignment) : Script :=
  Script.checkDegree d clause a.target.degree a.value.degree ++
    (if a.target.isRow then Script.require d .rowValueAssignment clause else []) ++
    [.switch .qualify false [a.target.visit d], .text " = ",
     .assume a.target.dataType [a.value.visit d]]

/-- A list of assignments. -/
def Assignment.listed (clause : Clause) (as : List Assignment) : Script :=
  (as.map fun a => Action.within clause (a.body d clause)).intersperse (.text ", ")

/-- The fields that a statement answers, if the dialect has such an answer. -/
def layoutReturning (fields : List Field) : Script :=
  if fields.isEmpty then []
  else match d.resolve .returning with
    | .native =>
      [.keyword " RETURNING ", .switch .declareFields true
        (Script.listed (fields.map (Field.visit d)))]
    | _ => []

/-! ## Insert -/

/-- The table and the columns of an insert. -/
def Insert.layoutTarget (into : Table) (columns : List Field) : Script :=
  [.keyword "INSERT INTO ", .switch .declareTables true [into.visit d]] ++
    if columns.isEmpty then []
    else [.text " (", .switch .qualify false (Script.listed (columns.map (Field.visit d))),
          .text ")"]

/-- One row of column defaults, which names no columns. -/
def Insert.layoutDefaults (columns : List Field) : Script :=
  if columns.isEmpty then
    Script.require d .defaultValues .insertValues ++
      [.within .insertValues
        [.keyword (match d.resolve .defaultValues with
          | .emulate .emptyValuesRow => " VALUES ()"
          | _ => " DEFAULT VALUES")]]
  else Script.failEmpty d .insertValues

/-- The union of selects that stands for many rows: one select for each row, of the row's fields. -/
def Insert.unionOf (rows : List Row) : Query :=
  .unionAll (rows.map fun r => { fields := r })

/-- The degree that every row of an insert must have: the number of columns, or the degree of the
first row if no columns are named. -/
def Insert.degree (columns : List Field) (rows : List Row) : Nat :=
  if columns.isEmpty then (rows.head?.map List.length).getD 0 else columns.length

/-- The rows of an insert. -/
def Insert.layoutRows (columns : List Field) (rows : List Row) : Script :=
  let degree := Insert.degree columns rows
  rows.flatMap (fun r => Script.checkDegree d .insertValues degree r.length) ++
    if rows.isEmpty then Insert.layoutDefaults d columns
    else if degree = 0 then Script.failEmpty d .insertValues
    else match d.resolve (.insertValues rows.length) with
      | .emulate .insertSelectUnionAll =>
        [.within .insertSelect [.text " ", (Insert.unionOf rows).visit d]]
      | _ =>
        [.within .insertValues
          (.keyword " VALUES " :: Script.listed (rows.map (Row.visit d)))]

/-- The source of an insert. -/
def InsertSource.layout (columns : List Field) : InsertSource → Script
  | .values rows => Insert.layoutRows d columns rows
  | .query q => [.within .insertSelect [.text " ", q.visit d]]

/-- What to assign where a row exists already, if the dialect can. -/
def Insert.layoutOnDuplicate (as : List Assignment) : Script :=
  if as.isEmpty then []
  else match d.resolve .onDuplicateKeyUpdate with
    | .native =>
      .keyword " ON DUPLICATE KEY UPDATE " ::
        Assignment.listed d .insertOnDuplicateKeyUpdateAssignment as
    | _ => []

/-- What is written inside the tag of an insert: its four slots. -/
def Insert.body (i : Insert) : Script :=
  [.within .insertInsertInto (Insert.layoutTarget d i.into i.columns)] ++
    i.source.layout d i.columns ++
    [.within .insertOnDuplicateKeyUpdate (Insert.layoutOnDuplicate d i.onDuplicateKeyUpdate),
     .within .insertReturning (layoutReturning d i.returning)]

/-- The visit of an insert. -/
def Insert.visit (i : Insert) : Action := .visit (.insert i) (i.body d)

/-! ## Update and delete -/

/-- The assignments of an update, of which there is at least one. -/
def Update.layoutSet (as : List Assignment) : Script :=
  if as.isEmpty then Script.failEmpty d .updateSet
  else .keyword " SET " :: Assignment.listed d .updateSetAssignment as

/-- What is written inside the tag of an update: its four slots. -/
def Update.body (u : Update) : Script :=
  [.within .updateUpdate
     [.keyword "UPDATE ", .switch .declareTables true [u.table.visit d]],
   .within .updateSet (Update.layoutSet d u.assignments),
   .within .updateWhere (Condition.slot d " WHERE " u.filter),
   .within .updateReturning (layoutReturning d u.returning)]

/-- The visit of an update. -/
def Update.visit (u : Update) : Action := .visit (.update u) (u.body d)

/-- What is written inside the tag of a delete: its two slots. -/
def Delete.body (x : Delete) : Script :=
  [.within .deleteDelete
     [.keyword "DELETE FROM ", .switch .declareTables true [x.table.visit d]],
   .within .deleteWhere (Condition.slot d " WHERE " x.filter)]

/-- The visit of a delete. -/
def Delete.visit (x : Delete) : Action := .visit (.delete x) (x.body d)

/-! ## Statement -/

/-- The visit of a statement is the visit of what it holds. -/
def Statement.visit : Statement → Action
  | .query q => q.visit d
  | .insert i => i.visit d
  | .update u => u.visit d
  | .delete x => x.visit d

end SqlRender
