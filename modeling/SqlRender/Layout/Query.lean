import SqlRender.Layout.Field

/-!
# How conditions and queries are written

The slots of a select are opened in the order in which SQL writes them, whether or not they have
content. A value takes the declared type of what it is compared with: each operand of a comparison
that of the other, the values of `IN` and the bounds of `BETWEEN` that of the tested field.
-/

namespace SqlRender

variable (d : Dialect)

/-! ## Conditions -/

/-- The operands of a chain, already laid out: none stand for true or false, one for itself. -/
def Connective.layout : Connective → Script → Script
  | op, [] => [.text (match op with | .and => "1 = 1" | .or => "1 = 0")]
  | _, [only] => [only]
  | op, operands =>
    [.text "("] ++ Script.separated (" " ++ op.sql ++ " ") operands ++ [.text ")"]

/-- A field, a test and the values it is tested against; without values the outcome is known. -/
def Condition.layoutIn (f : Field) (values : List Field) (negated : Bool) : Script :=
  let clause : Clause := if negated then .conditionNotIn else .conditionIn
  if values.isEmpty then [.text (if negated then "1 = 1" else "1 = 0")]
  else
    values.flatMap (fun v => Script.checkDegree d clause f.degree v.degree) ++
      [f.visit d, .keyword (if negated then " NOT IN (" else " IN ("),
       .assume f.dataType (Script.listed (values.map (Field.visit d))), .text ")"]

/-- A field between two bounds. -/
def Condition.layoutBetween (clause : Clause) (f low high : Field) (negated symmetric : Bool) :
    Script :=
  (if symmetric then Script.require d .betweenSymmetric clause else []) ++
    Script.checkDegree d clause f.degree low.degree ++
    Script.checkDegree d clause f.degree high.degree ++
    [f.visit d] ++
    (if negated then [.keyword " NOT"] else []) ++
    [.keyword " BETWEEN "] ++
    (if symmetric then [.keyword "SYMMETRIC "] else []) ++
    [.assume f.dataType [low.visit d, .keyword " AND ", high.visit d]]

/-! ## Selects -/

/-- The select list. -/
def Select.layoutFields (distinct : Bool) (fields : List Field) : Script :=
  [.keyword (if distinct then "SELECT DISTINCT " else "SELECT ")] ++
    if fields.isEmpty then [.text "*"]
    else [.switch .declareFields true (Script.listed (fields.map (Field.visit d)))]

/-- The tables of a select. Where there are none and the dialect wants one, it is the pseudo
table. -/
def Select.layoutTables (tables : List Table) : Script :=
  if tables.isEmpty then
    match d.resolve .selectWithoutFrom with
    | .emulate .fromDual => [.keyword " FROM ", Table.visit d .dual]
    | _ => []
  else
    [.keyword " FROM ", .switch .declareTables true (Script.listed (tables.map (Table.visit d)))]

/-- What is written for a field of an `ORDER BY`. -/
def SortField.body (s : SortField) : Script :=
  [s.field.visit d, .keyword (match s.order with | .asc => " ASC" | .desc => " DESC")]

/-- The visit of a field of an `ORDER BY`. -/
def SortField.visit (s : SortField) : Action := .visit (.sort s) (s.body d)

/-- A keyword and a list, or nothing if the list is empty. -/
def Script.ifAny (word : String) (items : Script) : Script :=
  if items.isEmpty then [] else .keyword word :: Script.listed items

/-- A slot for a condition that needs the hierarchical syntax. -/
def Script.hierarchical (clause : Clause) (condition : Script) : Script :=
  (if condition.isEmpty then [] else Script.require d .connectBy clause) ++ condition

mutual

/-- What is written inside a condition's tags. -/
def Condition.body : Condition → Script
  | .comparison left op right =>
    Script.checkDegree d .conditionComparison left.degree right.degree ++
      [.assume right.dataType [left.visit d], .text " ", .keyword op.sql, .text " ",
       .assume left.dataType [right.visit d]]
  | .not c => [.keyword "NOT (", .visit (.condition c) c.body, .text ")"]
  | .combined op conditions => op.layout (Condition.visits conditions)
  | .isNull f negated => [f.visit d, .keyword (if negated then " IS NOT NULL" else " IS NULL")]
  | .isIn f values negated => Condition.layoutIn d f values negated
  | .between f low high negated symmetric =>
    Condition.layoutBetween d (Condition.clause (.between f low high negated symmetric))
      f low high negated symmetric
  | .exists q negated =>
    [.keyword (if negated then "NOT EXISTS (" else "EXISTS (")] ++ q.visits ++ [.text ")"]

/-- The visits of conditions, in order. -/
def Condition.visits : List Condition → Script
  | [] => []
  | c :: cs => .visit (.condition c) c.body :: Condition.visits cs

/-- A keyword and a condition, or nothing if there is no condition. -/
def Condition.slot (word : String) : Option Condition → Script
  | none => []
  | some c => [.keyword word, .visit (.condition c) c.body]

/-- The visit of a query: of the select that it is, or of the union. -/
def Query.visits : Query → Script
  | .select s => [.visit (.select s) s.body]
  | .unionAll selects =>
    [.visit (.query (.unionAll selects))
      (if selects.isEmpty then Script.failEmpty d .selectUnionAll
       else Script.separated " UNION ALL " (Select.visits selects))]

/-- What is written inside a select's tag: its eight slots. -/
def Select.body : Select → Script
  | { distinct, fields, tables, filter, startWith, connectBy, groupBy, having, orderBy } =>
    [.within .selectSelect (Select.layoutFields d distinct fields),
     .within .selectFrom (Select.layoutTables d tables),
     .within .selectWhere (Condition.slot " WHERE " filter),
     .within .selectStartWith
       (Script.hierarchical d .selectStartWith (Condition.slot " START WITH " startWith)),
     .within .selectConnectBy
       (Script.hierarchical d .selectConnectBy (Condition.slot " CONNECT BY " connectBy)),
     .within .selectGroupBy (Script.ifAny " GROUP BY " (groupBy.map (Field.visit d))),
     .within .selectHaving (Condition.slot " HAVING " having),
     .within .selectOrderBy (Script.ifAny " ORDER BY " (orderBy.map (SortField.visit d)))]

/-- The visits of selects, in order. -/
def Select.visits : List Select → Script
  | [] => []
  | s :: ss => .visit (.select s) s.body :: Select.visits ss

end

/-- The visit of a condition. -/
def Condition.visit (c : Condition) : Action := .visit (.condition c) (c.body d)

/-- The visit of a select. -/
def Select.visit (s : Select) : Action := .visit (.select s) (s.body d)

/-- What is written inside a query's tags. -/
def Query.body : Query → Script
  | .select s => [s.visit d]
  | .unionAll selects =>
    if selects.isEmpty then Script.failEmpty d .selectUnionAll
    else Script.separated " UNION ALL " (selects.map (Select.visit d))

/-- The visit of a query. -/
def Query.visit : Query → Action
  | .select s => s.visit d
  | .unionAll selects => .visit (.query (.unionAll selects)) (Query.body d (.unionAll selects))

theorem Select.visits_eq_map (ss : List Select) :
    Select.visits d ss = ss.map (Select.visit d) := by
  induction ss with
  | nil => simp [Select.visits]
  | cons s ss ih => simp [Select.visits, Select.visit, ih]

theorem Query.visits_eq (q : Query) : Query.visits d q = [q.visit d] := by
  cases q with
  | select s => simp [Query.visits, Query.visit, Select.visit]
  | unionAll ss => simp [Query.visits, Query.visit, Query.body, Select.visits_eq_map]

end SqlRender
