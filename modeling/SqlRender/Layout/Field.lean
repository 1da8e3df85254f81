import SqlRender.Script

/-!
# How fields and tables are written

An alias is written with what it stands for where it is declared, and by its name alone elsewhere.
A row is written in parentheses and must not be empty; neither must a table of values, whose rows
all have the degree of the first.
-/

namespace SqlRender

variable (d : Dialect)

/-! ## Fields -/

/-- A column, with its qualifier where columns carry one. -/
def Column.body (c : Column) : Script :=
  (match c.qualifier with
    | none => []
    | some q => [.whenOn .qualify [.ident q, .text "."]]) ++ [.ident c.name]

/-- A row of fields that are already laid out. -/
def Row.layout (fields : Script) : Script :=
  if fields.isEmpty then Script.failEmpty d .fieldRow
  else [.text "("] ++ Script.listed fields ++ [.text ")"]

mutual

/-- What is written inside a field's tags. -/
def Field.body : Field → Script
  | .column c => c.body
  | .value p => [.bind p]
  | .aliased f name =>
    [.whenOn .declareFields [.visit f.asPart f.body, .keyword " AS "], .ident name]
  | .row fields => Row.layout d (Field.visits fields)

/-- The visits of fields, in order. -/
def Field.visits : List Field → Script
  | [] => []
  | f :: fs => .visit f.asPart f.body :: Field.visits fs

end

/-- The visit of a field. -/
def Field.visit (f : Field) : Action := .visit f.asPart (f.body d)

theorem Field.visits_eq_map (fs : List Field) : Field.visits d fs = fs.map (Field.visit d) := by
  induction fs with
  | nil => simp [Field.visits]
  | cons f fs ih => simp [Field.visits, Field.visit, ih]

/-- What is written inside a row's tags. -/
def Row.body (r : Row) : Script := Field.body d (.row r)

/-- The visit of a row. -/
def Row.visit (r : Row) : Action := .visit (.row r) (Row.body d r)

/-- A row field is visited as its row. -/
theorem Field.visit_row (r : Row) : Field.visit d (.row r) = Row.visit d r := rfl

/-! ## Tables -/

/-- A list of identifiers in parentheses. -/
def identList (names : List String) : Script :=
  [.text "("] ++ (names.map Action.ident).intersperse (.text ", ") ++ [.text ")"]

/-- What is written inside a table's tags. -/
def Table.body : Table → Script
  | .named none name => [.ident name]
  | .named (some schema) name => [.ident schema, .text ".", .ident name]
  | .aliased t name columns =>
    let intro : Action := if d.capabilities.tableAliasAs then .keyword " AS " else .text " "
    [.whenOn .declareTables [.visit (.table t) t.body, intro], .ident name] ++
      (if columns.isEmpty then [] else [.whenOn .declareTables (identList columns)])
  | .values rows =>
    Script.require d .valuesTable .tableValues ++
      match rows with
      | [] => Script.failEmpty d .tableValues
      | first :: _ =>
        rows.flatMap (fun r => Script.checkDegree d .tableValues first.length r.length) ++
          [.text "(", .keyword "VALUES "] ++ Script.listed (rows.map (Row.visit d)) ++ [.text ")"]
  | .dual => [.keyword "DUAL"]

/-- The visit of a table. -/
def Table.visit (t : Table) : Action := .visit (.table t) (t.body d)

end SqlRender
