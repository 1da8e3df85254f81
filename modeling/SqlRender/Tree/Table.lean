import SqlRender.Tree.Field

/-!
# Tables

A `Table` is what a `FROM` lists: a table of the schema, a table of values, or another table under
an alias. Fields refer to a table by its *reference name*.
-/

namespace SqlRender

/-- A table expression. -/
inductive Table where
  /-- A table of the schema. -/
  | named (schema : Option String) (name : String)
  /-- `table AS name (columns)` where it is declared, `name` elsewhere. -/
  | aliased (table : Table) (name : String) (columns : List String)
  /-- `(VALUES (…), (…))`. -/
  | values (rows : List Row)
  /-- The pseudo table of one row. -/
  | dual

namespace Table

/-- A table by its name. -/
def ofName (name : String) : Table := .named none name

/-- A table by the name of its schema and its own. -/
def qualified (schema name : String) : Table := .named (some schema) name

/-- A table of values, under the name `v` with the columns `c1`, `c2`, … of its first row. -/
def ofRows (rows : List Row) : Table :=
  let degree := (rows.head?.map List.length).getD 0
  .aliased (.values rows) "v" ((List.range degree).map fun i => "c" ++ toString (i + 1))

/-- The name by which other expressions refer to a table. -/
def referenceName : Table → Option String
  | named _ name => some name
  | aliased _ name _ => some name
  | values _ | dual => none

/-- A column of a table, qualified with the table's reference name if it has one. -/
def field (t : Table) (name : String) : Field :=
  .column { name, qualifier := t.referenceName }

end Table

end SqlRender
