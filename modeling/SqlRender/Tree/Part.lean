import SqlRender.Error
import SqlRender.Modes
import SqlRender.Tree.Statement

/-!
# Parts

A `Part` is anything that can be rendered: each node of the SQL tree, and the parts that a caller
adds. A caller's part either stands for exactly one other part (`forward`), or has clause tags of
its own and a list of `Step`s, the things it does when it is written.

Some parts only *forward*: a row field stands for its row, a query of one select for that select, a
statement for the query or change it holds. Such a part is never visited itself.
-/

namespace SqlRender

mutual

/-- Anything that can be rendered. -/
inductive Part where
  | field (f : Field)
  | row (r : Row)
  | table (t : Table)
  | condition (c : Condition)
  | sort (s : SortField)
  | select (s : Select)
  | query (q : Query)
  | insert (i : Insert)
  | update (u : Update)
  | delete (d : Delete)
  | statement (s : Statement)
  /-- A caller's part that stands for another part. -/
  | forward (inner : Part)
  /-- A caller's part with its own tags and its own steps. -/
  | custom (tags : List Clause) (steps : List Step)

/-- One thing that a caller's part does when it is written. -/
inductive Step where
  /-- Write text as it is. -/
  | write (s : String)
  /-- Write a keyword. -/
  | keyword (word : String)
  /-- Write an identifier. -/
  | ident (name : String)
  /-- Write a parameter. -/
  | bind (p : Param)
  /-- Write a value as a literal of a type. -/
  | literal (v : Value) (type : Option DataType)
  /-- Visit a part, with its events. -/
  | visit (p : Part)
  /-- Visit fields, with a keyword between any two. -/
  | visitAll (fields : List Field) (separator : String)
  /-- Write a part without its events. -/
  | render (p : Part)
  /-- Ask for the tags a part would open. -/
  | tagsOf (p : Part)
  /-- Take steps inside a clause. -/
  | within (c : Clause) (steps : List Step)
  /-- Take steps with a mode switched. -/
  | switch (mode : Mode) (on : Bool) (steps : List Step)
  /-- Take steps under another assumed type. -/
  | assume (type : Option DataType) (steps : List Step)
  /-- Ask how the dialect renders a feature. -/
  | resolve (f : Feature)
  /-- Ask the same, and fail at a clause if it does not. -/
  | require (f : Feature) (c : Clause)
  /-- Fail at a clause unless two degrees are equal. -/
  | checkDegree (c : Clause) (expected found : Nat)
  /-- Fail because a clause is empty. -/
  | failEmpty (c : Clause)
  /-- Take steps, and go on behind them if they fail. -/
  | attempt (steps : List Step)
  /-- Look at the state of the render. -/
  | inspect

end

/-! ## Forwarding -/

/-- The part that a row of fields is visited as. -/
def Field.asPart : Field → Part
  | .row fields => .row fields
  | f => .field f

/-- The part that a query is visited as. -/
def Query.asPart : Query → Part
  | .select s => .select s
  | .unionAll selects => .query (.unionAll selects)

/-- The part that a statement is visited as. -/
def Statement.asPart : Statement → Part
  | .query q => q.asPart
  | .insert i => .insert i
  | .update u => .update u
  | .delete d => .delete d

/-- The part that is visited in place of a part; parts that do not forward are visited
themselves. -/
def Part.target : Part → Part
  | .field f => f.asPart
  | .query q => q.asPart
  | .statement s => s.asPart
  | .forward p => p.target
  | p => p

/-! ## Kinds -/

/-- The kind of a field, as a word. -/
def Field.kind : Field → String
  | .column _ => "Column"
  | .value _ => "Value"
  | .aliased _ _ => "Alias"
  | .row _ => "Row"

/-- The kind of a table, as a word. -/
def Table.kind : Table → String
  | .named _ _ => "Named"
  | .aliased _ _ _ => "Alias"
  | .values _ => "Values"
  | .dual => "Dual"

/-- The kind of a condition, as a word. -/
def Condition.kind : Condition → String
  | .comparison _ _ _ => "Comparison"
  | .not _ => "Not"
  | .combined _ _ => "Combined"
  | .isNull _ _ => "IsNull"
  | .isIn _ _ _ => "In"
  | .between _ _ _ _ _ => "Between"
  | .exists _ _ => "Exists"

/-- The kind of a query, as a word. -/
def Query.kind : Query → String
  | .select _ => "Select"
  | .unionAll _ => "UnionAll"

/-- The kind of a part, as a word. A part that forwards is of the kind of its target. -/
def Part.kind : Part → String
  | .field f => f.kind
  | .row _ => "Row"
  | .table t => t.kind
  | .condition c => c.kind
  | .sort _ => "SortField"
  | .select _ => "Select"
  | .query q => q.kind
  | .insert _ => "Insert"
  | .update _ => "Update"
  | .delete _ => "Delete"
  | .statement (.query q) => q.kind
  | .statement (.insert _) => "Insert"
  | .statement (.update _) => "Update"
  | .statement (.delete _) => "Delete"
  | .forward p => p.kind
  | .custom _ _ => "Custom"

/-! ## Tags -/

namespace Condition

/-- The clause of a condition's own kind. -/
def clause : Condition → Clause
  | comparison .. => .conditionComparison
  | not _ => .conditionNot
  | combined .and _ => .conditionAnd
  | combined .or _ => .conditionOr
  | isNull _ negated => if negated then .conditionIsNotNull else .conditionIsNull
  | isIn _ _ negated => if negated then .conditionNotIn else .conditionIn
  | between _ _ _ false false => .conditionBetween
  | between _ _ _ false true => .conditionBetweenSymmetric
  | between _ _ _ true false => .conditionNotBetween
  | between _ _ _ true true => .conditionNotBetweenSymmetric
  | .exists _ negated => if negated then .conditionNotExists else .conditionExists

end Condition

namespace Field

/-- The tags of a field. -/
def tags (m : Modes) : Field → List Clause
  | column _ => [.field, .fieldReference]
  | value _ => [.field, .fieldValue]
  | aliased _ _ => [.field, if m.declareFields then .fieldAlias else .fieldReference]
  | row _ => []

end Field

namespace Table

/-- The tags of a table. -/
def tags (m : Modes) : Table → List Clause
  | named _ _ => [.table, .tableReference]
  | aliased _ _ _ => [.table, if m.declareTables then .tableAlias else .tableReference]
  | values _ => [.table, .tableValues]
  | dual => [.table]

end Table

/-- The clauses that a part opens around itself, outermost first. A part that forwards opens
none. -/
def Part.tags (m : Modes) : Part → List Clause
  | .field f => f.tags m
  | .row _ => [.fieldRow]
  | .table t => t.tags m
  | .condition c => [.condition, c.clause]
  | .sort _ => []
  | .select _ => [.select]
  | .query (.select _) => []
  | .query (.unionAll _) => [.selectUnionAll]
  | .insert _ => [.insert]
  | .update _ => [.update]
  | .delete _ => [.delete]
  | .statement _ => []
  | .forward _ => []
  | .custom tags _ => tags

end SqlRender
