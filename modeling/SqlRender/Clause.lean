import SqlRender.Enumeration

/-!
# Clauses

A `Clause` is a syntactic category of SQL. While a statement is rendered, the clauses that are open
form a path, outermost first:

```text
SELECT / SELECT_WHERE / CONDITION / CONDITION_COMPARISON / FIELD / FIELD_REFERENCE
```

Clauses are flat tags. That a statement's own tag comes before the tags of its slots is a habit of
the renderer and no relation between the values.
-/

namespace SqlRender

/-- A syntactic category of SQL, as the listeners of a render see it. -/
inductive Clause where
  | field | fieldAlias | fieldReference | fieldValue | fieldRow
  | table | tableAlias | tableReference | tableValues
  | condition | conditionAnd | conditionOr | conditionNot | conditionComparison
  | conditionIsNull | conditionIsNotNull
  | conditionBetween | conditionBetweenSymmetric
  | conditionNotBetween | conditionNotBetweenSymmetric
  | conditionIn | conditionNotIn | conditionExists | conditionNotExists
  | select | selectSelect | selectFrom | selectWhere | selectStartWith | selectConnectBy
  | selectGroupBy | selectHaving | selectOrderBy | selectUnionAll
  | insert | insertInsertInto | insertValues | insertSelect
  | insertOnDuplicateKeyUpdate | insertOnDuplicateKeyUpdateAssignment | insertReturning
  | update | updateUpdate | updateSet | updateSetAssignment | updateWhere | updateReturning
  | delete | deleteDelete | deleteWhere
deriving DecidableEq, Repr

namespace Clause

/-- The words of a clause's name, each with a capital letter. -/
def words : Clause → List String
  | field => ["Field"]
  | fieldAlias => ["Field", "Alias"]
  | fieldReference => ["Field", "Reference"]
  | fieldValue => ["Field", "Value"]
  | fieldRow => ["Field", "Row"]
  | table => ["Table"]
  | tableAlias => ["Table", "Alias"]
  | tableReference => ["Table", "Reference"]
  | tableValues => ["Table", "Values"]
  | condition => ["Condition"]
  | conditionAnd => ["Condition", "And"]
  | conditionOr => ["Condition", "Or"]
  | conditionNot => ["Condition", "Not"]
  | conditionComparison => ["Condition", "Comparison"]
  | conditionIsNull => ["Condition", "Is", "Null"]
  | conditionIsNotNull => ["Condition", "Is", "Not", "Null"]
  | conditionBetween => ["Condition", "Between"]
  | conditionBetweenSymmetric => ["Condition", "Between", "Symmetric"]
  | conditionNotBetween => ["Condition", "Not", "Between"]
  | conditionNotBetweenSymmetric => ["Condition", "Not", "Between", "Symmetric"]
  | conditionIn => ["Condition", "In"]
  | conditionNotIn => ["Condition", "Not", "In"]
  | conditionExists => ["Condition", "Exists"]
  | conditionNotExists => ["Condition", "Not", "Exists"]
  | select => ["Select"]
  | selectSelect => ["Select", "Select"]
  | selectFrom => ["Select", "From"]
  | selectWhere => ["Select", "Where"]
  | selectStartWith => ["Select", "Start", "With"]
  | selectConnectBy => ["Select", "Connect", "By"]
  | selectGroupBy => ["Select", "Group", "By"]
  | selectHaving => ["Select", "Having"]
  | selectOrderBy => ["Select", "Order", "By"]
  | selectUnionAll => ["Select", "Union", "All"]
  | insert => ["Insert"]
  | insertInsertInto => ["Insert", "Insert", "Into"]
  | insertValues => ["Insert", "Values"]
  | insertSelect => ["Insert", "Select"]
  | insertOnDuplicateKeyUpdate => ["Insert", "On", "Duplicate", "Key", "Update"]
  | insertOnDuplicateKeyUpdateAssignment =>
    ["Insert", "On", "Duplicate", "Key", "Update", "Assignment"]
  | insertReturning => ["Insert", "Returning"]
  | update => ["Update"]
  | updateUpdate => ["Update", "Update"]
  | updateSet => ["Update", "Set"]
  | updateSetAssignment => ["Update", "Set", "Assignment"]
  | updateWhere => ["Update", "Where"]
  | updateReturning => ["Update", "Returning"]
  | delete => ["Delete"]
  | deleteDelete => ["Delete", "Delete"]
  | deleteWhere => ["Delete", "Where"]

/-- The name shown in messages: the words in capitals, joined by underscores (`SELECT_FROM`). -/
def name (c : Clause) : String :=
  "_".intercalate (c.words.map String.toUpper)

/-- Every clause, grouped by what it belongs to. -/
def all : List Clause :=
  [field, fieldAlias, fieldReference, fieldValue, fieldRow,
   table, tableAlias, tableReference, tableValues,
   condition, conditionAnd, conditionOr, conditionNot, conditionComparison,
   conditionIsNull, conditionIsNotNull,
   conditionBetween, conditionBetweenSymmetric,
   conditionNotBetween, conditionNotBetweenSymmetric,
   conditionIn, conditionNotIn, conditionExists, conditionNotExists,
   select, selectSelect, selectFrom, selectWhere, selectStartWith, selectConnectBy,
   selectGroupBy, selectHaving, selectOrderBy, selectUnionAll,
   insert, insertInsertInto, insertValues, insertSelect,
   insertOnDuplicateKeyUpdate, insertOnDuplicateKeyUpdateAssignment, insertReturning,
   update, updateUpdate, updateSet, updateSetAssignment, updateWhere, updateReturning,
   delete, deleteDelete, deleteWhere]

/-- A clause is written as its words run together (`SelectFrom`). -/
instance : Enumeration Clause where
  values := all
  word c := String.join c.words

theorem mem_all (c : Clause) : c ∈ all := by
  cases c <;> decide

end Clause

end SqlRender
