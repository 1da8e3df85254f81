import SqlRender.Enumeration
import SqlRender.Tree.Table

/-!
# Conditions and queries

Conditions may hold queries (`EXISTS`), queries are unions of selects, and selects hold conditions,
so the three types are defined together. Row-valued conditions are the same conditions with rows
as operands.

The connectives keep chains flat: `a.and b` appends `b` to `a` if `a` is itself a chain of `AND`,
and otherwise starts a chain of two.
-/

namespace SqlRender

/-- Comparison operators. -/
inductive Comparator where
  | eq | ne | lt | le | gt | ge | like | notLike
deriving DecidableEq, Repr

namespace Comparator

/-- The operator as SQL writes it. -/
def sql : Comparator → String
  | eq => "="
  | ne => "<>"
  | lt => "<"
  | le => "<="
  | gt => ">"
  | ge => ">="
  | like => "LIKE"
  | notLike => "NOT LIKE"

instance : Enumeration Comparator where
  values := [eq, ne, lt, le, gt, ge, like, notLike]
  word
    | eq => "Eq"
    | ne => "Ne"
    | lt => "Lt"
    | le => "Le"
    | gt => "Gt"
    | ge => "Ge"
    | like => "Like"
    | notLike => "NotLike"

end Comparator

/-- Boolean connectives. -/
inductive Connective where
  | and | or
deriving DecidableEq, Repr

namespace Connective

/-- The connective as SQL writes it. -/
def sql : Connective → String
  | and => "AND"
  | or => "OR"

instance : Enumeration Connective where
  values := [and, or]
  word
    | and => "And"
    | or => "Or"

end Connective

/-- The direction of a sort. -/
inductive SortOrder where
  | asc | desc
deriving DecidableEq, Repr

instance : Enumeration SortOrder where
  values := [.asc, .desc]
  word
    | .asc => "Asc"
    | .desc => "Desc"

/-- A field of an `ORDER BY`. -/
structure SortField where
  field : Field
  order : SortOrder := .asc

mutual

/-- A boolean condition. -/
inductive Condition where
  /-- `left op right`. -/
  | comparison (left : Field) (op : Comparator) (right : Field)
  /-- `NOT (condition)`; two negations stay two. -/
  | not (c : Condition)
  /-- `(a AND b AND …)` or `(a OR b OR …)`. -/
  | combined (op : Connective) (conditions : List Condition)
  /-- `field IS [NOT] NULL`. -/
  | isNull (field : Field) (negated : Bool)
  /-- `field [NOT] IN (values…)`. -/
  | isIn (field : Field) (values : List Field) (negated : Bool)
  /-- `field [NOT] BETWEEN [SYMMETRIC] low AND high`. -/
  | between (field low high : Field) (negated symmetric : Bool)
  /-- `[NOT] EXISTS (query)`. -/
  | exists (query : Query) (negated : Bool)

/-- Anything that produces rows. -/
inductive Query where
  | select (s : Select)
  /-- `a UNION ALL b UNION ALL …`. -/
  | unionAll (selects : List Select)

/-- A `SELECT`, by its slots. -/
structure Select where
  distinct : Bool := false
  /-- The selected fields; none stand for `*`. -/
  fields : List Field := []
  tables : List Table := []
  filter : Option Condition := none
  startWith : Option Condition := none
  connectBy : Option Condition := none
  groupBy : List Field := []
  having : Option Condition := none
  orderBy : List SortField := []

end

/-! ## Conditions on fields -/

namespace Field

/-- `f op g`. -/
def compare (f : Field) (op : Comparator) (g : Field) : Condition := .comparison f op g

/-- `f IS NULL`. -/
def isNull (f : Field) : Condition := .isNull f false

/-- `f IS NOT NULL`. -/
def isNotNull (f : Field) : Condition := .isNull f true

/-- `f IN (values…)`. -/
def isIn (f : Field) (values : List Field) : Condition := .isIn f values false

/-- `f NOT IN (values…)`. -/
def notIn (f : Field) (values : List Field) : Condition := .isIn f values true

/-- `f BETWEEN low AND high`. -/
def between (f low high : Field) : Condition := .between f low high false false

/-- `f NOT BETWEEN low AND high`. -/
def notBetween (f low high : Field) : Condition := .between f low high true false

/-- `f BETWEEN SYMMETRIC low AND high`. -/
def betweenSymmetric (f low high : Field) : Condition := .between f low high false true

/-- `f NOT BETWEEN SYMMETRIC low AND high`. -/
def notBetweenSymmetric (f low high : Field) : Condition := .between f low high true true

end Field

/-! ## Connectives -/

namespace Condition

/-- Joins a condition behind another: a chain of the same connective grows by one member, anything
else becomes the first of two. -/
def combine (op : Connective) : Condition → Condition → Condition
  | .combined op' conditions, other =>
    if op' = op then .combined op (conditions ++ [other])
    else .combined op [.combined op' conditions, other]
  | c, other => .combined op [c, other]

/-- `c AND other`. -/
def and (c other : Condition) : Condition := combine .and c other

/-- `c OR other`. -/
def or (c other : Condition) : Condition := combine .or c other

/-- A further condition on what may already be restricted. -/
def narrow : Option Condition → Condition → Condition
  | none, c => c
  | some existing, c => existing.and c

end Condition

/-! ## Selects and unions -/

namespace Select

/-- `SELECT 1`. -/
def one : Select := { fields := [.inlined (1 : Int64)] }

/-- The select with duplicates removed. -/
def withDistinct (s : Select) : Select := { s with distinct := true }

/-- The select with further fields. -/
def addFields (s : Select) (fields : List Field) : Select := { s with fields := s.fields ++ fields }

/-- The select from a further table. -/
def addTable (s : Select) (t : Table) : Select := { s with tables := s.tables ++ [t] }

/-- The select with this condition and no other. -/
def setFilter (s : Select) (c : Condition) : Select := { s with filter := some c }

/-- The select with a further condition. -/
def addFilter (s : Select) (c : Condition) : Select :=
  { s with filter := some (Condition.narrow s.filter c) }

/-- The hierarchical select from these roots. -/
def setStartWith (s : Select) (c : Condition) : Select := { s with startWith := some c }

/-- The hierarchical select along this link. -/
def setConnectBy (s : Select) (c : Condition) : Select := { s with connectBy := some c }

/-- The select grouped by further fields. -/
def addGroupBy (s : Select) (fields : List Field) : Select :=
  { s with groupBy := s.groupBy ++ fields }

/-- The select with this condition on groups. -/
def setHaving (s : Select) (c : Condition) : Select := { s with having := some c }

/-- The select sorted by a further field. -/
def addOrderBy (s : Select) (field : SortField) : Select :=
  { s with orderBy := s.orderBy ++ [field] }

/-- `s UNION ALL other`. -/
def unionAll (s other : Select) : Query := .unionAll [s, other]

end Select

/-- Appends a select to the chain of a union. -/
def Query.append : Query → Select → Query
  | .select first, other => .unionAll [first, other]
  | .unionAll selects, other => .unionAll (selects ++ [other])

end SqlRender
