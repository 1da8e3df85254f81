import SqlRender.Enumeration

/-!
# Dialects

The four SQL backends that text can be rendered for. Only this module and `SqlRender.Feature` look
inside a `Dialect`: everything else asks for its `Capabilities`, a record of formatting and syntax
flags, or for the plan of a feature.

| | Oracle | PostgreSQL | MySQL | SQLite |
|---|---|---|---|---|
| identifier quote | `"` | `"` | backquote | `"` |
| placeholders | `?` | `$1`, `$2`, … | `?` | `?` |
| booleans | `1`, `0` | words | words | words |
| `DATE '…'` | yes | yes | yes | no |
-/

namespace SqlRender

/-- A target SQL backend. -/
inductive Dialect where
  | oracle | postgres | mySql | sqlite
deriving DecidableEq, Repr, Inhabited

namespace Dialect

/-- Every dialect, in the order in which lists over all dialects are written. -/
def all : List Dialect := [oracle, postgres, mySql, sqlite]

theorem mem_all (d : Dialect) : d ∈ all := by
  cases d <;> decide

/-- The name shown to people. -/
def name : Dialect → String
  | oracle => "Oracle"
  | postgres => "PostgreSQL"
  | mySql => "MySQL"
  | sqlite => "SQLite"

instance : Enumeration Dialect where
  values := all
  word
    | oracle => "Oracle"
    | postgres => "Postgres"
    | mySql => "MySql"
    | sqlite => "Sqlite"

end Dialect

/-- What one dialect's syntax has, and how it formats. -/
structure Capabilities where
  /-- `INSERT … VALUES (…), (…)`. -/
  multiRowValues : Bool := false
  /-- `INSERT INTO t DEFAULT VALUES`. -/
  defaultValues : Bool := false
  /-- `INSERT INTO t VALUES ()`. -/
  emptyValuesRow : Bool := false
  /-- `INSERT … ON DUPLICATE KEY UPDATE …`. -/
  onDuplicateKeyUpdate : Bool := false
  /-- `INSERT … RETURNING …` and `UPDATE … RETURNING …`. -/
  returning : Bool := false
  /-- `(VALUES (…), (…)) AS v(c1, c2)` as a table. -/
  valuesTable : Bool := false
  /-- `BETWEEN SYMMETRIC`. -/
  betweenSymmetric : Bool := false
  /-- `UPDATE t SET (a, b) = (x, y)`. -/
  rowValueAssignment : Bool := false
  /-- `START WITH … CONNECT BY …`. -/
  connectBy : Bool := false
  /-- A `SELECT` needs a `FROM`, if need be of a table with one row. -/
  requiresDual : Bool := false
  /-- Table aliases follow the word `AS`. -/
  tableAliasAs : Bool := true
  /-- Booleans are the words `TRUE` and `FALSE`, otherwise `1` and `0`. -/
  booleanLiterals : Bool := true
  /-- `DATE '2020-01-01'`, `TIMESTAMP '…'`. -/
  typedTemporalLiterals : Bool := true
  /-- The character around quoted identifiers. -/
  identifierQuote : Char := '"'
  /-- Placeholders carry the number of their bind value. -/
  numberedPlaceholders : Bool := false
deriving DecidableEq, Repr

/-- The capabilities of a dialect, as differences from the defaults of `Capabilities`. -/
def Dialect.capabilities : Dialect → Capabilities
  | oracle =>
    { connectBy := true, requiresDual := true, tableAliasAs := false, booleanLiterals := false }
  | postgres =>
    { multiRowValues := true, defaultValues := true, returning := true, valuesTable := true,
      betweenSymmetric := true, rowValueAssignment := true, numberedPlaceholders := true }
  | mySql =>
    { multiRowValues := true, emptyValuesRow := true, onDuplicateKeyUpdate := true,
      identifierQuote := '\x60' }
  | sqlite =>
    { multiRowValues := true, defaultValues := true, typedTemporalLiterals := false }

/-- The placeholder for the bind value in a slot; slots are numbered from one. -/
def Capabilities.placeholder (caps : Capabilities) (slot : Nat) : String :=
  if caps.numberedPlaceholders then "$" ++ toString slot else "?"

end SqlRender
