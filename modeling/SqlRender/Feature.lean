import SqlRender.Dialect

/-!
# Features and their plans

A `Feature` is a piece of syntax that not every dialect has. `Dialect.resolve` says how a dialect
gets it: as written, in another form with the same meaning, not at all because it may be left out,
or not at all because it may not.
-/

namespace SqlRender

/-- A piece of syntax with more than one possible rendering. -/
inductive Feature where
  /-- An `INSERT` with this many rows of values. -/
  | insertValues (rows : Nat)
  /-- An `INSERT` of one row of column defaults. -/
  | defaultValues
  | onDuplicateKeyUpdate
  | returning
  | valuesTable
  | betweenSymmetric
  | rowValueAssignment
  | connectBy
  | selectWithoutFrom
deriving DecidableEq, Repr

/-- How a feature is named in messages. -/
def Feature.name : Feature → String
  | insertValues rows => "INSERT with " ++ toString rows ++ " rows of VALUES"
  | defaultValues => "DEFAULT VALUES"
  | onDuplicateKeyUpdate => "ON DUPLICATE KEY UPDATE"
  | returning => "RETURNING"
  | valuesTable => "VALUES table constructor"
  | betweenSymmetric => "BETWEEN SYMMETRIC"
  | rowValueAssignment => "row value assignment"
  | connectBy => "START WITH / CONNECT BY"
  | selectWithoutFrom => "SELECT without FROM"

/-- Another form with the same meaning. -/
inductive Emulation where
  /-- `INSERT … SELECT … UNION ALL SELECT …`, one `SELECT` for each row. -/
  | insertSelectUnionAll
  /-- `SELECT … FROM DUAL`. -/
  | fromDual
  /-- `VALUES ()` for `DEFAULT VALUES`. -/
  | emptyValuesRow
deriving DecidableEq, Repr

/-- How a feature is rendered. -/
inductive Plan where
  /-- As written. -/
  | native
  /-- In another form with the same meaning. -/
  | emulate (form : Emulation)
  /-- Not at all: its slot stays empty. -/
  | omit
  /-- Not at all: the render fails. -/
  | unsupported
deriving DecidableEq, Repr

/-- As written where the flag holds, otherwise by another plan. -/
def Plan.nativeOr (flag : Bool) (otherwise : Plan) : Plan :=
  if flag then .native else otherwise

/-- How a dialect renders a feature. -/
def Dialect.resolve (d : Dialect) : Feature → Plan
  | .insertValues rows =>
    .nativeOr (rows ≤ 1 || d.capabilities.multiRowValues) (.emulate .insertSelectUnionAll)
  | .defaultValues =>
    .nativeOr d.capabilities.defaultValues <|
      if d.capabilities.emptyValuesRow then .emulate .emptyValuesRow else .unsupported
  | .onDuplicateKeyUpdate => .nativeOr d.capabilities.onDuplicateKeyUpdate .omit
  | .returning => .nativeOr d.capabilities.returning .omit
  | .valuesTable => .nativeOr d.capabilities.valuesTable .unsupported
  | .betweenSymmetric => .nativeOr d.capabilities.betweenSymmetric .unsupported
  | .rowValueAssignment => .nativeOr d.capabilities.rowValueAssignment .unsupported
  | .connectBy => .nativeOr d.capabilities.connectBy .unsupported
  | .selectWithoutFrom => .nativeOr (!d.capabilities.requiresDual) (.emulate .fromDual)

end SqlRender
