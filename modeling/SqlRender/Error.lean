import SqlRender.Clause
import SqlRender.Feature
import SqlRender.Number.Shortest

/-!
# Errors of a render

A failed render has one cause, and a cause knows the clause it arose at. The first three causes name
their clause themselves; the others take the innermost clause that is open, and have none if no
clause is open.
-/

namespace SqlRender

/-- Why a render failed. -/
inductive RenderError where
  /-- The dialect has no form for a feature. -/
  | unsupported (feature : Feature) (dialect : Dialect) (clause : Clause)
  /-- Two rows that belong together have different degrees. -/
  | degreeMismatch (clause : Clause) (dialect : Dialect) (expected found : Nat)
  /-- A list that must not be empty is. -/
  | emptyClause (clause : Clause) (dialect : Dialect)
  /-- Two occurrences of a name carry values that do not agree. -/
  | paramConflict (name : String) (clause : Option Clause)
  /-- A number that has no literal. -/
  | invalidLiteral (value : Double) (dialect : Dialect) (clause : Option Clause)
  /-- A listener refused an event. -/
  | listener (clause : Option Clause) (reason : String)
deriving DecidableEq, Repr

namespace RenderError

/-- The clause that the error arose at, if there was one. -/
def clause : RenderError → Option Clause
  | unsupported _ _ c => some c
  | degreeMismatch c _ _ _ => some c
  | emptyClause c _ => some c
  | paramConflict _ c => c
  | invalidLiteral _ _ c => c
  | listener c _ => c

/-- The words that name the place, if there is one. -/
def place : Option Clause → String
  | none => ""
  | some c => " at " ++ c.name

/-- The error in words. -/
def message : RenderError → String
  | unsupported f d c => f.name ++ " is not supported by " ++ d.name ++ " (at " ++ c.name ++ ")"
  | degreeMismatch c d expected found =>
    "row degree mismatch at " ++ c.name ++ " (" ++ d.name ++ "): expected " ++ toString expected ++
    ", found " ++ toString found
  | emptyClause c d => c.name ++ " requires at least one element (" ++ d.name ++ ")"
  | paramConflict name c =>
    "parameter " ++ name ++ " is bound to two different values" ++ place c
  | invalidLiteral x d c => x.text ++ " has no literal form in " ++ d.name ++ place c
  | listener c reason => "visit listener failed" ++ place c ++ ": " ++ reason

end RenderError

end SqlRender
