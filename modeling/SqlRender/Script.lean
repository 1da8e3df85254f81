import SqlRender.Tree.Part

/-!
# Scripts

A `Script` is a list of `Action`s: what has to be done, in order, to write a part. The layout of the
parts (`SqlRender.Layout`) turns trees into scripts, and one interpreter (`SqlRender.Run`) performs
scripts. Whatever holds of every script therefore holds of every part, a caller's parts included.

The dialect is already settled in a script: where a feature has no form the script fails at that
point, and where it is emulated the script holds the other form. The modes are not, because they
depend on where a part stands; `Action.whenOn` asks for them while the script is performed.
-/

namespace SqlRender

/-- What a step of a caller's part finds out. -/
inductive Reading where
  /-- Nothing but that the step is done. -/
  | done
  /-- The tags that a part would open now. -/
  | tagsOf (p : Part)
  /-- How the dialect renders a feature. -/
  | plan (p : Plan)
  /-- The open clauses and the modes. -/
  | state

/-- One thing that is done to write a part. -/
inductive Action where
  /-- Write text as it is. -/
  | text (s : String)
  /-- Write a keyword, given in capitals. -/
  | keyword (word : String)
  /-- Write an identifier. -/
  | ident (name : String)
  /-- Write a parameter. -/
  | bind (p : Param)
  /-- Write a value as a literal of a type. -/
  | literal (v : Value) (type : Option DataType)
  /-- Enter a part, open its tags, perform the body, close the tags and leave the part. -/
  | visit (part : Part) (body : List Action)
  /-- Open a clause, perform the body and close it. -/
  | within (c : Clause) (body : List Action)
  /-- Perform the body with a mode switched. -/
  | switch (mode : Mode) (on : Bool) (body : List Action)
  /-- Perform the body under another assumed type. -/
  | assume (type : Option DataType) (body : List Action)
  /-- Perform the body if a mode is on. -/
  | whenOn (mode : Mode) (body : List Action)
  /-- Fail. -/
  | fail (e : RenderError)
  /-- Perform the body and go on behind it even if it fails; note which it was for a step. -/
  | attempt (step : Step) (body : List Action)
  /-- Note what a step that has ended found out. -/
  | note (step : Step) (reading : Reading)

/-- What is done to write a part. -/
abbrev Script := List Action

namespace Script

/-- The actions with a keyword between any two. -/
def separated (separator : String) (actions : Script) : Script :=
  actions.intersperse (.keyword separator)

/-- The actions with commas between them. -/
def listed (actions : Script) : Script := separated ", " actions

/-- Fails at a clause if the dialect has no form for a feature. -/
def require (d : Dialect) (f : Feature) (c : Clause) : Script :=
  if d.resolve f = .unsupported then [.fail (.unsupported f d c)] else []

/-- Fails at a clause unless two degrees are equal. -/
def checkDegree (d : Dialect) (c : Clause) (expected found : Nat) : Script :=
  if expected = found then [] else [.fail (.degreeMismatch c d expected found)]

/-- Fails because a clause is empty. -/
def failEmpty (d : Dialect) (c : Clause) : Script := [.fail (.emptyClause c d)]

end Script

end SqlRender
