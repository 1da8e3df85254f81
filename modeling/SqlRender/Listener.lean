import SqlRender.Settings
import SqlRender.Tree.Part

/-!
# Events and listeners

While a part is rendered, listeners are told when it is entered and left and when clauses open and
close. For a part with the tags `a` and `b` the events come in this order:

```text
visitStart
  clauseStart   … / a
    clauseStart   … / a / b
      … what is written inside …
    clauseEnd   … / a / b
  clauseEnd   … / a
visitEnd
```

Listeners are told in the order in which they are registered. A listener changes nothing but one
thing: it may refuse an event, which stops the render before the next listener is told.
-/

namespace SqlRender

/-- What an event is about. -/
inductive EventKind where
  /-- A clause was opened; it is the innermost of the path. -/
  | clauseStart
  /-- A clause is about to be closed; it is still the innermost of the path. -/
  | clauseEnd
  /-- A part is entered; none of its tags is open yet. -/
  | visitStart
  /-- A part is left; all of its tags are closed. -/
  | visitEnd
deriving DecidableEq, Repr

/-- What a listener can see of a render in progress. -/
structure Event where
  kind : EventKind
  /-- The open clauses, outermost first. -/
  path : List Clause
  dialect : Dialect
  declareTables : Bool
  declareFields : Bool
  /-- The part that is visited; none for a slot that a part opens around some of its text. -/
  part : Option Part

namespace Event

/-- The innermost open clause. -/
def clause (e : Event) : Option Clause := e.path.getLast?

/-- The event as one line of text, for debugging. -/
def describe (e : Event) : String :=
  "VisitContext \x7b clauses: [" ++ ", ".intercalate (e.path.map Enumeration.word) ++
  "], dialect: " ++ Enumeration.word e.dialect ++
  ", declare_tables: " ++ toString e.declareTables ++
  ", declare_fields: " ++ toString e.declareFields ++ ", .. \x7d"

end Event

/-- A listener answers an event from what it was told before. It answers with nothing, or refuses
the event with a reason. -/
abbrev Listener := List Event → Event → Option String

/-- The listener that refuses nothing. -/
def Listener.silent : Listener := fun _ _ => none

/-- A call of a listener: the place at which it is registered, and the event that it is told. -/
structure Call where
  place : Nat
  event : Event

/-- The event of a call, if it is one of the listener at a place. -/
def Call.eventAt? (place : Nat) (call : Call) : Option Event :=
  if call.place = place then some call.event else none

/-- An event that happened, and the calls by which listeners were told, in the order in which they
were made. -/
structure Notice where
  event : Event
  calls : List Call

/-- How many listeners were told. -/
def Notice.told (n : Notice) : Nat := n.calls.length

/-- The calls of listeners, in the order in which they were made. -/
def calls (notices : List Notice) : List Call := notices.flatMap Notice.calls

/-- The events that the listener at a place was told. -/
def heard (notices : List Notice) (place : Nat) : List Event :=
  (calls notices).filterMap (Call.eventAt? place)

/-- Tells an event to the listeners from a place on, until one refuses it. Answers the calls that
were made, in order, and the reason of the refusal if there was one. -/
def tell (past : List Notice) (e : Event) : List Listener → Nat → List Call × Option String
  | [], _ => ([], none)
  | l :: ls, place =>
    match l (heard past place) e with
    | none =>
      let (later, refusal) := tell past e ls (place + 1)
      (⟨place, e⟩ :: later, refusal)
    | some reason => ([⟨place, e⟩], some reason)

end SqlRender
