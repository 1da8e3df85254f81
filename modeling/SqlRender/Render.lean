import SqlRender.Layout.Part
import SqlRender.Run

/-!
# Rendering

`Configuration.render` renders one part, from a fresh state but for two things that the caller
gives: the modes it starts with, and the events that the listeners were told in earlier renders.
`Configuration.session` renders parts one after the other with the same listeners.
-/

namespace SqlRender

/-- SQL text and the values to bind, in the order of their slots. -/
structure Rendered where
  sql : String
  params : List Value
deriving DecidableEq, Repr

/-- What a render leaves: its result, what it wrote up to its end or its failure, the events that
happened, and what the steps of callers' parts found out. -/
structure Report where
  result : Except RenderError Rendered
  out : List Segment
  notices : List Notice
  journal : List Entry

theorem Report.result_eq_ok {report : Report} {r : Rendered}
    (h : report.result.toOption = some r) : report.result = .ok r := by
  cases hr : report.result with
  | ok r' => rw [hr] at h; cases h; rfl
  | error e => rw [hr] at h; cases h

namespace Configuration

/-- Visits a part in a fresh state with given modes. The listeners remember `past`. -/
def run (cfg : Configuration) (part : Part) (modes : Modes) (past : List Notice) :
    EStateM.Result RenderError State Unit :=
  (part.visit cfg.settings.dialect).perform cfg { modes, notices := past }

/-- What was rendered, from the state that a render ended in. -/
def rendered (cfg : Configuration) (st : State) : Rendered :=
  { sql := textOf cfg.settings st.out, params := st.params }

/-- Renders a part from given modes. The listeners remember `past`, which the report leaves out. -/
def render (cfg : Configuration) (part : Part) (modes : Modes) (past : List Notice) : Report :=
  let report (result : Except RenderError Rendered) (st : State) : Report :=
    { result, out := st.out, notices := st.notices.drop past.length, journal := st.journal }
  match cfg.run part modes past with
  | .ok _ st => report (.ok (cfg.rendered st)) st
  | .error e st => report (.error e) st

/-- Renders parts one after the other; the listeners remember what they were told before. -/
def session (cfg : Configuration) (past : List Notice) : List (Part × Modes) → List Report
  | [] => []
  | (part, modes) :: rest =>
    let report := cfg.render part modes past
    report :: session cfg (past ++ report.notices) rest

/-- The configuration as one line of text, for debugging. -/
def describe (cfg : Configuration) : String :=
  "Configuration \x7b settings: " ++ cfg.settings.describe ++ ", listeners: " ++
  toString cfg.listeners.length ++ " \x7d"

end Configuration

/-- Renders a part for a dialect with default settings and no listeners. -/
def render (d : Dialect) (part : Part) : Except RenderError Rendered :=
  (Configuration.render { settings := { dialect := d } } part {} []).result

end SqlRender
