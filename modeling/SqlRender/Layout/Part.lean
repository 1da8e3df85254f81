import SqlRender.Layout.Statement

/-!
# How parts are written

`Part.visit` is the visit of any part, with its events, and `Part.body` what is written inside a
part's tags. A part that forwards is visited as its target. The steps of a caller's part become
actions, each followed by a note of what it found out; a step that fails leaves no note.
-/

namespace SqlRender

variable (d : Dialect)

/-- The notes behind a step that has ended well. Where steps are attempted, the attempt itself notes
how it ended. -/
def Step.notes (s : Step) : Script :=
  match s with
  | .tagsOf p => [.note s (.tagsOf p)]
  | .resolve f => [.note s (.plan (d.resolve f))]
  | .require f _ => [.note s (.plan (d.resolve f))]
  | .inspect => [.note s .state]
  | .attempt _ => []
  | _ => [.note s .done]

mutual

/-- The visit of a part. -/
def Part.visit : Part → Action
  | .field f => f.visit d
  | .row r => Row.visit d r
  | .table t => t.visit d
  | .condition c => c.visit d
  | .sort s => s.visit d
  | .select s => s.visit d
  | .query q => q.visit d
  | .insert i => i.visit d
  | .update u => u.visit d
  | .delete x => x.visit d
  | .statement s => s.visit d
  | .forward p => p.visit
  | .custom tags steps => .visit (.custom tags steps) (Step.script steps)

/-- What is written inside a part's tags. -/
def Part.body : Part → Script
  | .field f => f.body d
  | .row r => Row.body d r
  | .table t => t.body d
  | .condition c => c.body d
  | .sort s => s.body d
  | .select s => s.body d
  | .query q => q.body d
  | .insert i => i.body d
  | .update u => u.body d
  | .delete x => x.body d
  | .statement s => [s.visit d]
  | .forward p => p.body
  | .custom _ steps => Step.script steps

/-- The actions of a step. -/
def Step.actions : Step → Script
  | .write s => [.text s]
  | .keyword word => [.keyword word]
  | .ident name => [.ident name]
  | .bind p => [.bind p]
  | .literal v type => [.literal v type]
  | .visit p => [p.visit]
  | .visitAll fields separator => Script.separated separator (fields.map (Field.visit d))
  | .render p => p.body
  | .tagsOf _ => []
  | .within c steps => [.within c (Step.script steps)]
  | .switch mode on steps => [.switch mode on (Step.script steps)]
  | .assume type steps => [.assume type (Step.script steps)]
  | .resolve _ => []
  | .require f c => Script.require d f c
  | .checkDegree c expected found => Script.checkDegree d c expected found
  | .failEmpty c => Script.failEmpty d c
  | .attempt steps => [.attempt (.attempt steps) (Step.script steps)]
  | .inspect => []

/-- The actions and notes of steps, in order. -/
def Step.script : List Step → Script
  | [] => []
  | s :: steps => s.actions ++ s.notes d ++ Step.script steps

end

end SqlRender
