import SqlRender.Settings
import SqlRender.Settings.Json

/-!
# Settings as a document

A settings document is a JSON object. Each of its four keys names one setting by its word; a key
that is missing leaves the default, a key that is given twice counts by its last value, and any other
key is passed over. The document `null` gives the defaults.

A word is a string, or the key of an object that has this one member and nothing in it:

```text
{"dialect": "MySql"}          {"dialect": {"MySql": {}}}
```
-/

namespace SqlRender.Settings

/-- The value whose word a JSON value holds. -/
def word? {α : Type} [Enumeration α] : Json → Option α
  | .string s => Enumeration.read? s
  | .object [(s, .object [])] => Enumeration.read? s
  | _ => none

/-- The settings with one member of a document taken in. -/
def take? (s : Settings) (member : String × Json) : Option Settings :=
  match member with
  | ("dialect", v) => (word? v).map fun d => { s with dialect := d }
  | ("keyword_case", v) => (word? v).map fun c => { s with keywordCase := c }
  | ("quoting", v) => (word? v).map fun q => { s with quoting := q }
  | ("param_style", v) => (word? v).map fun p => { s with paramStyle := p }
  | _ => some s

/-- The settings of a document. -/
def ofJson? : Json → Option Settings
  | .null => some {}
  | .object members => members.foldlM take? {}
  | _ => none

/-- The settings of a document's text. -/
def ofText? (text : String) : Option Settings :=
  (Json.ofText? text).bind ofJson?

end SqlRender.Settings
