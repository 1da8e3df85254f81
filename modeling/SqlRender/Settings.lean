import SqlRender.Dialect

/-!
# Settings

What a render is told besides the tree: the dialect, the case of keywords, whether identifiers are
quoted, and whether values become bind values or literals.
-/

namespace SqlRender

/-- The case of keywords. -/
inductive KeywordCase where
  | upper | lower
deriving DecidableEq, Repr, Inhabited

instance : Enumeration KeywordCase where
  values := [.upper, .lower]
  word
    | .upper => "Upper"
    | .lower => "Lower"

/-- Whether identifiers are quoted. -/
inductive Quoting where
  /-- `"my_table"`. -/
  | quoted
  /-- `my_table`. -/
  | asIs
deriving DecidableEq, Repr, Inhabited

instance : Enumeration Quoting where
  values := [.quoted, .asIs]
  word
    | .quoted => "Quoted"
    | .asIs => "AsIs"

/-- How values get into the text. -/
inductive ParamStyle where
  /-- As placeholders; the values are bound. -/
  | indexed
  /-- As literals. -/
  | inline
deriving DecidableEq, Repr, Inhabited

instance : Enumeration ParamStyle where
  values := [.indexed, .inline]
  word
    | .indexed => "Indexed"
    | .inline => "Inline"

/-- The settings of a render. -/
structure Settings where
  dialect : Dialect := .oracle
  keywordCase : KeywordCase := .upper
  quoting : Quoting := .quoted
  paramStyle : ParamStyle := .indexed
deriving DecidableEq, Repr, Inhabited

namespace Settings

def capabilities (s : Settings) : Capabilities := s.dialect.capabilities

/-- A keyword, given in capitals, in the configured case. Only ASCII letters change. -/
def keyword (s : Settings) (word : String) : String :=
  match s.keywordCase with
  | .upper => word
  | .lower => word.map Char.toLower

/-- The settings as one line of text, for debugging. -/
def describe (s : Settings) : String :=
  "Settings \x7b dialect: " ++ Enumeration.word s.dialect ++
  ", keyword_case: " ++ Enumeration.word s.keywordCase ++
  ", quoting: " ++ Enumeration.word s.quoting ++
  ", param_style: " ++ Enumeration.word s.paramStyle ++ " \x7d"

end Settings

end SqlRender
