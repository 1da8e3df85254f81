import SqlRender.Modes
import SqlRender.Settings
import SqlRender.Text.Quoted
import SqlRender.Value

/-!
# What a render writes

A render does not write characters. It writes `Segment`s, which still say where a parameter stood
and what it carried; a segment is made of `Token`s, and only a token becomes text:

```text
Segment.literal ⟨'2020-01-01', DATE⟩  ──▸  keyword DATE, plain " ", string 2020-01-01
                                      ──▸  date '2020-01-01'        (lower case keywords)
```

So the case of keywords and the quoting of identifiers are decided in `Token.text` and nowhere
else, and neither can have an effect on the segments.
-/

namespace SqlRender

/-- A unit of SQL text. -/
inductive Token where
  /-- Text as it is. -/
  | plain (s : String)
  /-- A keyword, in capitals. -/
  | keyword (word : String)
  /-- An identifier. -/
  | ident (name : String)
  /-- A string literal. -/
  | string (s : String)
deriving DecidableEq, Repr

/-- The text of a token. -/
def Token.text (s : Settings) : Token → String
  | plain t => t
  | keyword word => s.keyword word
  | ident name =>
    match s.quoting with
    | .quoted => quoteIdent s.capabilities.identifierQuote name
    | .asIs => name
  | string t => quoteString t

/-- The literal of a value of the given type. Text of a date or a time names its type where the
dialect has such literals. -/
def Value.literal (caps : Capabilities) (type : Option DataType) : Value → List Token
  | null => [.keyword "NULL"]
  | bool b =>
    if caps.booleanLiterals then [.keyword (if b then "TRUE" else "FALSE")]
    else [.plain (if b then "1" else "0")]
  | int n => [.plain (toString n.toInt)]
  | float x => [.plain x.text]
  | text s =>
    (match caps.typedTemporalLiterals, type with
      | true, some .date => [.keyword "DATE", .plain " "]
      | true, some .timestamp => [.keyword "TIMESTAMP", .plain " "]
      | _, _ => []) ++ [.string s]

/-- A parameter where it stands in a statement, with the type that it is taken to have there. -/
structure Occurrence where
  param : Param
  type : Option DataType
deriving DecidableEq, Repr

/-- Whether a parameter is written as a literal rather than bound. -/
def Occurrence.inPlace (s : Settings) (o : Occurrence) : Bool :=
  o.param.inline || s.paramStyle = .inline

/-- A parameter as it is taken under the modes: with its own type, else with the assumed one. -/
def Param.occurrence (p : Param) (m : Modes) : Occurrence := ⟨p, p.dataType <|> m.assumed⟩

/-- One thing that a render wrote. -/
inductive Segment where
  /-- Text as it is. -/
  | text (s : String)
  /-- A keyword, in capitals. -/
  | keyword (word : String)
  /-- An identifier. -/
  | ident (name : String)
  /-- A parameter in place. -/
  | literal (o : Occurrence)
  /-- A placeholder for a parameter whose value is bound in a slot. -/
  | placeholder (slot : Nat) (o : Occurrence)
deriving DecidableEq, Repr

/-- The tokens of a segment. -/
def Segment.tokens (caps : Capabilities) : Segment → List Token
  | text s => [.plain s]
  | keyword word => [.keyword word]
  | ident name => [.ident name]
  | literal o => o.param.value.literal caps o.type
  | placeholder slot _ => [.plain (caps.placeholder slot)]

/-- The tokens of segments, in order. -/
def tokensOf (caps : Capabilities) (out : List Segment) : List Token :=
  out.flatMap (Segment.tokens caps)

/-- The text of segments, in order. -/
def textOf (s : Settings) (out : List Segment) : String :=
  String.join ((tokensOf s.capabilities out).map (Token.text s))

end SqlRender
