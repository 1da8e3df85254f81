import SqlRender.Proofs.Tidiness
import SqlRender.Proofs.Wording

/-!
# Nothing escapes from quotes

Identifiers and strings come from outside and may hold anything, quotes as well. This module puts
three facts together: the tokens of a node can be told apart (`Tidy.separable`), so they are read
back (`lex_tokens`); and a tree in other words is written as the same text in other words
(`Part.draft_reword`, `reword_settle`).

`Configuration.no_escape` is what follows for the text of a render: whoever reads it finds exactly
the names and strings that were written, and around them a text on which these have no influence.
-/

namespace SqlRender

/-! ## Stretches of segments -/

/-- Whether a stretch is the content of a quoted form. -/
def Stretch.isQuoted : Stretch → Bool
  | .code _ => false
  | .ident _ | .string _ => true

/-- A stretch in other words. -/
def Stretch.reword (w : Wording) : Stretch → Stretch
  | .code c => .code c
  | .ident name => .ident (w.name name)
  | .string s => .string (w.text s)

/-- The name that a segment writes, or the text value that it writes in place. -/
def Segment.quoted? : Segment → Option Stretch
  | .ident name => some (.ident name)
  | .literal ⟨⟨.text s, _, _, _⟩, _⟩ => some (.string s)
  | _ => none

/-- The stretches of segments. -/
def stretchesOf (s : Settings) (out : List Segment) : List Stretch :=
  (tokensOf s.capabilities out).flatMap (Token.stretches s)

section

variable (s : Settings) (w : Wording)

theorem stretchesOf_cons (x : Segment) (out : List Segment) :
    stretchesOf s (x :: out) =
      (x.tokens s.capabilities).flatMap (Token.stretches s) ++ stretchesOf s out := by
  simp [stretchesOf, tokensOf]

theorem filter_isQuoted_code (cs : List Char) :
    (cs.map Stretch.code).filter Stretch.isQuoted = [] := by
  simp [Stretch.isQuoted]

theorem map_reword_code (cs : List Char) :
    (cs.map Stretch.code).map (Stretch.reword w) = cs.map Stretch.code := by
  simp [Stretch.reword]

/-- Of what a segment is written as, the quoted stretches are its name or its text value. -/
theorem Segment.filter_isQuoted (x : Segment) :
    ((x.tokens s.capabilities).flatMap (Token.stretches s)).filter Stretch.isQuoted =
      x.quoted?.toList := by
  cases x with
  | text | keyword | placeholder =>
    simp only [Segment.tokens, List.flatMap_cons, List.flatMap_nil, List.append_nil]
    exact filter_isQuoted_code _
  | ident name => rfl
  | literal o =>
    obtain ⟨⟨v, dataType, name, inline⟩, type⟩ := o
    cases v with
    | text t =>
      have hstring : [Stretch.string t].filter Stretch.isQuoted = [.string t] := rfl
      simp only [Segment.tokens, Value.literal, List.flatMap_append, List.filter_append]
      split <;> simp [Token.stretches, Segment.quoted?, filter_isQuoted_code, hstring]
    | bool b =>
      simp only [Segment.tokens, Value.literal]
      split <;> simp [Token.stretches, Stretch.isQuoted, Segment.quoted?]
    | _ => simp [Segment.tokens, Value.literal, Token.stretches, Stretch.isQuoted, Segment.quoted?]

/-- A segment in other words is written as it is written, in other words. -/
theorem Segment.stretches_reword (x : Segment) :
    ((x.reword w).tokens s.capabilities).flatMap (Token.stretches s) =
      ((x.tokens s.capabilities).flatMap (Token.stretches s)).map (Stretch.reword w) := by
  cases x with
  | text | keyword | placeholder =>
    simp only [Segment.reword, Segment.tokens, List.flatMap_cons, List.flatMap_nil, List.append_nil]
    exact (map_reword_code w _).symm
  | ident name => rfl
  | literal o =>
    obtain ⟨⟨v, dataType, name, inline⟩, type⟩ := o
    cases v with
    | text t =>
      have hstring : [Stretch.string t].map (Stretch.reword w) = [.string (w.text t)] := rfl
      simp only [Segment.reword, Occurrence.reword, Param.reword, Value.reword, Segment.tokens,
        Value.literal, List.flatMap_append, List.map_append]
      split <;> simp [Token.stretches, map_reword_code, hstring, -List.map_map]
    | bool b =>
      simp only [Segment.reword, Occurrence.reword, Param.reword, Value.reword, Segment.tokens,
        Value.literal]
      split <;> simp [Token.stretches, Stretch.reword]
    | _ =>
      simp [Segment.reword, Occurrence.reword, Param.reword, Value.reword, Segment.tokens,
        Value.literal, Token.stretches, Stretch.reword]

theorem stretchesOf_filter_isQuoted (out : List Segment) :
    (stretchesOf s out).filter Stretch.isQuoted = out.filterMap Segment.quoted? := by
  induction out with
  | nil => rfl
  | cons x out ih =>
    rw [stretchesOf_cons, List.filter_append, Segment.filter_isQuoted, ih]
    cases hx : x.quoted? <;> simp [hx]

theorem stretchesOf_reword (out : List Segment) :
    stretchesOf s (out.map (Segment.reword w)) = (stretchesOf s out).map (Stretch.reword w) := by
  induction out with
  | nil => rfl
  | cons x out ih =>
    rw [List.map_cons, stretchesOf_cons, stretchesOf_cons, List.map_append, ih,
      Segment.stretches_reword]

end

/-! ## Renders -/

namespace Configuration

variable (cfg : Configuration) {part part' : Part} {modes : Modes} {past past' : List Notice}
  {r r' : Rendered}

/-- The text of a node is read back as the stretches of what was written. -/
theorem lex_sql (hquoting : cfg.settings.quoting = .quoted) (hpart : part.isNode = true)
    (h : (cfg.render part modes past).result = .ok r) :
    lex cfg.settings.capabilities.identifierQuote r.sql.toList =
      some (stretchesOf cfg.settings (cfg.render part modes past).out) := by
  obtain ⟨opened, hsettle, rfl⟩ := cfg.render_ok (Part.propagates_of_isNode hpart) h
  have htidy : Tidy (cfg.draft part modes) := Part.tidy_visit _ modes hpart
  obtain ⟨hseparable, -⟩ := htidy.separable hsettle
  exact lex_tokens hquoting hseparable

/-- Nodes that differ in words only are written as texts that differ in words only. -/
theorem out_reword_blank (hpart : part.isNode = true)
    (hwords : part'.reword .blank = part.reword .blank)
    (h : (cfg.render part modes past).result = .ok r)
    (h' : (cfg.render part' modes past').result = .ok r') :
    (cfg.render part' modes past').out.map (Segment.reword .blank) =
      (cfg.render part modes past).out.map (Segment.reword .blank) := by
  have hpart' : part'.isNode = true := by
    rw [← Part.isNode_reword .blank, hwords, Part.isNode_reword, hpart]
  obtain ⟨opened, hsettle, -⟩ := cfg.render_ok (Part.propagates_of_isNode hpart) h
  obtain ⟨opened', hsettle', -⟩ := cfg.render_ok (Part.propagates_of_isNode hpart') h'
  have hblank := reword_settle .blank hsettle
  have hblank' := reword_settle .blank hsettle'
  -- the two drafts are one in blank words
  have hdraft : (cfg.draft part' modes).map (Stroke.reword .blank) =
      (cfg.draft part modes).map (Stroke.reword .blank) := by
    unfold draft
    rw [← Part.draft_reword .blank _ modes hpart', hwords, Part.draft_reword .blank _ modes hpart]
  rw [hdraft] at hblank'
  have hboth := hblank'.symm.trans hblank
  simp only [Option.some.injEq, Prod.mk.injEq] at hboth
  exact hboth.1

/-- **Nothing escapes from quotes.** The text of a node with quoted identifiers is read to its end;
the contents of its quoted forms are, in order, the names and the text values in place that were
written; and any other node that differs in names and text values only, if it can be rendered, has
the same text around them: the same characters outside of quotes, and quoted forms of the same kinds
at the same places. -/
theorem no_escape (hquoting : cfg.settings.quoting = .quoted) (hpart : part.isNode = true)
    (h : (cfg.render part modes past).result = .ok r) :
    ∃ stretches, lex cfg.settings.capabilities.identifierQuote r.sql.toList = some stretches ∧
      stretches.filter Stretch.isQuoted =
        (cfg.render part modes past).out.filterMap Segment.quoted? ∧
      ∀ part' past' r', part'.reword .blank = part.reword .blank →
        (cfg.render part' modes past').result = .ok r' →
        ∃ stretches',
          lex cfg.settings.capabilities.identifierQuote r'.sql.toList = some stretches' ∧
          stretches'.map (Stretch.reword .blank) = stretches.map (Stretch.reword .blank) := by
  refine ⟨_, cfg.lex_sql hquoting hpart h, stretchesOf_filter_isQuoted _ _, ?_⟩
  intro part' past' r' hwords h'
  have hpart' : part'.isNode = true := by
    rw [← Part.isNode_reword .blank, hwords, Part.isNode_reword, hpart]
  refine ⟨_, cfg.lex_sql hquoting hpart' h', ?_⟩
  rw [← stretchesOf_reword, ← stretchesOf_reword, cfg.out_reword_blank hpart hwords h h']

/-- A name with the quote of MySQL and a string with a quote, each followed by more SQL. -/
theorem no_escape_hostile :
    let part : Part := .condition
      (.comparison (.named "a\x60 = 1 OR \x60b") .eq (.inlined "'; DROP TABLE t; --"))
    ∃ r stretches, SqlRender.render .mySql part = .ok r ∧
      lex '\x60' r.sql.toList = some stretches ∧
      stretches.filter Stretch.isQuoted =
        [.ident "a\x60 = 1 OR \x60b", .string "'; DROP TABLE t; --"] := by
  intro part
  let cfg : Configuration := { settings := { dialect := .mySql } }
  let r : Rendered :=
    { sql := "\x60a\x60\x60 = 1 OR \x60\x60b\x60 = '''; DROP TABLE t; --'", params := [] }
  have hok : (cfg.render part {} []).result = .ok r := Report.result_eq_ok (by decide +kernel)
  have hout : (cfg.render part {} []).out.filterMap Segment.quoted? =
      [.ident "a\x60 = 1 OR \x60b", .string "'; DROP TABLE t; --"] := by decide +kernel
  obtain ⟨stretches, hlex, hquoted, -⟩ := cfg.no_escape rfl rfl hok
  exact ⟨r, stretches, hok, hlex, hquoted.trans hout⟩

end Configuration

end SqlRender
