import SqlRender.Proofs.Binding
import SqlRender.Proofs.Failures
import SqlRender.Proofs.Observers

/-!
# Looks are cosmetic

The case of keywords and the quoting of identifiers are settings of how text looks. No run asks for
them, so two configurations that differ in these two settings accompany each other, and end with the
same segments. Segments are made of `Piece`s, and the look of a text is the look of its pieces, one
by one:

```text
                        SELECT · sumOf · FROM · 'Ab'      (keyword, identifier, keyword, other)

  upper, quoted         SELECT "sumOf" FROM 'Ab'
  lower, as they are    select sumOf from 'Ab'
```

Lower case is a matter of ASCII letters, so it changes neither the length of a text nor its bytes but
those of capital letters.
-/

namespace SqlRender

/-! ## Pieces -/

/-- A piece of text, told apart by the setting that it looks to. -/
inductive Piece where
  /-- A keyword, as the renderer spells it. -/
  | keyword (word : String)
  /-- The name of something. -/
  | ident (name : String)
  /-- Text that looks always the same. -/
  | other (s : String)
deriving DecidableEq, Repr

/-- How a piece looks: a keyword is in lower case exactly where keywords are, an identifier is quoted
exactly where identifiers are. -/
def Piece.text (s : Settings) : Piece → String
  | keyword word => if s.keywordCase = .lower then word.map Char.toLower else word
  | ident name =>
    if s.quoting = .quoted then quoteIdent s.capabilities.identifierQuote name else name
  | other t => t

/-- How pieces look one behind the other. -/
def Piece.join (s : Settings) (pieces : List Piece) : String := String.join (pieces.map (text s))

/-- The piece that a token is. A string literal looks always the same. -/
def Token.piece : Token → Piece
  | plain s => .other s
  | keyword word => .keyword word
  | ident name => .ident name
  | string s => .other (quoteString s)

/-- The pieces of a segment. -/
def Segment.pieces (caps : Capabilities) : Segment → List Piece
  | text s => [.other s]
  | keyword word => [.keyword word]
  | ident name => [.ident name]
  | literal o => (o.param.value.literal caps o.type).map Token.piece
  | placeholder slot _ => [.other (caps.placeholder slot)]

/-- The pieces of segments, in order. -/
def piecesOf (caps : Capabilities) (out : List Segment) : List Piece :=
  out.flatMap (Segment.pieces caps)

theorem Token.text_eq_piece (s : Settings) (t : Token) : t.text s = t.piece.text s := by
  cases t with
  | plain | string => rfl
  | keyword word =>
    simp only [Token.text, Settings.keyword, Token.piece, Piece.text]
    cases s.keywordCase <;> rfl
  | ident name =>
    simp only [Token.text, Token.piece, Piece.text]
    cases s.quoting <;> rfl

theorem Segment.pieces_eq_tokens (caps : Capabilities) (x : Segment) :
    x.pieces caps = (x.tokens caps).map Token.piece := by
  cases x <;> rfl

/-- A text is made of its pieces as they look. -/
theorem textOf_eq_pieces (s : Settings) (out : List Segment) :
    textOf s out = Piece.join s (piecesOf s.capabilities out) := by
  have hpieces : piecesOf s.capabilities out = (tokensOf s.capabilities out).map Token.piece := by
    simp [piecesOf, tokensOf, List.map_flatMap, funext (Segment.pieces_eq_tokens s.capabilities)]
  rw [hpieces, Piece.join, List.map_map, textOf, funext (Token.text_eq_piece s)]
  rfl

/-! ### Which pieces are keywords -/

/-- The keywords that literals are written with. -/
def Value.literalWords : List String := ["NULL", "TRUE", "FALSE", "DATE", "TIMESTAMP"]

theorem Value.mem_literalWords {caps : Capabilities} {type : Option DataType} {v : Value}
    {word : String} (h : Token.keyword word ∈ v.literal caps type) : word ∈ literalWords := by
  unfold literal at h
  split at h
  case h_1 => simp_all [literalWords]
  case h_2 b =>
    split at h
    · cases b <;> simp_all [literalWords]
    · simp at h
  case h_3 | h_4 => simp at h
  case h_5 =>
    split at h <;> simp_all [literalWords]

/-- A keyword among the pieces was written as a keyword, or is one of those that literals are
written with. -/
theorem keyword_of_mem_piecesOf {caps : Capabilities} {out : List Segment} {word : String}
    (h : Piece.keyword word ∈ piecesOf caps out) :
    Segment.keyword word ∈ out ∨ word ∈ Value.literalWords := by
  obtain ⟨x, hx, hword⟩ := List.mem_flatMap.1 h
  cases x with
  | keyword word' =>
    obtain rfl : word = word' := by simpa [Segment.pieces] using hword
    exact .inl hx
  | literal o =>
    obtain ⟨t, ht, hpiece⟩ := List.mem_map.1 hword
    obtain rfl : t = .keyword word := by
      cases t <;> cases hpiece
      rfl
    exact .inr (Value.mem_literalWords ht)
  | text | ident | placeholder => simp [Segment.pieces] at hword

/-! ### Lower case -/

theorem toLower_toLower (c : Char) : c.toLower.toLower = c.toLower := by
  unfold Char.toLower
  grind

theorem utf8Size_toLower (c : Char) : c.toLower.utf8Size = c.utf8Size := by
  unfold Char.toLower Char.utf8Size
  grind

/-- The text in lower case. Only ASCII letters change. -/
def lowered (s : String) : String := s.map Char.toLower

theorem lowered_append (s t : String) : lowered (s ++ t) = lowered s ++ lowered t := by
  apply String.toList_injective
  simp [lowered]

theorem lowered_lowered (s : String) : lowered (lowered s) = lowered s := by
  unfold lowered
  rw [String.map_map]
  exact congrArg (String.map · s) (funext toLower_toLower)

/-- A text and its lower case have the same length. -/
theorem length_lowered (s : String) : (lowered s).length = s.length := String.length_map

/-- A text and its lower case have the same number of bytes. -/
theorem utf8ByteSize_lowered (s : String) : (lowered s).utf8ByteSize = s.utf8ByteSize := by
  have hchars : ∀ cs : List Char, (lowered (String.ofList cs)).utf8ByteSize =
      (String.ofList cs).utf8ByteSize := by
    intro cs
    induction cs with
    | nil => simp [lowered]
    | cons c cs ih =>
      have hhead : lowered (String.singleton c) = String.singleton c.toLower := by
        apply String.toList_injective
        simp [lowered]
      rw [String.ofList_cons, lowered_append, hhead, String.utf8ByteSize_append,
        String.utf8ByteSize_append, ih, String.utf8ByteSize_singleton,
        String.utf8ByteSize_singleton, utf8Size_toLower]
  rw [← String.ofList_toList (s := s)]
  exact hchars s.toList

section

variable {s s' : Settings} (hdialect : s'.dialect = s.dialect) (hquoting : s'.quoting = s.quoting)

include hdialect hquoting

/-- Under settings that differ in the case of keywords only, no piece but a keyword looks different. -/
theorem Piece.text_eq_or (p : Piece) : p.text s' = p.text s ∨ ∃ word, p = .keyword word := by
  cases p with
  | keyword word => exact .inr ⟨word, rfl⟩
  | ident name =>
    left
    simp only [text, Settings.capabilities, hdialect, hquoting]
  | other t => exact .inl rfl

theorem Piece.lowered_text (p : Piece) : lowered (p.text s') = lowered (p.text s) := by
  have hkeyword : ∀ (s : Settings) (word : String),
      lowered (text s (.keyword word)) = lowered word := by
    intro s word
    show lowered (if s.keywordCase = .lower then lowered word else word) = lowered word
    split
    · exact lowered_lowered word
    · rfl
  obtain heq | ⟨word, rfl⟩ := p.text_eq_or hdialect hquoting
  · rw [heq]
  · rw [hkeyword, hkeyword]

theorem Piece.lowered_join (pieces : List Piece) :
    lowered (join s' pieces) = lowered (join s pieces) := by
  unfold join
  induction pieces with
  | nil => rfl
  | cons p pieces ih =>
    rw [List.map_cons, List.map_cons, String.join_cons, String.join_cons, lowered_append,
      lowered_append, p.lowered_text hdialect hquoting, ih]

end

/-! ## Renders that look different -/

namespace Configuration

variable {cfg cfg' : Configuration}

/-- Events happen alike to the same listeners, whatever the looks. -/
theorem accompanies_of_looks (hdialect : cfg'.settings.dialect = cfg.settings.dialect)
    (hstyle : cfg'.settings.paramStyle = cfg.settings.paramStyle)
    (hlisteners : cfg'.listeners = cfg.listeners) : cfg'.Accompanies id cfg where
  dialect_eq := hdialect
  paramStyle_eq := hstyle
  notify := by
    intro kind part st
    have hnotify : cfg'.notify kind part = cfg.notify kind part := by
      unfold notify
      rw [hdialect, hlisteners]
    show cfg'.notify kind part st = Run.retell id (cfg.notify kind part st)
    rw [hnotify]
    cases cfg.notify kind part st <;> rfl

/-- Runs that differ in looks only are the same. -/
theorem run_of_looks (hdialect : cfg'.settings.dialect = cfg.settings.dialect)
    (hstyle : cfg'.settings.paramStyle = cfg.settings.paramStyle)
    (hlisteners : cfg'.listeners = cfg.listeners) (part : Part) (modes : Modes)
    (past : List Notice) : cfg'.run part modes past = cfg.run part modes past := by
  have hrun := (accompanies_of_looks hdialect hstyle hlisteners).run part modes past
  rw [id_eq] at hrun
  rw [hrun]
  cases cfg.run part modes past <;> rfl

/-- A text is made of the pieces of the segments that were written. -/
theorem result_of_run {part : Part} {modes : Modes} {past : List Notice} {st : State}
    (h : cfg.run part modes past = .ok () st) :
    (cfg.render part modes past).result = .ok
      ⟨Piece.join cfg.settings
        (piecesOf cfg.settings.capabilities (cfg.render part modes past).out), st.params⟩ := by
  rw [cfg.out_render_of_run h, ← textOf_eq_pieces]
  exact cfg.render_ok_iff_run.2 ⟨st, h, rfl⟩

/-- **Looks are cosmetic.** Whatever a part does, two renders of it whose settings differ at most in
the case of keywords and in the quoting of identifiers tell their listeners the same events, and end
both with the same error or both well. In this case they bind the same values, and their texts are
the same pieces one behind the other, each as it looks under the settings. The keywords among the
pieces are those that were written as keywords, and those of literals.

If only the case of keywords differs, then no identifier, no string literal and no placeholder looks
different, the texts are of the same length, and in lower case they are the same. -/
theorem looks_are_cosmetic (hdialect : cfg'.settings.dialect = cfg.settings.dialect)
    (hstyle : cfg'.settings.paramStyle = cfg.settings.paramStyle)
    (hlisteners : cfg'.listeners = cfg.listeners) (part : Part) (modes : Modes)
    (past : List Notice) :
    let report := cfg.render part modes past
    let report' := cfg'.render part modes past
    let pieces := piecesOf cfg.settings.capabilities report.out
    let sql := Piece.join cfg.settings pieces
    let sql' := Piece.join cfg'.settings pieces
    report'.notices = report.notices ∧ report'.journal = report.journal ∧
    ((∃ e, report.result = .error e ∧ report'.result = .error e) ∨
      ∃ params, report.result = .ok ⟨sql, params⟩ ∧ report'.result = .ok ⟨sql', params⟩) ∧
    (∀ word, Piece.keyword word ∈ pieces →
      Segment.keyword word ∈ report.out ∨ word ∈ Value.literalWords) ∧
    (cfg'.settings.quoting = cfg.settings.quoting →
      (∀ p : Piece, p.text cfg'.settings = p.text cfg.settings ∨ ∃ word, p = .keyword word) ∧
      sql'.length = sql.length ∧ sql'.utf8ByteSize = sql.utf8ByteSize ∧
      lowered sql' = lowered sql) := by
  intro report report' pieces sql sql'
  have hrun := run_of_looks hdialect hstyle hlisteners part modes past
  have hcaps : cfg'.settings.capabilities = cfg.settings.capabilities :=
    congrArg Dialect.capabilities hdialect
  have hleft : report'.out = report.out ∧ report'.notices = report.notices ∧
      report'.journal = report.journal := by
    unfold report report' render
    rw [hrun]
    cases cfg.run part modes past <;> exact ⟨rfl, rfl, rfl⟩
  obtain ⟨hout, hnotices, hjournal⟩ := hleft
  refine ⟨hnotices, hjournal, ?_, fun word => keyword_of_mem_piecesOf, fun hquoting => ?_⟩
  · cases hst : cfg.run part modes past with
    | error e st =>
      left
      have hfail : report.result = .error e := cfg.render_error_iff_run.2 ⟨st, hst⟩
      have hfail' : report'.result = .error e := cfg'.render_error_iff_run.2 ⟨st, hrun.trans hst⟩
      exact ⟨e, hfail, hfail'⟩
    | ok a st =>
      right
      have hok' := result_of_run (hrun.trans hst)
      rw [hcaps, hout] at hok'
      exact ⟨st.params, result_of_run hst, hok'⟩
  · have hlowered : lowered sql' = lowered sql := Piece.lowered_join hdialect hquoting pieces
    refine ⟨Piece.text_eq_or hdialect hquoting, ?_, ?_, hlowered⟩
    · rw [← length_lowered sql', hlowered, length_lowered]
    · rw [← utf8ByteSize_lowered sql', hlowered, utf8ByteSize_lowered]

/-- `SELECT DATE 'Jan' AS "DAY", $1 FROM "T"` in lower case, and without quotes besides. -/
theorem looks_are_cosmetic_lower :
    let day : Param := { value := .text "Jan", dataType := some .date, inline := true }
    let part : Part := .select
      { fields := [.aliased (.value day) "DAY", .value { value := .int 7 }]
        tables := [.ofName "T"] }
    let cfg : Configuration := { settings := { dialect := .postgres } }
    let lower : Configuration := { settings := { dialect := .postgres, keywordCase := .lower } }
    let plain : Configuration :=
      { settings := { dialect := .postgres, keywordCase := .lower, quoting := .asIs } }
    let report := cfg.render part {} []
    let pieces := piecesOf cfg.settings.capabilities report.out
    report.result = .ok ⟨"SELECT DATE 'Jan' AS \"DAY\", $1 FROM \"T\"", [.int 7]⟩ ∧
    (lower.render part {} []).result =
      .ok ⟨"select date 'Jan' as \"DAY\", $1 from \"T\"", [.int 7]⟩ ∧
    (plain.render part {} []).result = .ok ⟨"select date 'Jan' as DAY, $1 from T", [.int 7]⟩ ∧
    (∃ params, (plain.render part {} []).result =
      .ok ⟨Piece.join plain.settings pieces, params⟩) ∧
    (Piece.join lower.settings pieces).length = (Piece.join cfg.settings pieces).length := by
  intro day part cfg lower plain report pieces
  have hok : report.result =
      .ok ⟨"SELECT DATE 'Jan' AS \"DAY\", $1 FROM \"T\"", [.int 7]⟩ :=
    Report.result_eq_ok (by decide +kernel)
  obtain ⟨-, -, -, -, hsame⟩ := @looks_are_cosmetic cfg lower rfl rfl rfl part {} []
  obtain ⟨-, -, hresult, -⟩ := @looks_are_cosmetic cfg plain rfl rfl rfl part {} []
  refine ⟨hok, Report.result_eq_ok (by decide +kernel), Report.result_eq_ok (by decide +kernel), ?_,
    (hsame rfl).2.1⟩
  obtain ⟨e, hfail, -⟩ | ⟨params, -, hplain⟩ := hresult
  · rw [hfail] at hok
    cases hok
  · exact ⟨params, hplain⟩

end Configuration

end SqlRender
