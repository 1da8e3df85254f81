import Mathlib.Data.List.Chain
import SqlRender.Output

/-!
# Reading text from the left

A backend that reads SQL text from the left knows two quoted forms. Outside of them every character
stands for itself; a quote opens a form, which ends at the first quote of its kind that is not
doubled. `lex` is such a reader: it answers the `Stretch`es of the text, or nothing if the text ends
inside a quoted form.

```text
"a" = 'it''s'   ──lex──▸   ident a · code ' ' · code '=' · code ' ' · string it's
```

A text of tokens is read back as these tokens (`lex_tokens`) if its plain texts hold no quotes and
are not empty, and no two quoted tokens stand side by side, where their quotes would fuse.
-/

namespace SqlRender

/-- What a reader finds: a character outside of quotes, or the content of a quoted form. -/
inductive Stretch where
  | code (c : Char)
  | ident (name : String)
  | string (s : String)
deriving DecidableEq, Repr

/-! ## The reader -/

theorem Quoted.length_of_readInside? {q : Char} {cs content rest : List Char}
    (h : readInside? q cs = some (content, rest)) : rest.length < cs.length := by
  fun_induction readInside? q cs generalizing content rest <;>
    grind [Option.map_eq_some_iff]

/-- Reads text from the left, where `q` is the quote of identifiers. -/
def lex (q : Char) : List Char → Option (List Stretch)
  | [] => some []
  | c :: cs =>
    if c = '\'' then
      match _h : Quoted.readInside? '\'' cs with
      | none => none
      | some (content, rest) => (lex q rest).map (.string (String.ofList content) :: ·)
    else if c = q then
      match _h : Quoted.readInside? q cs with
      | none => none
      | some (content, rest) => (lex q rest).map (.ident (String.ofList content) :: ·)
    else (lex q cs).map (.code c :: ·)
termination_by cs => cs.length
decreasing_by
  all_goals
    have := @Quoted.length_of_readInside?
    simp only [List.length_cons]
    grind

section

variable {q : Char} {cs rest : List Char}

theorem lex_nil : lex q [] = some [] := by
  rw [lex]

/-- A character that opens nothing stands for itself. -/
theorem lex_code {c : Char} (hstring : c ≠ '\'') (hident : c ≠ q) :
    lex q (c :: rest) = (lex q rest).map (.code c :: ·) := by
  rw [lex, if_neg hstring, if_neg hident]

theorem lex_string (hrest : ∀ c ∈ rest.head?, c ≠ '\'') :
    lex q (Quoted.encode '\'' cs ++ rest) =
      (lex q rest).map (.string (String.ofList cs) :: ·) := by
  have hread : Quoted.readInside? '\'' (Quoted.double '\'' cs ++ (['\''] ++ rest)) = some (cs, rest) :=
    Quoted.readInside?_double '\'' cs hrest
  show lex q ('\'' :: (Quoted.double '\'' cs ++ ['\'']  ++ rest)) = _
  rw [lex, if_pos rfl, List.append_assoc]
  split
  · next h => rw [hread] at h; cases h
  · next h => rw [hread] at h; cases h; rfl

theorem lex_ident (hq : q ≠ '\'') (hrest : ∀ c ∈ rest.head?, c ≠ q) :
    lex q (Quoted.encode q cs ++ rest) =
      (lex q rest).map (.ident (String.ofList cs) :: ·) := by
  have hread : Quoted.readInside? q (Quoted.double q cs ++ ([q] ++ rest)) = some (cs, rest) :=
    Quoted.readInside?_double q cs hrest
  show lex q (q :: (Quoted.double q cs ++ [q] ++ rest)) = _
  rw [lex, if_neg hq, if_pos rfl, List.append_assoc]
  split
  · next h => rw [hread] at h; cases h
  · next h => rw [hread] at h; cases h; rfl

end

/-! ## Texts without quotes -/

/-- Whether a character opens a quoted form in some dialect. -/
def isQuote (c : Char) : Bool := c = '\'' || c = '"' || c = '\x60'

/-- Whether a text is not empty and holds no quotes. -/
def isClear (s : String) : Bool := !s.toList.isEmpty && s.toList.all fun c => !isQuote c

/-- Whether a token is written between quotes. -/
def Token.isQuoted : Token → Bool
  | .ident _ | .string _ => true
  | .plain _ | .keyword _ => false

/-- Whether a token is quoted, or else clear. -/
def Token.isClear : Token → Bool
  | .plain s | .keyword s => SqlRender.isClear s
  | .ident _ | .string _ => true

/-- The stretches of a token. -/
def Token.stretches (s : Settings) : Token → List Stretch
  | .ident name => [.ident name]
  | .string t => [.string t]
  | t => (t.text s).toList.map .code

theorem isClear_iff {s : String} :
    isClear s = true ↔ s.toList ≠ [] ∧ ∀ c ∈ s.toList, isQuote c = false := by
  simp [isClear]

theorem isQuote_toLower {c : Char} (h : isQuote c = false) : isQuote c.toLower = false := by
  unfold Char.toLower
  split
  · -- a letter becomes a letter
    simp only [isQuote, Char.ext_iff, Bool.or_eq_false_iff, decide_eq_false_iff_not]
    grind
  · exact h

theorem Settings.isClear_keyword (s : Settings) {word : String} (h : isClear word = true) :
    isClear (s.keyword word) = true := by
  unfold Settings.keyword
  split
  · exact h
  · rw [isClear_iff] at h ⊢
    obtain ⟨hne, hclear⟩ := h
    rw [String.toList_map]
    refine ⟨by simpa using hne, fun c hc => ?_⟩
    obtain ⟨c', hc', rfl⟩ := List.mem_map.1 hc
    exact isQuote_toLower (hclear c' hc')

/-! ### Numbers -/

theorem isQuote_of_isDigit {c : Char} (h : c.isDigit = true) : isQuote c = false := by
  simp only [isQuote, Char.ext_iff, Bool.or_eq_false_iff, decide_eq_false_iff_not]
  grind [Char.isDigit]

theorem isQuote_of_mem_toDigits {n : Nat} {c : Char} (h : c ∈ Nat.toDigits 10 n) :
    isQuote c = false :=
  isQuote_of_isDigit (Nat.isDigit_of_mem_toDigits (by decide) (by decide) h)

theorem isClear_append {s t : String} (hs : isClear s = true) (ht : isClear t = true) :
    isClear (s ++ t) = true := by
  obtain ⟨-, hs⟩ := isClear_iff.1 hs
  obtain ⟨hne, ht⟩ := isClear_iff.1 ht
  rw [isClear_iff, String.toList_append]
  refine ⟨List.append_ne_nil_of_right_ne_nil _ hne, fun c hc => ?_⟩
  rcases List.mem_append.1 hc with hc | hc
  · exact hs c hc
  · exact ht c hc

theorem isClear_nat (n : Nat) : isClear (toString n) = true := by
  rw [isClear_iff, Nat.toString_eq_ofList_toDigits, String.toList_ofList]
  exact ⟨Nat.toDigits_ne_nil, fun c hc => isQuote_of_mem_toDigits hc⟩

theorem isClear_int (n : Int) : isClear (toString n) = true := by
  cases n with
  | ofNat n => exact isClear_nat n
  | negSucc n => exact isClear_append (by decide) (isClear_nat (n + 1))

theorem isClear_positional (d : Nat) (p : Int) : isClear (positional d p) = true := by
  rw [isClear_iff]
  unfold positional
  dsimp only
  split
  · rw [String.toList_ofList]
    refine ⟨by simp [Nat.toDigits_ne_nil], fun c hc => ?_⟩
    rcases List.mem_append.1 hc with hc | hc
    · exact isQuote_of_mem_toDigits hc
    · rw [List.eq_of_mem_replicate hc]
      rfl
  · rw [String.toList_ofList]
    refine ⟨by simp, fun c hc => ?_⟩
    -- digits, zeros before them, and a point
    have hpadded : ∀ c ∈ List.replicate ((-p).toNat + 1 - (Nat.toDigits 10 d).length) '0' ++
        Nat.toDigits 10 d, isQuote c = false := by
      intro c hc
      rcases List.mem_append.1 hc with hc | hc
      · rw [List.eq_of_mem_replicate hc]
        rfl
      · exact isQuote_of_mem_toDigits hc
    rcases List.mem_append.1 hc with hc | hc
    · exact hpadded c (List.mem_of_mem_take hc)
    · rcases List.mem_cons.1 hc with rfl | hc
      · rfl
      · exact hpadded c (List.mem_of_mem_drop hc)

theorem Double.isClear_text (x : Double) : isClear x.text = true := by
  have hbody : isClear (if (!x.isFinite) = true then "inf" else if x.isZero = true then "0"
      else positional x.shortest.1 x.shortest.2) = true := by
    split
    · decide
    · split
      · decide
      · exact isClear_positional _ _
  unfold Double.text
  split
  · decide
  · dsimp only
    split
    · exact isClear_append (by decide) hbody
    · exact hbody

theorem Capabilities.isClear_placeholder (caps : Capabilities) (slot : Nat) :
    isClear (caps.placeholder slot) = true := by
  unfold Capabilities.placeholder
  split
  · exact isClear_append (by decide) (isClear_nat slot)
  · decide

/-! ## Reading tokens back -/

/-- No two quoted tokens stand side by side, and the others are clear. -/
structure Separable (ts : List Token) : Prop where
  clear : ∀ t ∈ ts, t.isClear = true
  apart : ts.IsChain fun t u => t.isQuoted = false ∨ u.isQuoted = false

namespace Separable

variable {t : Token} {ts us : List Token}

theorem nil : Separable [] := ⟨by simp, List.isChain_nil⟩

theorem singleton (h : t.isClear = true) : Separable [t] :=
  ⟨by simpa using h, List.isChain_singleton t⟩

theorem tail (h : Separable (t :: ts)) : Separable ts :=
  ⟨fun u hu => h.clear u (List.mem_cons_of_mem _ hu), h.apart.tail⟩

theorem append (hts : Separable ts) (hus : Separable us)
    (hled : ∀ u ∈ us.head?, u.isQuoted = false) : Separable (ts ++ us) where
  clear := by
    intro t ht
    rcases List.mem_append.1 ht with ht | ht
    · exact hts.clear t ht
    · exact hus.clear t ht
  apart := List.isChain_append.2 ⟨hts.apart, hus.apart, fun _ _ u hu => .inr (hled u hu)⟩

theorem cons (ht : t.isClear = true) (hquoted : t.isQuoted = false) (hts : Separable ts) :
    Separable (t :: ts) where
  clear := by
    intro u hu
    rcases List.mem_cons.1 hu with rfl | hu
    · exact ht
    · exact hts.clear u hu
  apart := List.isChain_cons.2 ⟨fun _ _ => .inl hquoted, hts.apart⟩

end Separable

theorem Token.isClear_text {s : Settings} {t : Token} (hclear : t.isClear = true)
    (hquoted : t.isQuoted = false) : SqlRender.isClear (t.text s) = true := by
  cases t with
  | plain text => exact hclear
  | keyword word => exact s.isClear_keyword hclear
  | ident | string => cases hquoted

/-- Behind a quoted token the text goes on with no quote, if it goes on. -/
theorem Separable.head?_of_cons (s : Settings) {t : Token} {ts : List Token}
    (hquoted : t.isQuoted = true) (h : Separable (t :: ts)) :
    ∀ c ∈ (String.join (ts.map (Token.text s))).toList.head?, isQuote c = false := by
  cases ts with
  | nil => simp
  | cons u ts =>
    have hu : u.isQuoted = false := by
      rcases (List.isChain_cons_cons.1 h.apart).1 with ht | hu
      · rw [ht] at hquoted; cases hquoted
      · exact hu
    have hclear : SqlRender.isClear (u.text s) = true :=
      Token.isClear_text (h.tail.clear u List.mem_cons_self) hu
    obtain ⟨hne, hall⟩ := isClear_iff.1 hclear
    obtain ⟨c, cs, hcs⟩ := List.exists_cons_of_ne_nil hne
    rw [List.map_cons, String.join_cons, String.toList_append, hcs]
    intro c' hc'
    cases hc'
    exact hall _ (by simp [hcs])

theorem lex_append_code {q : Char} (hq : isQuote q = true) {cs rest : List Char}
    (h : ∀ c ∈ cs, isQuote c = false) :
    lex q (cs ++ rest) = (lex q rest).map (cs.map .code ++ ·) := by
  induction cs with
  | nil => simp
  | cons c cs ih =>
    have hc : isQuote c = false := h c List.mem_cons_self
    have hstring : c ≠ '\'' := fun e => by rw [e] at hc; cases hc
    have hident : c ≠ q := fun e => by rw [e, hq] at hc; cases hc
    rw [List.cons_append, lex_code hstring hident, ih fun c' hc' => h c' (List.mem_cons_of_mem _ hc')]
    simp [Function.comp_def]

/-- The quote of identifiers is a quote, and not that of strings. -/
theorem Settings.identifierQuote_cases (s : Settings) :
    isQuote s.capabilities.identifierQuote = true ∧ s.capabilities.identifierQuote ≠ '\'' := by
  unfold Settings.capabilities
  cases s.dialect <;> decide

/-- **Tokens are read back** from their text, if no two quoted ones stand side by side and the others
are clear. -/
theorem lex_tokens {s : Settings} (hs : s.quoting = .quoted) {ts : List Token}
    (h : Separable ts) :
    lex s.capabilities.identifierQuote (String.join (ts.map (Token.text s))).toList =
      some (ts.flatMap (Token.stretches s)) := by
  obtain ⟨hquote, hne⟩ := s.identifierQuote_cases
  induction ts with
  | nil => exact lex_nil
  | cons t ts ih =>
    have hrest := ih h.tail
    have hhead : t.isQuoted = true →
        ∀ c ∈ (String.join (ts.map (Token.text s))).toList.head?, isQuote c = false :=
      fun hquoted => h.head?_of_cons s hquoted
    rw [List.map_cons, String.join_cons, String.toList_append, List.flatMap_cons]
    cases t with
    | plain text =>
      obtain ⟨-, hall⟩ := isClear_iff.1 (h.clear (.plain text) List.mem_cons_self)
      rw [Token.text, lex_append_code hquote hall, hrest]
      rfl
    | keyword word =>
      obtain ⟨-, hall⟩ := isClear_iff.1
        (s.isClear_keyword (h.clear (.keyword word) List.mem_cons_self))
      rw [Token.text, lex_append_code hquote hall, hrest]
      rfl
    | ident name =>
      -- a quoted form is closed where no further quote follows, hence the neighbour must be clear
      rw [Token.text, hs]
      dsimp only
      rw [quoteIdent, String.toList_ofList, lex_ident hne, hrest]
      · simp [Token.stretches]
      · rintro c hc rfl
        rw [hhead rfl _ hc] at hquote
        cases hquote
    | string text =>
      rw [Token.text, quoteString, String.toList_ofList, lex_string, hrest]
      · simp [Token.stretches]
      · rintro c hc rfl
        have := hhead rfl _ hc
        cases this

end SqlRender
