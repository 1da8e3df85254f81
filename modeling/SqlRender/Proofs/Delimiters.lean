import Mathlib.Logic.Function.Basic
import SqlRender.Text.Quoted

/-!
# Quoted text delimits itself

A quoted text carries its own end. Behind the quote that opens, quotes come in runs. Inside the text
a run is even, as each quote is written twice, and the quote that closes makes the last run odd. So a
reader knows where the text ends, whatever it is made of, if what follows does not lengthen that run.

```text
(nothing)    ──encode──▸   ""
"            ──encode──▸   """"      as two texts of nothing side by side would be
say "hi"     ──encode──▸   "say ""hi"""
```

`Quoted.read?_eq_some_iff` says that reading is the inverse of writing: it accepts what `encode`
writes, in front of a rest that does not start with the quote, and nothing else.
`quoted_texts_delimit_themselves` is what this means for identifiers and for string literals.
-/

namespace SqlRender

namespace Quoted

variable {q : Char} {text content rest : List Char}

/-! ## What is read was written -/

/-- What stands behind an opening quote and can be read is a doubled content, the quote that closes,
and a rest that does not lengthen its run. -/
theorem eq_of_readInside? (h : readInside? q text = some (content, rest)) :
    text = double q content ++ q :: rest ∧ rest.head? ≠ some q := by
  fun_induction readInside? q text generalizing content rest with
  | case1 => cases h
  | case2 =>
    cases h
    exact ⟨rfl, nofun⟩
  | case3 => cases h
  | case4 cs ih =>
    obtain ⟨⟨inner, behind⟩, hread, heq⟩ := Option.map_eq_some_iff.1 h
    cases heq
    obtain ⟨hcs, hrest⟩ := ih hread
    exact ⟨by simp [double, hcs], hrest⟩
  | case5 d cs hd =>
    cases h
    exact ⟨rfl, by simpa using hd⟩
  | case6 c d cs hc ih =>
    obtain ⟨⟨inner, behind⟩, hread, heq⟩ := Option.map_eq_some_iff.1 h
    cases heq
    obtain ⟨hcs, hrest⟩ := ih hread
    exact ⟨by simp [double, hc, hcs], hrest⟩

/-- **Reading is the inverse of writing**: what is read was written, and what was written is read,
up to exactly where it ends. -/
theorem read?_eq_some_iff :
    read? q text = some (content, rest) ↔
      text = encode q content ++ rest ∧ rest.head? ≠ some q := by
  constructor
  · intro h
    cases text with
    | nil => cases h
    | cons c cs =>
      rw [read?] at h
      split at h
      · next hc =>
        obtain ⟨hcs, hrest⟩ := eq_of_readInside? h
        exact ⟨by simp [encode, hc, hcs], hrest⟩
      · cases h
  · rintro ⟨rfl, hrest⟩
    exact read?_encode q content fun c hc hq => hrest (hq ▸ hc)

/-- Texts that are written alike are the same. -/
theorem encode_injective (q : Char) : Function.Injective (encode q) := by
  intro s t h
  have hs : read? q (encode q s) = some (s, []) := read?_eq_some_iff.2 ⟨by simp, nofun⟩
  have ht : read? q (encode q t) = some (t, []) := read?_eq_some_iff.2 ⟨by simp, nofun⟩
  rw [h, ht] at hs
  cases hs
  rfl

end Quoted

/-! ## Identifiers and string literals -/

/-- An identifier in front of a text is read back exactly if the text does not start with its
quote. -/
theorem read?_quoteIdent_iff (q : Char) (name rest : String) :
    Quoted.read? q (quoteIdent q name ++ rest).toList = some (name.toList, rest.toList) ↔
      rest.toList.head? ≠ some q := by
  have htext : (quoteIdent q name ++ rest).toList = Quoted.encode q name.toList ++ rest.toList := by
    simp [quoteIdent]
  rw [htext, Quoted.read?_eq_some_iff]
  exact and_iff_right rfl

theorem quoteIdent_injective (q : Char) : Function.Injective (quoteIdent q) := by
  intro s t h
  have henc : Quoted.encode q s.toList = Quoted.encode q t.toList := String.ofList_injective h
  exact String.toList_injective (Quoted.encode_injective q henc)

/-- **Identifiers and string literals delimit themselves.** In front of any text that does not start
with their quote (and of no other text) they are read back as exactly what was written, up to
exactly where that text starts; and different names and strings are written differently. -/
theorem quoted_texts_delimit_themselves :
    (∀ (q : Char) (name rest : String),
      Quoted.read? q (quoteIdent q name ++ rest).toList = some (name.toList, rest.toList) ↔
        rest.toList.head? ≠ some q) ∧
    (∀ s rest : String,
      Quoted.read? '\'' (quoteString s ++ rest).toList = some (s.toList, rest.toList) ↔
        rest.toList.head? ≠ some '\'') ∧
    (∀ q, Function.Injective (quoteIdent q)) ∧ Function.Injective quoteString := by
  -- A string literal is quoted as an identifier is, between single quotes.
  have hstring : quoteString = quoteIdent '\'' := rfl
  rw [hstring]
  exact ⟨read?_quoteIdent_iff, read?_quoteIdent_iff '\'', quoteIdent_injective,
    quoteIdent_injective '\''⟩

example :
    Quoted.read? '"' (quoteIdent '"' "\"\"" ++ ".x").toList = some (['"', '"'], ['.', 'x']) := by
  decide

end SqlRender
