/-!
# Quoted text

SQL has two quoted forms, identifiers and string literals, and both follow one rule: the text stands
between two quotes, and a quote inside it is written twice. `Quoted.encode` writes this form and
`Quoted.read?` reads it back from the front of a longer text.

```text
we"ird   ──encode──▸   "we""ird"
```

`read?_encode` says that reading gives back exactly the text that was written and stops exactly
behind it, as long as no further quote follows.
-/

namespace SqlRender.Quoted

/-- The text with every quote written twice. -/
def double (q : Char) : List Char → List Char
  | [] => []
  | c :: cs => if c = q then q :: q :: double q cs else c :: double q cs

/-- The text between two quotes, with every quote inside it written twice. -/
def encode (q : Char) (cs : List Char) : List Char :=
  q :: (double q cs ++ [q])

/-- Reads up to the quote that closes, behind the one that opened: two quotes stand for one, and a
quote that no quote follows closes. Answers what was read and what is left. -/
def readInside? (q : Char) : List Char → Option (List Char × List Char)
  | [] => none
  | [c] => if c = q then some ([], []) else none
  | c :: d :: cs =>
    if c = q then
      if d = q then (readInside? q cs).map fun r => (q :: r.1, r.2)
      else some ([], d :: cs)
    else (readInside? q (d :: cs)).map fun r => (c :: r.1, r.2)

/-- Reads one quoted text from the front. -/
def read? (q : Char) : List Char → Option (List Char × List Char)
  | [] => none
  | c :: cs => if c = q then readInside? q cs else none

/-! ## Reading back -/

/-- A character that is no quote is read as itself. -/
theorem readInside?_cons {q c : Char} (h : c ≠ q) (cs : List Char) :
    readInside? q (c :: cs) = (readInside? q cs).map fun r => (c :: r.1, r.2) := by
  cases cs <;> simp [readInside?, h]

/-- Behind a quote that closes, the rest is left as it is. -/
theorem readInside?_close {q : Char} {rest : List Char} (h : ∀ c ∈ rest.head?, c ≠ q) :
    readInside? q (q :: rest) = some ([], rest) := by
  cases rest with
  | nil => simp [readInside?]
  | cons d ds => simp [readInside?, h d (by simp)]

theorem readInside?_double (q : Char) (cs : List Char) {rest : List Char}
    (h : ∀ c ∈ rest.head?, c ≠ q) :
    readInside? q (double q cs ++ q :: rest) = some (cs, rest) := by
  induction cs with
  | nil => exact readInside?_close h
  | cons c cs ih =>
    by_cases hc : c = q
    · subst hc
      simp [double, readInside?, ih]
    · simp [double, hc, readInside?_cons hc, ih]

/-- What was written is read back, and reading stops exactly behind it. -/
theorem read?_encode (q : Char) (cs : List Char) {rest : List Char}
    (h : ∀ c ∈ rest.head?, c ≠ q) : read? q (encode q cs ++ rest) = some (cs, rest) := by
  simp [read?, encode, readInside?_double q cs h]

end SqlRender.Quoted

namespace SqlRender

/-- An identifier between quotes. -/
def quoteIdent (quote : Char) (name : String) : String :=
  String.ofList (Quoted.encode quote name.toList)

/-- A string literal, between single quotes. -/
def quoteString (s : String) : String :=
  String.ofList (Quoted.encode '\'' s.toList)

end SqlRender
