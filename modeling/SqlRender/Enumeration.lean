/-!
# Enumerations written as words

Dialects, clauses and settings are finite types, and each of their values has one word by which it
is written in settings files and in debugging text. `Enumeration.read?` reads a word back; it
knows exactly the words of the listed values, letter case included.
-/

namespace SqlRender

/-- A finite type whose values are written as single words. -/
class Enumeration (α : Type) where
  /-- The values, in the order in which they are listed to a reader. -/
  values : List α
  /-- The word that stands for a value. -/
  word : α → String

namespace Enumeration

variable {α : Type} [Enumeration α]

/-- The value that a word stands for, if it stands for one. -/
def read? (w : String) : Option α :=
  (values : List α).find? fun a => word a == w

/-- What is read was written: a word that is read is the word of the value it is read as. -/
theorem word_of_read? {w : String} {a : α} (h : read? w = some a) : word a = w := by
  simpa using List.find?_some h

/-- A listed value is read back from its word, if no other listed value shares the word. -/
theorem read?_word {a : α} (ha : a ∈ (values : List α))
    (hinj : ∀ b ∈ (values : List α), word b = word a → b = a) : read? (word a) = some a := by
  cases h : (read? (word a) : Option α) with
  | none =>
    have := List.find?_eq_none.1 h a ha
    simp at this
  | some b =>
    have hb : b ∈ (values : List α) := List.mem_of_find?_eq_some h
    rw [hinj b hb (word_of_read? h)]

end Enumeration

end SqlRender
