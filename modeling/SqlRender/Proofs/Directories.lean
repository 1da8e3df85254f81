import Mathlib.Data.List.Induction
import SqlRender.Files.Path

/-!
# The directories of a path

Going up takes the last name away from a path. `Path.directories` counts the other way, from the
root: it follows the path as far as it takes for so many names.

```text
/srv//app/src/   ──parent?──▸   /srv//app   ──parent?──▸   /srv   ──parent?──▸   /
     3 names                        2                        1                   0
```

Both meet the same directories (`Path.directories_eq`). By their names these are the beginnings of
the names of the path (`Path.names_prefix_of_mem_directories`): none is missing, and what stands
before one of them goes deeper (`Path.exists_directories_split`).

All this is about absolute paths, where blanks and dots name nothing.
-/

namespace SqlRender.Path

/-! ## Counting names -/

/-- Whether a segment names a directory or file. Behind the root, blanks and dots do not. -/
def isName (s : String) : Bool := s ≠ "" && s ≠ "."

/-- The names that a path goes through. -/
def names (p : Path) : List String := p.segments.filter isName

/-- The shortest beginning of some segments with `k` names in it. -/
def leading : Nat → List String → List String
  | 0, _ => []
  | _, [] => []
  | k + 1, s :: ss => s :: leading (if isName s then k else k + 1) ss

/-- A path as far as it has to be followed for `k` names. -/
def upTo (p : Path) (k : Nat) : Path := { p with segments := leading k p.segments }

/-- The directories from a path up to the root, the deepest first: the path itself, and then, for
each smaller number of names, the path up to them. -/
def directories (p : Path) : List Path :=
  p :: (List.range p.names.length).reverse.map p.upTo

@[simp] theorem leading_zero (ss : List String) : leading 0 ss = [] := by
  simp [leading]

@[simp] theorem leading_nil (k : Nat) : leading k [] = [] := by
  cases k <;> rfl

theorem filter_leading (k : Nat) (ss : List String) :
    (leading k ss).filter isName = (ss.filter isName).take k := by
  fun_induction leading k ss with
  | case1 ss => rfl
  | case2 k => simp
  | case3 k s ss ih => by_cases h : isName s = true <;> simp_all

/-- Segments behind the first `k` names do not matter to the shortest beginning that has them. -/
theorem leading_append {k : Nat} {ss : List String} (h : k ≤ (ss.filter isName).length)
    (ts : List String) : leading k (ss ++ ts) = leading k ss := by
  fun_induction leading k ss with
  | case1 ss => exact leading_zero _
  | case2 k hk => exact absurd (Nat.le_zero.1 h) hk
  | case3 k s ss ih =>
    have hss : (if isName s then k else k + 1) ≤ (ss.filter isName).length := by
      by_cases hs : isName s = true <;> simp_all
    rw [List.cons_append, leading, ih hss]

/-- Looking for more names than there are before the last segment takes all segments. -/
theorem leading_concat (ss : List String) (s : String) :
    leading ((ss.filter isName).length + 1) (ss ++ [s]) = ss ++ [s] := by
  induction ss with
  | nil => simp [leading]
  | cons t ss ih => by_cases ht : isName t = true <;> simp [leading, ht, ih]

theorem leading_leading {j k : Nat} (h : j ≤ k) (ss : List String) :
    leading j (leading k ss) = leading j ss := by
  fun_induction leading k ss generalizing j with
  | case1 ss => simp [Nat.le_zero.1 h]
  | case2 k => rfl
  | case3 k s ss ih =>
    cases j with
    | zero => simp
    | succ j =>
      rw [leading, leading, ih]
      split <;> omega

theorem names_upTo (p : Path) (k : Nat) : (p.upTo k).names = p.names.take k :=
  filter_leading k p.segments

theorem length_names_upTo {p : Path} {k : Nat} (h : k ≤ p.names.length) :
    (p.upTo k).names.length = k := by
  rw [names_upTo, List.length_take, Nat.min_eq_left h]

theorem upTo_upTo (p : Path) {j k : Nat} (h : j ≤ k) : (p.upTo k).upTo j = p.upTo j :=
  congrArg (Path.mk p.rooted) (leading_leading h p.segments)

theorem leading_prefix (k : Nat) (ss : List String) : leading k ss <+: ss := by
  fun_induction leading k ss with
  | case1 ss => exact List.nil_prefix
  | case2 k => exact List.nil_prefix
  | case3 k s ss ih => exact List.cons_prefix_cons.2 ⟨rfl, ih⟩

/-- The shortest beginning with some names in it ends in a name. -/
theorem exists_leading_eq_concat {k : Nat} {ss : List String} (h : k < (ss.filter isName).length) :
    ∃ front s, isName s = true ∧ leading (k + 1) ss = front ++ [s] := by
  induction ss generalizing k with
  | nil => simp at h
  | cons t ss ih =>
    by_cases ht : isName t = true
    · cases k with
      | zero => exact ⟨[], t, ht, by simp [leading, ht]⟩
      | succ k =>
        obtain ⟨front, s, hs, heq⟩ := ih (k := k) (by simpa [ht] using h)
        exact ⟨t :: front, s, hs, by simp [leading, ht, heq]⟩
    · obtain ⟨front, s, hs, heq⟩ := ih (k := k) (by simpa [ht] using h)
      exact ⟨t :: front, s, hs, by simp [leading, ht, heq]⟩

/-! ## Going up -/

theorem trimmed_concat (ss : List String) (s : String) :
    trimmed true (ss ++ [s]) = if isName s then ss ++ [s] else trimmed true ss := by
  have hidle : idleLast true (ss ++ [s]) = !isName s := by
    rw [idleLast, List.getLast?_concat]
    by_cases h : s = "" <;> by_cases h' : s = "." <;> simp [isName, h, h']
  rw [trimmed, hidle]
  by_cases h : isName s = true <;> simp [h]

/-- Trimming leaves as much as it takes for all names. -/
theorem trimmed_eq_leading (ss : List String) :
    trimmed true ss = leading (ss.filter isName).length ss := by
  induction ss using List.reverseRecOn with
  | nil =>
    rw [trimmed, if_neg (by decide)]
    rfl
  | append_singleton ss s ih =>
    rw [trimmed_concat, List.filter_append]
    by_cases hs : isName s = true
    · simp [hs, leading_concat]
    · simp [hs, ih, leading_append (Nat.le_refl _)]

theorem parent?_of_trimmed {p : Path} {front : List String} {s : String}
    (h : trimmed p.rooted p.segments = front ++ [s]) :
    p.parent? = some { p with segments := trimmed p.rooted front } := by
  rw [parent?]
  split
  · next hnil => simp [hnil] at h
  · next hcons => rw [← hcons, h, List.dropLast_concat]

theorem rooted_of_parent? {p q : Path} (h : p.parent? = some q) : q.rooted = p.rooted := by
  rw [parent?] at h
  split at h
  · cases h
  · cases h
    rfl

/-- The root has no parent, however it is written. -/
theorem parent?_eq_none {p : Path} (hroot : p.rooted = true) (h : p.names.length = 0) :
    p.parent? = none := by
  have htop : trimmed p.rooted p.segments = [] := by
    rw [hroot, trimmed_eq_leading, ← names, h, leading_zero]
  rw [parent?, htop]

/-- Going up takes the last name away. -/
theorem parent?_eq_some {p : Path} {k : Nat} (hroot : p.rooted = true)
    (h : p.names.length = k + 1) :
    p.parent? = some (p.upTo k) := by
  have hk : k < p.names.length := by omega
  obtain ⟨front, s, hs, hfront⟩ := exists_leading_eq_concat hk
  have htrimmed : trimmed p.rooted p.segments = front ++ [s] := by
    rw [hroot, trimmed_eq_leading, ← names, h, hfront]
  have hcount : (front.filter isName).length = k := by
    have hlength := congrArg List.length (filter_leading (k + 1) p.segments)
    rw [hfront, ← names] at hlength
    simpa [hs, h] using hlength
  have habove : trimmed p.rooted front = leading k p.segments := by
    calc trimmed p.rooted front
      _ = leading k front := by rw [hroot, trimmed_eq_leading, hcount]
      _ = leading k (front ++ [s]) := (leading_append (Nat.le_of_eq hcount.symm) [s]).symm
      _ = leading k (leading (k + 1) p.segments) := by rw [hfront]
      _ = leading k p.segments := leading_leading (Nat.le_succ k) p.segments
  rw [parent?_of_trimmed htrimmed, habove, upTo]

/-- **Counting from the root and going up meet the same directories.** -/
theorem directories_eq {p : Path} (h : p.rooted = true) :
    p.directories = p :: p.parent?.elim [] directories := by
  cases hn : p.names.length with
  | zero => simp [parent?_eq_none h hn, directories, hn]
  | succ k =>
    have hk : (p.upTo k).names.length = k := length_names_upTo (by omega)
    have hfurther :
        (List.range k).reverse.map p.upTo = (List.range k).reverse.map (p.upTo k).upTo := by
      refine List.map_congr_left fun j hj => ?_
      have hjk : j < k := List.mem_range.1 (List.mem_reverse.1 hj)
      exact (p.upTo_upTo (Nat.le_of_lt hjk)).symm
    rw [parent?_eq_some h hn, Option.elim_some, directories, directories, hk, hn, List.range_succ,
      List.reverse_concat, List.map_cons, hfurther]

/-- A directory of a path is a beginning of it. -/
theorem of_mem_directories {p d : Path} (h : d ∈ p.directories) :
    d.rooted = p.rooted ∧ d.segments <+: p.segments := by
  rcases List.mem_cons.1 h with rfl | h
  · exact ⟨rfl, List.prefix_refl _⟩
  · obtain ⟨k, -, rfl⟩ := List.mem_map.1 h
    exact ⟨rfl, leading_prefix k p.segments⟩

theorem names_prefix_of_mem_directories {p d : Path} (h : d ∈ p.directories) :
    d.names <+: p.names :=
  (of_mem_directories h).2.filter isName

/-- Every beginning of the names of a path is the names of one of its directories, and those before
it are deeper. -/
theorem exists_directories_split {p : Path} (h : p.rooted = true) {above : List String}
    (habove : above <+: p.names) :
    ∃ nearer d farther, p.directories = nearer ++ d :: farther ∧ d.names = above ∧
      ∀ c ∈ nearer, above <+: c.names ∧ c.names ≠ above := by
  induction hn : p.names.length generalizing p with
  | zero =>
    have hnil : p.names = [] := List.length_eq_zero_iff.1 hn
    rw [hnil] at habove
    refine ⟨[], p, [], by simp [directories, hn], ?_, nofun⟩
    rw [hnil, List.prefix_nil.1 habove]
  | succ k ih =>
    rw [directories_eq h, parent?_eq_some h hn, Option.elim_some]
    by_cases heq : p.names = above
    · exact ⟨[], p, _, rfl, heq, nofun⟩
    · have hlt : above.length < p.names.length :=
        Nat.lt_of_le_of_ne habove.length_le fun hl => heq (habove.eq_of_length hl).symm
      have hprefix : above <+: (p.upTo k).names := by
        rw [names_upTo]
        exact List.prefix_take_iff.2 ⟨habove, by omega⟩
      have hroot : (p.upTo k).rooted = true := h
      obtain ⟨nearer, d, farther, hsplit, hd, hnearer⟩ :=
        ih hroot hprefix (length_names_upTo (by omega))
      refine ⟨p :: nearer, d, farther, by rw [hsplit]; rfl, hd, ?_⟩
      rw [List.forall_mem_cons]
      exact ⟨⟨habove, heq⟩, hnearer⟩

end SqlRender.Path
