/-!
# Paths

A `Path` is the text of a file name cut at its slashes, blank segments and dots included, so that it
is written exactly as it was given. Going up is lexical: `Path.parent?` drops the last segment that
names something and whatever stands behind it that names nothing.

```text
/a//b/.   ──▸   /a   ──▸   /          a/../b   ──▸   a/..   ──▸   a   ──▸   (empty)
```

The root and the empty path have no parent. A dot names something only at the very front of a path
that does not start at the root.
-/

namespace SqlRender

/-- A file name, cut at its slashes. -/
structure Path where
  /-- Whether the path starts at the root. -/
  rooted : Bool := false
  segments : List String := []
deriving DecidableEq, Repr

namespace Path

/-- The path of a text. -/
def ofText (text : String) : Path :=
  match text.toList with
  | [] => {}
  | ['/'] => { rooted := true }
  | '/' :: cs => { rooted := true, segments := (String.ofList cs).splitOn "/" }
  | _ => { segments := text.splitOn "/" }

/-- The text of a path. -/
def text (p : Path) : String :=
  (if p.rooted then "/" else "") ++ "/".intercalate p.segments

/-- The path `q` seen from `p`: a rooted path is itself, and any other is put behind `p` with one
slash between them. -/
def join (p q : Path) : Path :=
  if q.rooted then q
  else if p.segments.getLast? = some "" then
    if q.segments.isEmpty then p else { p with segments := p.segments.dropLast ++ q.segments }
  else if p.segments.isEmpty then { p with segments := q.segments }
  else { p with segments := p.segments ++ (if q.segments.isEmpty then [""] else q.segments) }

/-- The path of a name in a directory. -/
def child (p : Path) (name : String) : Path := p.join { segments := [name] }

/-! ## Going up -/

/-- Whether the last of some segments names nothing: a blank, or a dot that does not stand at the
very front of a path without root. -/
def idleLast (rooted : Bool) (segments : List String) : Bool :=
  match segments.getLast? with
  | none => false
  | some s => s == "" || (s == "." && (rooted || 1 < segments.length))

/-- The segments without those at the end that name nothing. -/
def trimmed (rooted : Bool) (segments : List String) : List String :=
  if idleLast rooted segments then trimmed rooted segments.dropLast else segments
termination_by segments.length
decreasing_by
  rename_i h
  cases segments with
  | nil => simp [idleLast] at h
  | cons s ss => simp

theorem length_trimmed_le (rooted : Bool) (segments : List String) :
    (trimmed rooted segments).length ≤ segments.length := by
  fun_induction trimmed rooted segments with
  | case1 segments _ ih => exact Nat.le_trans ih (by simp)
  | case2 segments _ => exact Nat.le_refl _

/-- The directory that a path stands in, if it does not stand at the top. -/
def parent? (p : Path) : Option Path :=
  match trimmed p.rooted p.segments with
  | [] => none
  | s :: ss => some { p with segments := trimmed p.rooted (s :: ss).dropLast }

/-- A parent is shorter, so going up comes to an end. -/
theorem length_parent? {p q : Path} (h : p.parent? = some q) :
    q.segments.length < p.segments.length := by
  unfold parent? at h
  split at h
  · cases h
  · next s ss hs =>
    cases h
    have h₁ := length_trimmed_le p.rooted p.segments
    have h₂ := length_trimmed_le p.rooted (s :: ss).dropLast
    rw [hs] at h₁
    simp only [List.length_dropLast, List.length_cons] at h₁ h₂ ⊢
    omega

end Path

end SqlRender
