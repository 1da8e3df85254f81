import SqlRender.Files.Path

/-!
# A tree of files

A `FileTree` is a set of directories and regular files by their names from the root, without blanks,
dots or double dots. `FileTree.locate?` follows a path through it: a double dot leads to the
directory above, and each step but the last must lead through a directory that is there.
-/

namespace SqlRender

/-- Directories and regular files, by their names from the root. -/
structure FileTree where
  directories : List (List String) := []
  files : List (List String × ByteArray) := []

namespace FileTree

/-- Whether there is a directory of a name; the root always is. -/
def isDirectory (t : FileTree) (name : List String) : Bool :=
  name.isEmpty || t.directories.contains name

/-- The tree with a directory, and with all directories above it. -/
def addDirectory (t : FileTree) (name : List String) : FileTree :=
  let above := (List.range (name.length + 1)).map name.take
  { t with directories := t.directories ++ above.filter (!t.isDirectory ·) }

/-- The tree with a regular file, and with all directories above it. A file of the same name is
replaced. -/
def addFile (t : FileTree) (name : List String) (content : ByteArray) : FileTree :=
  let t := t.addDirectory name.dropLast
  { t with files := (name, content) :: t.files }

/-- The name that the segments of a path lead to from a directory. -/
def follow? (t : FileTree) (here : List String) : List String → Option (List String)
  | [] => some here
  | s :: rest =>
    if !t.isDirectory here then none
    else if s = "" ∨ s = "." then follow? t here rest
    else if s = ".." then follow? t here.dropLast rest
    else follow? t (here ++ [s]) rest

/-- The name from the root that a path leads to, seen from the current directory. -/
def locate? (t : FileTree) (current : List String) (p : Path) : Option (List String) :=
  t.follow? (if p.rooted then [] else current) p.segments

/-- The content of the regular file at a path, if there is one. -/
def content? (t : FileTree) (current : List String) (p : Path) : Option ByteArray :=
  (t.locate? current p).bind fun name => t.files.lookup name

end FileTree

end SqlRender
