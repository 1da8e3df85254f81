import SqlRender.Files.Path

/-!
# File systems

What is asked of a file system: whether a path leads to a regular file, and the text of the file at
a path. The answers come in a monad `m`, so that the same code runs on files that are given as data,
by `FileStore.system`, and where each question leaves a trace.
-/

namespace SqlRender

/-- The questions to a file system. -/
structure FileSystem (m : Type → Type) where
  /-- Whether a path leads to a regular file. -/
  isFile : Path → m Bool
  /-- The text of the file at a path, or the reason why it cannot be read. -/
  read : Path → m (Except String String)

/-- Regular files as data: the content of each path that leads to one. -/
abbrev FileStore := Path → Option ByteArray

/-- The file system of some files. All of them can be read, but only UTF-8 is text. -/
def FileStore.system (files : FileStore) : FileSystem Id where
  isFile path := (files path).isSome
  read path :=
    match files path with
    | none => .error "No such file or directory (os error 2)"
    | some content =>
      match String.fromUTF8? content with
      | none => .error "stream did not contain valid UTF-8"
      | some text => .ok text

end SqlRender
