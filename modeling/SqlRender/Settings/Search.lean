import SqlRender.Files.System
import SqlRender.Settings.Document

/-!
# Finding the settings file

The settings of a directory are in the file `clausal.json` of that directory or, if it has none, of
the nearest directory above it. What cannot be read or understood there is an error; the search does
not go on to a file further up.
-/

namespace SqlRender

/-- A file that cannot be read. -/
structure ReadFailure where
  path : Path
  /-- What the file system says about it. -/
  reason : String
deriving DecidableEq, Repr

/-- Why no settings were loaded. -/
inductive LoadError where
  /-- No directory from `start` upwards has a settings file. -/
  | notFound (start : Path)
  /-- The text of the file cannot be had. -/
  | unreadable (failure : ReadFailure)
  /-- The text is no settings document. -/
  | malformed
deriving DecidableEq, Repr

namespace Settings

/-- The name of a settings file. -/
def fileName : String := "clausal.json"

/-- The place of the settings file of a directory. -/
def fileIn (directory : Path) : Path := directory.child fileName

section

variable {m : Type → Type} [Monad m] (fs : FileSystem m)

/-- The nearest settings file from a directory upwards. -/
def nearest? (start : Path) : m (Option Path) := do
  if ← fs.isFile (fileIn start) then
    return some (fileIn start)
  else
    match _h : start.parent? with
    | none => return none
    | some above => nearest? above
termination_by start.segments.length
decreasing_by exact Path.length_parent? _h

variable (parse : String → Option Settings)

/-- The settings in a file, with its path. Which settings a text stands for is given. -/
def ofFile (path : Path) : m (Except LoadError (Settings × Path)) := do
  match ← fs.read path with
  | .error reason => return .error (.unreadable { path, reason })
  | .ok text =>
    match parse text with
    | none => return .error .malformed
    | some s => return .ok (s, path)

/-- Loads the settings of a directory, with the path of the file they came from. -/
def loadFrom (start : Path) : m (Except LoadError (Settings × Path)) := do
  match ← nearest? fs start with
  | none => return .error (.notFound start)
  | some path => ofFile fs parse path

end

/-- Loads the settings of a directory from some files. -/
def load (files : FileStore) (start : Path) : Except LoadError (Settings × Path) :=
  (loadFrom files.system ofText? start).run

end Settings

/-- The error in words. -/
def LoadError.message : LoadError → String
  | notFound start => "no " ++ Settings.fileName ++ " found in " ++ start.text ++ " or any parent"
  | unreadable failure => "failed to read " ++ failure.path.text ++ ": " ++ failure.reason
  | malformed => "failed to parse settings"

end SqlRender
