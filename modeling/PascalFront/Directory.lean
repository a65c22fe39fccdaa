-- Files by name. A directory holds files under paths with slashes; a path that
-- a file continues is itself a directory. Reading gives the text of a file, or
-- the reason why there is none.
import PascalFront.Failure

namespace PascalFront

/-- What reads the text of the file with a name. -/
abbrev FileReader := String → Except ReadError String

/-- The bytes of a file as text. -/
def textOf (bytes : ByteArray) : Except ReadError String :=
  match String.fromUTF8? bytes with
  | some text => .ok text
  | none => .error .notText

/-- Files with the steps of their paths. -/
structure Directory where
  files : List (List String × ByteArray) := []

namespace Directory

/-- The steps of a path. -/
def steps (path : String) : List String := path.splitOn "/"

def ofFiles (files : List (String × ByteArray)) : Directory :=
  ⟨files.map fun (path, bytes) => (steps path, bytes)⟩

/-- The file with these steps, if there is one. -/
def file? (d : Directory) (path : List String) : Option ByteArray :=
  (d.files.find? (·.1 == path)).map (·.2)

/-- Whether a path is a directory: the whole one, or a part of the path of a file. -/
def isDirectory (d : Directory) (path : List String) : Bool :=
  path.isEmpty || d.files.any fun f => path.isPrefixOf f.1 && path != f.1

/-- Whether a step names no file or directory, but says to stay or to go up. -/
def isDots (step : String) : Bool := step = "" || step = "." || step = ".."

/-- Takes steps outside the directory, where nothing is known by name. Without a name they end at
some directory. -/
def followOutside (path : List String) : ReadError :=
  if path.all isDots then .isDirectory else .notFound

/-- Takes the steps of a path from the directory `base` on. An empty step and a single dot stay
where they are. -/
def follow (d : Directory) (base : List String) : List String → Except ReadError ByteArray
  | [] => .error .isDirectory
  | step :: rest =>
    if step = "" ∨ step = "." then follow d base rest
    else if step = ".." then
      if base.isEmpty then .error (followOutside rest) else follow d base.dropLast rest
    else if d.isDirectory (base ++ [step]) then follow d (base ++ [step]) rest
    else
      match d.file? (base ++ [step]), rest with
      | none, _ => .error .notFound
      | some bytes, [] => .ok bytes
      | some _, _ :: _ => .error .notDirectory

/-- Reads a file as text. The empty path leads to nothing, and a path that begins with a slash
leads outside. -/
def read (d : Directory) : FileReader := fun path =>
  match steps path with
  | [] | [""] => .error .notFound
  | "" :: rest => .error (followOutside rest)
  | first :: rest => do textOf (← d.follow [] (first :: rest))

end Directory

end PascalFront
