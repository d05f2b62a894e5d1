import CaseIntake.Dict
import CaseIntake.Text.Split

/-!
# Files

The files that a command can see, by their paths, and what reading and creating one of them says. A
directory is there if it is named, if a file is in it, or if the command runs in it. Every
directory on the way to a file has to be there.
-/

namespace CaseIntake

inductive FileError where
  | notFound
  | notDirectory
  | isDirectory
deriving DecidableEq

def FileError.message : FileError → String
  | .notFound => "No such file or directory (os error 2)"
  | .notDirectory => "Not a directory (os error 20)"
  | .isDirectory => "Is a directory (os error 21)"

structure Files where
  contents : Dict String
  directories : List String
deriving DecidableEq

namespace Files

/-- The names on a path. An empty name in front stands for the root of all directories; steps that
stay in a directory do not count. -/
def steps (path : String) : List String :=
  let pieces := (Text.splitAt '/' path.toList).map String.ofList
  let names := pieces.filter fun name => name ≠ "" && name ≠ "."
  if path.startsWith "/" then "" :: names else names

def joined (names : List String) : String :=
  String.intercalate "/" names

/-- A path without the steps that stay in a directory. -/
def plainPath (path : String) : String :=
  joined (steps path)

/-- The ways to each of some names in turn. -/
def wayTo : List String → List (List String)
  | [] => []
  | name :: rest => [name] :: (wayTo rest).map (name :: ·)

/-- The directories that a path passes, and last what it leads to. -/
def places (path : String) : List String :=
  (wayTo (steps path)).map joined

def isDirectory (f : Files) (place : String) : Bool :=
  place = "" || f.directories.contains place ||
    f.contents.names.any fun name => name.startsWith (place ++ "/")

/-- What stops the way to a file: a place that is no directory. -/
def obstacle? (f : Files) (path : String) : Option FileError :=
  ((places path).dropLast).findSome? fun place =>
    if f.isDirectory place then none
    else if f.contents.contains place then some .notDirectory
    else some .notFound

/-- Whether the path says that it leads to a directory. -/
def meansDirectory (path : String) : Bool :=
  path.endsWith "/"

def read (f : Files) (path : String) : Except FileError String :=
  match f.obstacle? path with
  | some e => .error e
  | none =>
    if f.isDirectory (plainPath path) then .error .isDirectory
    else
      match f.contents.find? (plainPath path) with
      | none => .error .notFound
      | some text => if meansDirectory path then .error .notDirectory else .ok text

/-- Writes a file, new or over what it held. -/
def write (f : Files) (path text : String) : Except FileError Files :=
  match f.obstacle? path with
  | some e => .error e
  | none =>
    if f.isDirectory (plainPath path) || meansDirectory path then .error .isDirectory
    else .ok { f with contents := f.contents.insert (plainPath path) text }

end Files
end CaseIntake
