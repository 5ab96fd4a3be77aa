/-!
# Files by path

A working directory that is held in memory, and what a path leads to in it. A path is
followed from name to name. Every name but the last has to be that of a directory, and
so has the last one if a slash or a dot comes after it. A path that leads out of the
working directory leads to nothing.
-/

namespace TypeProse.Command

/-- The files of a working directory, each with the names that lead to it. -/
structure Directory where
  files : List (List String × String)
  deriving DecidableEq, Repr

namespace Directory

/-- The names in a path. There is an empty one where a slash has no name beside it. -/
def namesOf (path : String) : List String :=
  path.splitOn "/"

/-- The directory that holds the given files, each named by its path. -/
def ofFiles (files : List (String × String)) : Directory :=
  ⟨files.map fun file => (namesOf file.1, file.2)⟩

/-- The content of the file at a place. -/
def contentAt? (directory : Directory) (place : List String) : Option String :=
  (directory.files.find? fun file => file.1 == place).map Prod.snd

/-- Whether there is a directory at a place, which is so if a file lies below it. -/
def isDirectoryAt (directory : Directory) (place : List String) : Bool :=
  directory.files.any fun file => place.isPrefixOf file.1 && decide (place.length < file.1.length)

/-- The content of the file that the names lead to from a place that is a directory. A dot
stays there, and two dots go up. -/
def follow? (directory : Directory) (place : List String) : List String → Option String
  | [] => none
  | name :: names =>
      if name = "" ∨ name = "." then
        directory.follow? place names
      else if name = ".." then
        if place.isEmpty then none else directory.follow? place.dropLast names
      else
        match directory.contentAt? (place ++ [name]) with
        | some content => if names.isEmpty then some content else none
        | none =>
            if directory.isDirectoryAt (place ++ [name]) then
              directory.follow? (place ++ [name]) names
            else none

/-- The content of the file that a path leads to. A path that begins with a slash does not
begin in the working directory. -/
def file? (directory : Directory) (path : String) : Option String :=
  if path.startsWith "/" then none else directory.follow? [] (namesOf path)

end Directory

end TypeProse.Command
