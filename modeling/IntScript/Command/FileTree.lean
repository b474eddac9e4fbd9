/-!
A directory with files in it, as the commands see it.

Paths are resolved component by component from the directory. Only files are listed; a directory
exists because a file lies somewhere below it.
-/

namespace IntScript

inductive ReadError where
  /-- Nothing is there. -/
  | notFound
  /-- A component in front of the last one is a file. -/
  | notDirectory
  /-- There is a directory. -/
  | isDirectory
  /-- The bytes are no text. -/
  | invalidText
  /-- Another reason, in the words of the system. -/
  | other (reason : String)
deriving DecidableEq

namespace ReadError

def message : ReadError → String
  | notFound => "No such file or directory (os error 2)"
  | notDirectory => "Not a directory (os error 20)"
  | isDirectory => "Is a directory (os error 21)"
  | invalidText => "stream did not contain valid UTF-8"
  | other reason => reason

end ReadError

/-- The components of a path, with an empty one for each superfluous slash. -/
def pathComponents (path : String) : List String :=
  path.splitOn "/"

/-- Files by the components of their paths. -/
structure FileTree where
  files : List (List String × ByteArray)

namespace FileTree

def ofFiles (files : List (String × ByteArray)) : FileTree :=
  ⟨files.map (fun (path, content) =>
    ((pathComponents path).filter (fun part => part ≠ "" ∧ part ≠ "."), content))⟩

def content? (tree : FileTree) (place : List String) : Option ByteArray :=
  (tree.files.find? (fun file => file.1 == place)).map (·.2)

def isDirectory (tree : FileTree) (place : List String) : Bool :=
  place.isEmpty || tree.files.any (fun file => place.isPrefixOf file.1 && file.1 != place)

/-- What keeps a path from leading to a file once it has left the tree. Nothing is known of the
outside but the directories one passes without a name, by staying or by going up, where the topmost
directory is above itself. -/
def outside (parts : List String) : ReadError :=
  if parts.all (fun part => part ∈ ["", ".", ".."]) then .isDirectory else .notFound

def resolve (tree : FileTree) (place : List String) : List String → Except ReadError (List String)
  | [] => .ok place
  | part :: parts =>
      if (tree.content? place).isSome then
        .error .notDirectory
      else if part = "" ∨ part = "." then
        tree.resolve place parts
      else if part = ".." then
        if place.isEmpty then
          .error (outside parts)
        else
          tree.resolve place.dropLast parts
      else
        let next := place ++ [part]
        if (tree.content? next).isSome || tree.isDirectory next then
          tree.resolve next parts
        else
          .error .notFound

/-- The text of the file at a path. A path that starts with a slash starts outside the tree. -/
def read (tree : FileTree) (path : String) : Except ReadError String :=
  if path = "" then
    .error .notFound
  else if path.toList.head? = some '/' then
    .error (outside (pathComponents path))
  else
    match tree.resolve [] (pathComponents path) with
    | .error error => .error error
    | .ok place =>
        match tree.content? place with
        | none => .error .isDirectory
        | some bytes =>
            match String.fromUTF8? bytes with
            | some text => .ok text
            | none => .error .invalidText

end FileTree

end IntScript
