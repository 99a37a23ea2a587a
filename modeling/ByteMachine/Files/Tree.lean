import ByteMachine.Files.Basic
import ByteMachine.Text.Lines

/-!
# File trees

Directories of files held in memory, and the reader that finds a file in them by its path. The place
where a path starts has directories above it, about which nothing is known but that they are there.
-/

namespace ByteMachine

inductive FileTree where
  | file (content : List UInt8)
  | directory (entries : List (String × FileTree))

namespace FileTree

def empty : FileTree := directory []

def entries : FileTree → List (String × FileTree)
  | file _ => []
  | directory entries => entries

def entry? (tree : FileTree) (name : String) : Option FileTree := tree.entries.lookup name

/-- Put a node at the end of a chain of names. Missing directories are made, and a new empty
directory leaves an old one as it is. -/
def insert (leaf : FileTree) : List String → FileTree → FileTree
  | [], tree =>
    match tree, leaf with
    | directory entries, directory [] => directory entries
    | _, leaf => leaf
  | name :: names, tree =>
    let child := insert leaf names ((tree.entry? name).getD empty)
    directory ((name, child) :: tree.entries.filter fun entry => entry.1 ≠ name)

/-- The parts of a path between its slashes. -/
def components (path : String) : List String :=
  (Text.split '/' path.toList).map String.ofList

/-- The directory that holds the given nodes under the given paths. -/
def ofList (files : List (String × FileTree)) : FileTree :=
  files.foldl (fun tree (path, leaf) => insert leaf (components path) tree) empty

/-- The longest name a directory can hold, in bytes. -/
def maxNameLength : Nat := 255

/-- The longest path, in bytes. -/
def maxPathLength : Nat := 4095

/-- A node with the directories above it, innermost first. Above them all is a directory of which no
entry is known. -/
abbrev Place := List FileTree

def node (place : Place) : FileTree := place.headD empty

/-- One component further. Only a directory has components after it, be they empty or a dot. -/
def enter (place : Place) (name : String) : Except ReadError Place :=
  match node place with
  | file _ => throw .notDirectory
  | directory entries =>
    if name = "" ∨ name = "." then return place
    else if name = ".." then return place.tail
    else if maxNameLength < (Text.utf8Encode name).length then throw .nameTooLong
    else match entries.lookup name with
      | some found => return found :: place
      | none => throw .notFound

/-- The place that a path leads to from a directory. A path that starts with a slash leads from the
top. -/
def find (tree : FileTree) (path : String) : Except ReadError Place := do
  if maxPathLength < (Text.utf8Encode path).length then throw .nameTooLong
  match components path with
  | [""] => throw .notFound
  | "" :: names => names.foldlM enter []
  | names => names.foldlM enter [tree]

def reader (tree : FileTree) : FileReader := fun path => do
  match node (← tree.find path) with
  | file content => return content
  | directory _ => throw .isDirectory

end FileTree

end ByteMachine
