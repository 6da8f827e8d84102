/-!
# Files

What a program finds when it opens a path, and a tree of files in which paths are followed step by
step.
-/

namespace CrateDocs

inductive ReadProblem
  | missing
  /-- Something on the way is not a directory. -/
  | blocked
  | directory
  /-- The path, or a name on it, has too many bytes. -/
  | nameTooLong
  | other (message : String)
deriving DecidableEq

def ReadProblem.message : ReadProblem → String
  | .missing => "No such file or directory (os error 2)"
  | .blocked => "Not a directory (os error 20)"
  | .directory => "Is a directory (os error 21)"
  | .nameTooLong => "File name too long (os error 36)"
  | .other message => message

inductive FileState
  | unreachable (problem : ReadProblem)
  /-- A directory, whose own size is given in bytes. -/
  | directory (size : Nat)
  | file (content : ByteArray)

/-- What is found under each path. -/
abbrev Files : Type := String → FileState

namespace FileState

def size : FileState → Except ReadProblem Nat
  | .unreachable problem => .error problem
  | .directory size => .ok size
  | .file content => .ok content.size

def read : FileState → Except ReadProblem ByteArray
  | .unreachable problem => .error problem
  | .directory _ => .error .directory
  | .file content => .ok content

end FileState

def maxNameSize : Nat := 255

def maxPathSize : Nat := 4095

/-- The size of a directory that does not hold many entries. -/
def directorySize : Nat := 4096

/-- A tree of files. A path that does not start at the top starts in the working directory. -/
structure FileTree where
  /-- The names that lead from the top to the working directory. -/
  workingDirectory : List String
  /-- What the tree holds, by the names that lead there from the top. An entry without content is
  a directory, and whatever leads to an entry is one too. -/
  entries : List (List String × Option ByteArray)

namespace FileTree

/-- What is found under the given names from the top. -/
def find (tree : FileTree) (names : List String) : FileState :=
  match tree.entries.lookup names with
  | some (some content) => .file content
  | some none => .directory directorySize
  | none =>
    if names.isPrefixOf tree.workingDirectory ||
        tree.entries.any fun (entry, _) => names.isPrefixOf entry then
      .directory directorySize
    else
      .unreachable .missing

/-- What is found after the given steps from a directory. An empty step and a dot stay in a
directory, and two dots lead to the one that encloses it; nothing encloses the top. -/
def follow (tree : FileTree) (directory : List String) : List String → FileState
  | [] => .directory directorySize
  | step :: steps =>
    if step = "" ∨ step = "." then tree.follow directory steps
    else if step = ".." then tree.follow directory.dropLast steps
    else if step.utf8ByteSize > maxNameSize then .unreachable .nameTooLong
    else
      match tree.find (directory ++ [step]) with
      | .directory _ => tree.follow (directory ++ [step]) steps
      | .file content => if steps.isEmpty then .file content else .unreachable .blocked
      | .unreachable problem => .unreachable problem

def files (tree : FileTree) : Files := fun path =>
  if path.isEmpty then .unreachable .missing
  else if path.utf8ByteSize > maxPathSize then .unreachable .nameTooLong
  else tree.follow (if path.startsWith "/" then [] else tree.workingDirectory) (path.splitOn "/")

end FileTree

end CrateDocs
