import StationRelay.Config.Load

/-!
# Trees of files

A tree holds the files and directories below a current directory.  A path is
followed name by name from there; an empty name and a single point stay where
they are, and two points lead to the directory above.  Nothing is known of what
lies outside the tree but that it is directories.
-/

namespace StationRelay

inductive FileNode where
  | file (bytes : Bytes)
  | directory
  deriving DecidableEq

/-- Files and directories by the names on the way to them. -/
structure FileTree where
  nodes : List (List String × FileNode)

namespace FileTree

def names (path : String) : List String :=
  path.splitOn "/"

def ofPaths (nodes : List (String × FileNode)) : FileTree :=
  ⟨nodes.map fun (path, node) => (names path, node)⟩

/-- The node that names lead to; the way to a file is made of directories. -/
def find? (tree : FileTree) (way : List String) : Option FileNode :=
  if way = [] then some .directory
  else
    (tree.nodes.lookup way).or <|
      if tree.nodes.any fun (other, _) => way.isPrefixOf other then some .directory else none

/-- The longest name, in bytes. -/
def maxName : Nat := 255

/-- The longest path, in bytes. -/
def maxPath : Nat := 4095

/-- Where a path has led so far. -/
inductive Place where
  | inside (way : List String)
  /-- So many directories above the current one. -/
  | above (levels : Nat)

def Place.parent : Place → Place
  | .inside [] => .above 1
  | .inside way => .inside way.dropLast
  | .above levels => .above (levels + 1)

def atPlace (tree : FileTree) : Place → FileContent
  | .above _ => .unreadable .isDirectory
  | .inside way =>
    match tree.find? way with
    | some (.file bytes) => .bytes bytes
    | some .directory => .unreadable .isDirectory
    | none => .missing

def follow (tree : FileTree) (place : Place) : List String → FileContent
  | [] => tree.atPlace place
  | name :: rest =>
    match tree.atPlace place with
    | .missing => .missing
    | .bytes _ => .unreadable .notDirectory
    | .unreadable _ =>
      if maxName < name.utf8ByteSize then .unreadable .invalidName
      else if name = "" ∨ name = "." then follow tree place rest
      else if name = ".." then follow tree place.parent rest
      else
        match place with
        | .inside way => follow tree (.inside (way ++ [name])) rest
        | .above _ => .missing

/-- What is found at a path.  No path at all leads nowhere. -/
def read (tree : FileTree) (path : String) : FileContent :=
  if path = "" then .missing
  else if path.contains '\x00' then .unreadable (.other "InvalidInput")
  else if maxPath < path.utf8ByteSize then .unreadable .invalidName
  else
    match names path with
    | "" :: rest =>
      if rest.all fun name => name = "" ∨ name = "." ∨ name = ".." then .unreadable .isDirectory
      else if rest.any fun name => maxName < name.utf8ByteSize then .unreadable .invalidName
      else .missing
    | way => tree.follow (.inside []) way

end FileTree

end StationRelay
