import FluxFront.Text.Slots

/-!
# Files

Reading a file of a directory tree that is held in memory, and the ways in which reading a file
fails.

* **Paths**: a path is walked name by name.  Before each step the place reached so far has to be a
  directory, also if the name is `.` or empty, which stay, or `..`, which goes back.  So a file with
  a slash behind it is no file.
* **Limits**: a name has at most 255 bytes and a path at most 4095.
* **Outside**: around the tree there are directories, in which nothing else is known to be.
-/

namespace FluxFront

/-- Why a file could not be read as text. -/
inductive ReadFailure
  | missing
  /-- A directory where a file should be. -/
  | directory
  /-- A file where a directory should be. -/
  | notDirectory
  | nameTooLong
  | notText
  | other (message : String)
deriving DecidableEq, Repr

/-- The wording of a failure to read. -/
def ReadFailure.message : ReadFailure → String
  | missing => "No such file or directory (os error 2)"
  | directory => "Is a directory (os error 21)"
  | notDirectory => "Not a directory (os error 20)"
  | nameTooLong => "File name too long (os error 36)"
  | notText => "stream did not contain valid UTF-8"
  | other message => message

namespace Files

/-! ## Paths -/

/-- The names in a path, which are empty where slashes stand side by side or at an end. -/
def splitPath : List Char → List (List Char)
  | [] => [[]]
  | c :: rest => if c = '/' then [] :: splitPath rest else Text.consPart c (splitPath rest)

/-- The names in a path. -/
def names (path : String) : List String := (splitPath path.toList).map String.ofList

/-- Whether a name stays in the directory it is looked up in. -/
def stays (name : String) : Bool := name == "" || name == "."

/-- The number of bytes of the longest name. -/
def longestName : Nat := 255

/-- The number of bytes of the longest path. -/
def longestPath : Nat := 4095

/-! ## Trees -/

/-- What stands at a place. -/
inductive Item
  | file (contents : ByteArray)
  | directory

/-- A directory tree: the items in it, each with the names that lead to it. -/
structure Tree where
  items : List (List String × Item)

/-- The tree of items at the given paths. -/
def Tree.ofPaths (items : List (String × Item)) : Tree :=
  ⟨items.map fun (path, item) => ((names path).filter (!stays ·), item)⟩

/-- A place on the way along a path. -/
inductive Place
  | inside (names : List String)
  /-- A directory around the tree. -/
  | outside
deriving DecidableEq, Repr

/-- The directory that a place is in. -/
def Place.parent : Place → Place
  | inside [] => outside
  | inside names => inside names.dropLast
  | outside => outside

namespace Tree

/-- The item that names lead to; what leads on to another item is a directory. -/
def itemAt? (tree : Tree) (names : List String) : Option Item :=
  match tree.items.find? (·.1 == names) with
  | some (_, item) => some item
  | none =>
    if names.isEmpty || tree.items.any (names.isPrefixOf ·.1) then some .directory else none

/-- The item at a place. -/
def item? (tree : Tree) : Place → Option Item
  | .inside names => tree.itemAt? names
  | .outside => some .directory

/-- The place that a name leads to from a directory. -/
def enter (tree : Tree) (place : Place) (name : String) : Except ReadFailure Place :=
  if stays name then .ok place
  else if name = ".." then .ok place.parent
  else if longestName < name.utf8ByteSize then .error .nameTooLong
  else
    match place with
    | .outside => .error .missing
    | .inside names =>
      let next := names ++ [name]
      if (tree.itemAt? next).isSome then .ok (.inside next) else .error .missing

/-- The place that names lead to, one after the other. -/
def follow (tree : Tree) : Place → List String → Except ReadFailure Place
  | place, [] => .ok place
  | place, name :: more =>
    match tree.item? place with
    | some .directory => (tree.enter place name).bind fun next => tree.follow next more
    | _ => .error .notDirectory

/-- The contents of the file that a path leads to from the top of the tree, or from outside if the
path starts with a slash. -/
def read (tree : Tree) (path : String) : Except ReadFailure ByteArray :=
  if path = "" then .error .missing
  else if longestPath < path.utf8ByteSize then .error .nameTooLong
  else
    let start : Place := if path.toList.head? = some '/' then .outside else .inside []
    (tree.follow start (names path)).bind fun place =>
      match tree.item? place with
      | some (.file contents) => .ok contents
      | _ => .error .directory

end Tree

example : splitPath "d/../a/".toList = ["d".toList, "..".toList, "a".toList, []] := by decide
example : Place.parent (.inside ["d", "a"]) = .inside ["d"] := by decide

end Files

end FluxFront
