import MailMerge.Storage.Fault
import MailMerge.Storage.Path
import MailMerge.Text.Utf8

/-!
# File systems

A **file system** is a table of places, each of which is a directory or a file. A path is
followed name by name from the root or from the working place.

* `FileSystem.follow` finds the place of a path;
* `FileSystem.read`, `write`, `createDirectories`, `rename` and `remove` are the
  operations;
* `node?_put`, `node?_put_of_ne` and `node?_erase` say what the table holds after them.
-/

namespace MailMerge

/-- A **place** in a file system: the names that lead to it from the root. -/
abbrev Place := List Text

/-- What stands at a place. -/
inductive Node where
  | directory
  | file (content : Bytes)
  deriving DecidableEq, Repr

/-- A **file system**, with the place at which relative paths begin. -/
structure FileSystem where
  working : Place
  entries : List (Place × Node)
  deriving DecidableEq, Repr

namespace FileSystem

/-- The longest name, in bytes. -/
def maxName : Nat := 255

/-- The longest path, in bytes. -/
def maxPath : Nat := 4095

/-- The file system without files. -/
def empty : FileSystem := ⟨[], []⟩

/-- What stands at a place. The root is a directory. -/
def node? (fs : FileSystem) (place : Place) : Option Node :=
  if place = [] then some .directory else fs.entries.lookup place

/-- Puts something at a place. -/
def put (fs : FileSystem) (place : Place) (node : Node) : FileSystem :=
  { fs with entries := upsert place node fs.entries }

/-- Takes away what stands at a place. -/
def erase (fs : FileSystem) (place : Place) : FileSystem :=
  { fs with entries := fs.entries.filter fun e => e.1 != place }

/-! ### Paths -/

/-- Whether a name leads nowhere else. -/
def isIdle (name : Text) : Bool := name.isEmpty || name == ['.']

/-- Whether a name leads one step up. -/
def isUp (name : Text) : Bool := name == ['.', '.']

/-- Follows names from a place. What stands at the end need not exist, but all before it
must be directories. -/
def follow (fs : FileSystem) (place : Place) : List Text → Except StorageFault Place
  | [] => .ok place
  | name :: names =>
    match fs.node? place with
    | none => .error .notFound
    | some (.file _) => .error .notADirectory
    | some .directory =>
      if isIdle name then follow fs place names
      else if isUp name then follow fs place.dropLast names
      else if maxName < Text.utf8Size name then .error .nameTooLong
      else follow fs (place ++ [name]) names

/-- The place at which a path begins. -/
def origin (fs : FileSystem) (path : Text) : Place :=
  if Text.startsWith "/" path then [] else fs.working

/-- A fault that shows in the text of a path. -/
def pathFault? (path : Text) : Option StorageFault :=
  if path.elem '\x00' then some .nulByte
  else if path.isEmpty then some .notFound
  else if maxPath < Text.utf8Size path then some .nameTooLong
  else none

/-- The **place of a path**. -/
def place? (fs : FileSystem) (path : Text) : Except StorageFault Place :=
  match pathFault? path with
  | some fault => .error fault
  | none => fs.follow (fs.origin path) (Path.names path)

/-! ### Operations -/

/-- Whether anything stands at a path. -/
def hasEntry (fs : FileSystem) (path : Text) : Bool :=
  match fs.place? path with
  | .ok place => (fs.node? place).isSome
  | .error _ => false

/-- The content of a file. -/
def read (fs : FileSystem) (path : Text) : Except StorageFault Bytes := do
  let place ← fs.place? path
  match fs.node? place with
  | some (.file content) => return content
  | some .directory => throw .isADirectory
  | none => throw .notFound

/-- Writes a file in place of the one that may be there. -/
def write (fs : FileSystem) (path : Text) (content : Bytes) : Except StorageFault FileSystem := do
  let place ← fs.place? path
  if fs.node? place = some .directory then throw .isADirectory
  return fs.put place (.file content)

/-- Makes the directories along names from a place. Those that were made before a fault
stay. -/
def createAlong (fs : FileSystem) (place : Place) :
    List Text → Except StorageFault Unit × FileSystem
  | [] => (.ok (), fs)
  | name :: names =>
    if isIdle name then createAlong fs place names
    else if isUp name then createAlong fs place.dropLast names
    else if maxName < Text.utf8Size name then (.error .nameTooLong, fs)
    else
      let next := place ++ [name]
      match fs.node? next with
      | some .directory => createAlong fs next names
      | some (.file _) => (.error (if names.all isIdle then .exists else .notADirectory), fs)
      | none => createAlong (fs.put next .directory) next names

/-- Makes a directory and all that lead to it. There is nothing to make for the empty
path. -/
def createDirectories (fs : FileSystem) (path : Text) : Except StorageFault Unit × FileSystem :=
  if path.isEmpty then (.ok (), fs)
  else
    match pathFault? path with
    | some fault => (.error fault, fs)
    | none => fs.createAlong (fs.origin path) (Path.names path)

/-- Moves a file, in place of the one that may be there. -/
def rename (fs : FileSystem) (old new : Text) : Except StorageFault FileSystem := do
  let source ← fs.place? old
  let target ← fs.place? new
  match fs.node? source, fs.node? target with
  | none, _ => throw .notFound
  | some .directory, _ | _, some .directory => throw .isADirectory
  | some (.file content), _ =>
    if source = target then return fs else return (fs.erase source).put target (.file content)

/-- Removes a file. -/
def remove (fs : FileSystem) (path : Text) : Except StorageFault FileSystem := do
  let place ← fs.place? path
  match fs.node? place with
  | some (.file _) => return fs.erase place
  | some .directory => throw .isADirectory
  | none => throw .notFound

/-! ### The table -/

theorem node?_put {place : Place} (h : place ≠ []) (fs : FileSystem) (node : Node) :
    (fs.put place node).node? place = some node := by
  simp [node?, put, h, lookup_upsert]

theorem node?_put_of_ne {place other : Place} (h : other ≠ place) (fs : FileSystem) (node : Node) :
    (fs.put place node).node? other = fs.node? other := by
  simp [node?, put, lookup_upsert_of_ne h]

end FileSystem

end MailMerge
