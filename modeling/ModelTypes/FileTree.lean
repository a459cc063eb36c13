import ModelTypes.Path
import Std.Data.ExtTreeMap

/-!
# File trees

A file tree says what stands at each location. Paths lead from a directory to a location: empty
components and `.` stay where they are, `..` goes up, and whatever is passed on the way must be a
directory.
-/

namespace ModelTypes

inductive FileError where
  | notFound
  | notADirectory
  | isADirectory
  | alreadyExists
  | notText
  /-- The path holds a NUL character. -/
  | badPath
  | nameTooLong
  | other
  deriving DecidableEq, Repr

/-- The names from the root down. -/
abbrev Location := List String

inductive Contents where
  | text (s : String)
  /-- Bytes that are not the UTF-8 form of a text. -/
  | binary (bytes : List UInt8)
  deriving DecidableEq

def Contents.ofBytes (bytes : List UInt8) : Contents :=
  match String.fromUTF8? ⟨bytes.toArray⟩ with
  | some s => .text s
  | none => .binary bytes

namespace FileTree

inductive Node where
  | directory
  | file (contents : Contents)
  deriving DecidableEq

end FileTree

structure FileTree where
  entries : Std.ExtTreeMap Location FileTree.Node
  deriving DecidableEq

namespace FileTree

def empty : FileTree :=
  ⟨(∅ : Std.ExtTreeMap Location FileTree.Node).insert [] .directory⟩

instance : EmptyCollection FileTree := ⟨empty⟩

def node? (t : FileTree) (location : Location) : Option FileTree.Node :=
  t.entries[location]?

def insert (t : FileTree) (location : Location) (node : FileTree.Node) : FileTree :=
  ⟨t.entries.insert location node⟩

@[ext]
theorem ext_node? {t u : FileTree} (h : ∀ l, t.node? l = u.node? l) : t = u := by
  cases t; cases u
  congr
  exact Std.ExtTreeMap.ext_getElem? h

@[simp]
theorem node?_insert {t : FileTree} {location l : Location} {node : FileTree.Node} :
    (t.insert location node).node? l = if location = l then some node else t.node? l := by
  simp [node?, insert, Std.ExtTreeMap.getElem?_insert]

/-! ## Paths -/

def maxNameBytes : Nat := 255

def maxPathBytes : Nat := 4095

def step (t : FileTree) (here : Location) (name : String) : Except FileError Location :=
  match t.node? here with
  | none => .error .notFound
  | some (.file _) => .error .notADirectory
  | some .directory =>
    if name = "" ∨ name = "." then .ok here
    else if name = ".." then .ok here.dropLast
    else if maxNameBytes < name.utf8ByteSize then .error .nameTooLong
    else .ok (here ++ [name])

/-- Whether a path ends in a slash, so that it can only mean a directory. -/
def endsInSlash (path : Path) : Bool :=
  path.toList.getLast? == some '/'

/-- The names in a path, without the empty ones at its end. -/
def names (path : Path) : List String :=
  let pieces := (Path.pieces path.toList).map String.ofList
  (pieces.reverse.dropWhile (· = "")).reverse

/-- The location that a path leads to from a directory. Nothing need stand there. -/
def locate (t : FileTree) (base : Location) (path : Path) : Except FileError Location :=
  if path.toList.contains '\x00' then .error .badPath
  else if path = "" then .error .notFound
  else if maxPathBytes < path.utf8ByteSize then .error .nameTooLong
  else (names path).foldlM t.step (if Path.isAbsolute path then [] else base)

def find (t : FileTree) (base : Location) (path : Path) : Except FileError FileTree.Node := do
  match t.node? (← t.locate base path) with
  | none => .error .notFound
  | some .directory => .ok .directory
  | some (.file c) => if endsInSlash path then .error .notADirectory else .ok (.file c)

def isFile (t : FileTree) (base : Location) (path : Path) : Bool :=
  match t.find base path with
  | .ok (.file _) => true
  | _ => false

def isDirectory (t : FileTree) (base : Location) (path : Path) : Bool :=
  match t.find base path with
  | .ok .directory => true
  | _ => false

/-! ## Operations -/

def read (t : FileTree) (base : Location) (path : Path) : Except FileError String := do
  match ← t.find base path with
  | .directory => .error .isADirectory
  | .file (.binary _) => .error .notText
  | .file (.text s) => .ok s

/-- Puts contents into a file, which is created if need be; its directory must exist. -/
def write (t : FileTree) (base : Location) (path : Path) (contents : Contents) :
    Except FileError FileTree := do
  let location ← t.locate base path
  if endsInSlash path ∨ t.node? location = some .directory then .error .isADirectory
  else .ok (t.insert location (.file contents))

def createDirectory (t : FileTree) (base : Location) (path : Path) : Except FileError FileTree := do
  let location ← t.locate base path
  match t.node? location with
  | some _ => .error .alreadyExists
  | none => .ok (t.insert location .directory)

/-- Creates the first of some paths, each the parent of the one before, and those of the others that
are needed for it. -/
def createFrom (base : Location) : List Path → FileTree → Except FileError Unit × FileTree
  | [], t => (.error .other, t)
  | path :: above, t =>
    if path = "" then (.ok (), t)
    else
      match t.createDirectory base path with
      | .ok t => (.ok (), t)
      | .error .notFound =>
        match createFrom base above t with
        | (.ok (), t) =>
          match t.createDirectory base path with
          | .ok t => (.ok (), t)
          | .error e => if t.isDirectory base path then (.ok (), t) else (.error e, t)
        | failed => failed
      | .error e => if t.isDirectory base path then (.ok (), t) else (.error e, t)

def createDirectories (t : FileTree) (base : Location) (path : Path) :
    Except FileError Unit × FileTree :=
  createFrom base (Path.ancestors path) t

def below (t : FileTree) (location : Location) : List (Location × FileTree.Node) :=
  t.entries.toList.filter fun (l, _) => location.isPrefixOf l && l != location

def remove (t : FileTree) (location : Location) : FileTree :=
  ⟨t.entries.filter fun l _ => !location.isPrefixOf l⟩

end FileTree

end ModelTypes
