import MarketMaking.Path

/-!
# File trees

The files below a working directory, as far as a program reads, creates and extends them. The
directories above it exist up to the root, but what else they hold is not known. Three devices can
be written to: two swallow every byte and one has no room for any.
-/

namespace MarketMaking

/-- Why a file operation failed. -/
inductive FileError where
  | notFound
  | alreadyExists
  | notDirectory
  | isDirectory
  | nameTooLong
  /-- The path holds the character that no path may hold. -/
  | nulInPath
  deriving DecidableEq, Repr

/-- The text of a file error. -/
def FileError.message : FileError → String
  | notFound => "No such file or directory (os error 2)"
  | alreadyExists => "File exists (os error 17)"
  | notDirectory => "Not a directory (os error 20)"
  | isDirectory => "Is a directory (os error 21)"
  | nameTooLong => "File name too long (os error 36)"
  | nulInPath => "file name contained an unexpected NUL byte"

/-- A device. -/
inductive Device where
  /-- Takes every byte and holds none. -/
  | null
  /-- Takes every byte, and has no end when it is read. -/
  | zero
  /-- Takes no byte, and has no end when it is read. -/
  | full
  deriving DecidableEq, Repr

/-- The places of the devices. -/
def Device.places : List (List String × Device) :=
  [(["/", "dev", "null"], null), (["/", "dev", "zero"], zero), (["/", "dev", "full"], full)]

/-- What a path names. -/
inductive FileNode where
  | file (content : ByteArray)
  | directory
  | device (d : Device)

/-- Files with their contents and directories, by the parts of their paths. -/
structure FileTree where
  files : List (List String × ByteArray)
  directories : List (List String)
  /-- The number of directories above the working directory; the last one is the root. -/
  depth : Nat

namespace FileTree

/-- A working directory without any entry, with so many directories above it. -/
def empty (depth : Nat) : FileTree := ⟨[], [], depth⟩

/-- The directories of a system that exist without having been made. -/
def systemDirectories : List (List String) :=
  ["/"] :: ["bin", "boot", "dev", "etc", "home", "lib", "media", "mnt", "opt", "proc", "root",
    "run", "sbin", "srv", "sys", "tmp", "usr", "var"].map fun name => ["/", name]

/-- The directories that exist without having been made: the working directory, those above it, and
those of the system. -/
def isGiven (parts : List String) : Bool :=
  parts.all (· = "..") || systemDirectories.contains parts

/-- What the parts of a path name, when no part of it leads back up. -/
def node? (t : FileTree) (parts : List String) : Option FileNode :=
  if isGiven parts ∨ parts ∈ t.directories then some .directory
  else
    match Device.places.lookup parts with
    | some d => some (.device d)
    | none => (t.files.lookup parts).map .file

/-- The directory above another one. Above the root there is only the root. -/
def above (t : FileTree) (base : List String) : List String :=
  if base = ["/"] then base
  else if !base.all (· = "..") then base.dropLast
  else if base.length + 1 < t.depth then base ++ [".."]
  else ["/"]

/-- The place that one more part of a path leads to. Two dots lead back up. -/
def descend (t : FileTree) (base : List String) (part : String) : List String :=
  if part = ".." then t.above base else base ++ [part]

/-- The place that a path leads to from the directory `base`, without two dots behind a name. All
places on the way must be directories. -/
def resolve (t : FileTree) (base : List String) : List String → Except FileError (List String)
  | [] => .ok base
  | part :: parts =>
      match t.node? base with
      | some .directory => resolve t (t.descend base part) parts
      | some _ => .error .notDirectory
      | none => .error .notFound

/-- What the path with the given text names. -/
def lookup? (t : FileTree) (path : String) : Option FileNode := do
  let p ← Path.ofString? path
  if p.isTooLong then none
  let parts ← (t.resolve [] p.parts).toOption
  match ← t.node? parts with
  | .directory => return .directory
  | node => if p.namesDirectory then none else return node

/-- The bytes that the path with the given text leads to, if they have an end. -/
def read? (t : FileTree) (path : String) : Option ByteArray :=
  match t.lookup? path with
  | some (.file content) => some content
  | some (.device .null) => some ByteArray.empty
  | _ => none

/-- Create the directories along a path that do not exist yet, below the directory `base`. -/
def makeBelow (base : List String) : List String → FileTree → Except FileError FileTree
  | [], t => .ok t
  | part :: parts, t =>
      let place := t.descend base part
      match t.node? place with
      | some .directory => makeBelow place parts t
      | some _ => .error (if parts = [] then .alreadyExists else .notDirectory)
      | none =>
          if Path.isLongName part then .error .nameTooLong
          else makeBelow place parts { t with directories := t.directories ++ [place] }

/-- Create the directories along a path that do not exist yet. -/
def makeDirectories (t : FileTree) (p : Path) : Except FileError FileTree :=
  if p.holdsNul then .error .nulInPath
  else if p.isTooLong then .error .nameTooLong
  else makeBelow [] p.parts t

/-- Give a file a content, creating it where there is none. -/
def write (t : FileTree) (parts : List String) (content : ByteArray) : FileTree :=
  if (t.files.lookup parts).isSome then
    { t with files := t.files.map fun f => if f.1 = parts then (parts, content) else f }
  else { t with files := t.files ++ [(parts, content)] }

/-- What is written to: a file at a place, with the content it has so far if it exists, or a
device. -/
inductive Target where
  | file (parts : List String) (existing : Option ByteArray)
  | device (d : Device)

/-- Open a path for writing. A file is created if the path leads to none. -/
def openForWriting (t : FileTree) (p : Path) : Except FileError Target := do
  if p.holdsNul then .error .nulInPath
  if p.isTooLong then .error .nameTooLong
  let parts ← t.resolve [] p.parts
  match t.node? parts with
  | some .directory => .error .isDirectory
  | some (.file content) =>
      if p.namesDirectory then .error .notDirectory else .ok (.file parts (some content))
  | some (.device d) => if p.namesDirectory then .error .notDirectory else .ok (.device d)
  | none =>
      if parts.getLast?.any Path.isLongName then .error .nameTooLong
      else if p.namesDirectory then .error .isDirectory
      else .ok (.file parts none)

/-- The files in the order of their paths: the entries of a directory by name, with what is below
them in place. Only what lies in the working directory is listed. -/
def sortedFiles (t : FileTree) : List (List String × ByteArray) :=
  (t.files.filter fun f => f.1.head? ≠ some ".." ∧ f.1.head? ≠ some "/").mergeSort
    fun x y => !(decide (y.1 < x.1))

/-- The text of the path with the given parts. -/
def pathText (parts : List String) : String := "/".intercalate parts

end FileTree

end MarketMaking
