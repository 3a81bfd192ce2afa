import DeclSplit.File.Error
import DeclSplit.Path

/-!
A file system as a tree of entries, with a working directory. A place in it is the list of names that
lead to it from the root through directories alone; a path is followed to its place through symbolic
links.
-/
namespace DeclSplit

/-- What a name of a directory stands for. -/
inductive Entry where
  | file (content : ByteArray)
  | link (target : String)
  | directory (entries : List (String × Entry))

namespace Entry

/-- What a name stands for in a directory. -/
def child? (name : String) : Entry → Option Entry
  | directory entries => entries.lookup name
  | _ => none

/-- What stands at the end of a list of names, links not followed. -/
def at? : List String → Entry → Option Entry
  | [], entry => some entry
  | name :: rest, entry => (entry.child? name).bind (at? rest)

/-- Whether the entry is a directory. -/
def isDirectory : Entry → Bool
  | directory _ => true
  | _ => false

/-- The number of bytes of an entry. A directory takes one block. -/
def size : Entry → Nat
  | file content => content.size
  | link target => target.utf8ByteSize
  | directory _ => 4096

/-- The entries of a directory with one of them replaced, removed or added. -/
def replaceIn (name : String) (change : Option Entry → Option Entry) :
    List (String × Entry) → List (String × Entry)
  | [] => ((change none).map fun entry => (name, entry)).toList
  | (n, entry) :: rest =>
    if n = name then
      ((change (some entry)).map fun entry => (n, entry)).toList ++ rest
    else
      (n, entry) :: replaceIn name change rest

/-- Changes what stands at the end of a list of names. Directories on the way are made where there
are none. -/
def update (change : Option Entry → Option Entry) : List String → Option Entry → Option Entry
  | [], entry => change entry
  | name :: rest, entry =>
    let entries :=
      match entry with
      | some (directory entries) => entries
      | _ => []
    some (directory (replaceIn name (update change rest) entries))

mutual

/-- The number of directories in an entry, itself included. -/
def directories : Entry → Nat
  | file _ => 0
  | link _ => 0
  | directory entries => 1 + directoriesIn entries

/-- The number of directories in the entries of a directory. -/
def directoriesIn : List (String × Entry) → Nat
  | [] => 0
  | (_, entry) :: rest => entry.directories + directoriesIn rest

end

end Entry

/-- A file system and the place of the working directory. -/
structure Disk where
  root : Entry
  workingDirectory : List String

namespace Disk

/-- The number of links that a path may lead through. -/
def maxLinks : Nat := 40

/-- The longest name, in bytes. -/
def maxName : Nat := 255

/-- The number of bytes that a path has to stay below. -/
def maxPath : Nat := 4096

/-- The place that the parts of a path lead to from a place, and what stands there. A part that is
empty or `.` stays in the directory, `..` leaves it. -/
def follow (disk : Disk) (links : Nat) (here : List String) (parts : List String) :
    Except FileError (List String × Entry) :=
  match parts with
  | [] =>
    match disk.root.at? here with
    | some entry => .ok (here, entry)
    | none => .error .notFound
  | name :: rest =>
    match disk.root.at? here with
    | none => .error .notFound
    | some entry =>
      if !entry.isDirectory then
        .error .notADirectory
      else if name = "" ∨ name = "." then
        disk.follow links here rest
      else if name = ".." then
        disk.follow links here.dropLast rest
      else if maxName < name.utf8ByteSize then
        .error .nameTooLong
      else
        match entry.child? name with
        | none => .error .notFound
        | some (.link target) =>
          match links with
          | 0 => .error .linkLoop
          | links + 1 =>
            let start := if Path.isAbsolute target then [] else here
            disk.follow links start (Text.split '/' target ++ rest)
        | some _ => disk.follow links (here ++ [name]) rest
termination_by (links, parts.length)

/-- The place that a path leads to, and what stands there. -/
def resolve (disk : Disk) (path : String) : Except FileError (List String × Entry) :=
  if path.toList.contains (Char.ofNat 0) then
    .error .zeroCharacter
  else if path = "" then
    .error .notFound
  else if maxPath ≤ path.utf8ByteSize then
    .error .nameTooLong
  else
    let start := if Path.isAbsolute path then [] else disk.workingDirectory
    disk.follow maxLinks start (Text.split '/' path)

/-- What stands at a path. -/
def entry (disk : Disk) (path : String) : Except FileError Entry :=
  (disk.resolve path).map (·.2)

/-- The bytes of an entry that is a file. -/
def contentOf : Entry → Except FileError ByteArray
  | .file content => .ok content
  | .directory _ => .error .isADirectory
  | .link _ => .error .notFound

/-- The bytes of the file at a path. -/
def read (disk : Disk) (path : String) : Except FileError ByteArray := do
  contentOf (← disk.entry path)

/-- Whether a file stands at a path. -/
def isFile (disk : Disk) (path : String) : Bool :=
  match disk.entry path with
  | .ok (.file _) => true
  | _ => false

/-- The bytes of the file that names lead to from a place, if there is one. -/
def readFrom? (disk : Disk) (here : List String) (names : List String) : Option ByteArray :=
  match disk.follow maxLinks here names with
  | .ok (_, .file content) => some content
  | _ => none

/-- The place at which something is put under a path: links that lead somewhere are followed, names
that lead nowhere yet are taken as they are. -/
def placeFor (disk : Disk) (names : List String) : List String :=
  names.foldl
    (fun here name =>
      match disk.follow maxLinks here [name] with
      | .ok (there, _) => there
      | .error _ => here ++ [name])
    disk.workingDirectory

/-- Puts an entry under a path relative to the working directory. A directory that is there already
stays as it is. -/
def put (disk : Disk) (path : String) (entry : Entry) : Disk :=
  let change (old : Option Entry) : Option Entry :=
    match old, entry with
    | some (.directory entries), .directory [] => some (.directory entries)
    | _, _ => some entry
  let place := disk.placeFor (Path.components path)
  { disk with root := (Entry.update change place (some disk.root)).getD disk.root }

/-- Removes what stands under a path relative to the working directory. -/
def erase (disk : Disk) (path : String) : Disk :=
  let names := Path.components path
  match names.getLast? with
  | none => disk
  | some name =>
    let place := disk.placeFor names.dropLast ++ [name]
    { disk with root := (Entry.update (fun _ => none) place (some disk.root)).getD disk.root }

end Disk

end DeclSplit
