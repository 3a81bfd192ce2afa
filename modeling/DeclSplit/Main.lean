import DeclSplit.Program

/-!
The program on a real machine: what a run can look at is read into a disk, and what the run leaves
behind is printed. No grammars are compiled in, so that every language is without a parser.
-/
namespace DeclSplit.Main

/-- What has been read of the machine, and the directories that were read as a whole. -/
structure Snapshot where
  disk : Disk := ⟨.directory [], []⟩
  seen : List String := []

/-- Puts an entry at an absolute path. -/
def Snapshot.put (s : Snapshot) (path : String) (entry : Entry) : Snapshot :=
  { s with disk := s.disk.put path entry }

/-- What kind of entry a name of a directory stands for, if for any. -/
def kindOf? (directory name : String) : IO (Option IO.FS.FileType) := do
  match ← ((IO.FS.DirEntry.mk directory name).path.symlinkMetadata).toBaseIO with
  | .ok metadata => return some metadata.type
  | .error _ => return none

/-- The place that a path leads to, if to any. -/
def realPath? (path : String) : IO (Option String) := do
  match ← (IO.FS.realPath path).toBaseIO with
  | .ok real => return some real.toString
  | .error _ => return none

/-- Reads a file. -/
def addFile (s : Snapshot) (path : String) : IO Snapshot := do
  match ← (IO.FS.readBinFile path).toBaseIO with
  | .ok content => return s.put path (.file content)
  | .error _ => return s

mutual

/-- Reads an entry of a directory, and what is behind it if it is a link. -/
partial def addEntry (whole : Bool) (s : Snapshot) (directory name : String) : IO Snapshot := do
  let path := Path.join directory name
  match ← kindOf? directory name with
  | some .file => addFile s path
  | some .dir => if whole then addTree s path else return s.put path (.directory [])
  | some .symlink =>
    match ← realPath? path with
    | some target =>
      let s := s.put path (.link target)
      let parent := "/" ++ "/".intercalate (Path.components target).dropLast
      match (Path.components target).getLast? with
      | some last => addEntry whole s parent last
      | none => return s
    | none => return s.put path (.link path)
  | _ => return s

/-- Reads a directory and all that it holds. -/
partial def addTree (s : Snapshot) (path : String) : IO Snapshot := do
  if s.seen.contains path then
    return s
  let mut s := { s.put path (.directory []) with seen := path :: s.seen }
  match ← ((IO.FS.DirEntry.mk path ".").path.readDir).toBaseIO with
  | .ok entries =>
    for entry in entries do
      s ← addEntry true s path entry.fileName
  | .error _ => pure ()
  return s

end

/-- Reads what a path leads to, and what it leads through. -/
def addPath (whole : Bool) (s : Snapshot) (path : String) : IO Snapshot := do
  let mut s := s
  let mut here := "/"
  for name in Path.components path do
    s ← addEntry false s here name
    here := Path.join here name
  match whole, ← realPath? path with
  | true, some real =>
    match ← kindOf? real "." with
    | some .dir => addTree s real
    | _ => return s
  | _, _ => return s

/-- The files of a directory that a run may look at besides those that it was asked for. -/
def sideFiles : List String :=
  [".env", ".ignore", ".gitignore", ".git/info/exclude"]

/-- Reads the side files of a directory and of those above it. -/
def addSideFiles (s : Snapshot) (directory : String) : IO Snapshot := do
  let names := Path.components directory
  let mut s := s
  for depth in List.range (names.length + 1) do
    for file in sideFiles do
      s ← addPath false s (Path.join ("/" ++ "/".intercalate (names.take depth)) file)
  return s

/-- The files of the user that a run may look at. -/
def userFiles (vars : Variables) : List String :=
  vars.settingsFile?.toList ++
    (vars.home?.map (Path.join · ".gitconfig")).toList ++
    ((Ignore.settingsDirectory? vars).map (Path.join · "git/config")).toList

/-- The absolute form of a path. -/
def absolute (workingDirectory path : String) : String :=
  if Path.isAbsolute path then path else Path.join workingDirectory path

/-- The variables of the process. -/
def processVariables : IO Variables := do
  match ← (IO.FS.readBinFile "/proc/self/environ").toBaseIO with
  | .error _ => return fun _ => none
  | .ok bytes =>
    let pairs := (Text.splitChars (Char.ofNat 0) ((String.fromUTF8? bytes).getD "").toList).map
      fun (line : List Char) =>
        (String.ofList (line.takeWhile (· != '=')),
          String.ofList ((line.dropWhile (· != '=')).drop 1))
    return fun name => pairs.lookup name

/-- The machine as a run with these arguments sees it. -/
def host (args : List String) : IO Program.Host := do
  let workingDirectory := (← IO.currentDir).toString
  let vars ← processVariables
  let mut s ← addSideFiles {} workingDirectory
  s ← addPath false s workingDirectory
  let here (s : Snapshot) : Disk :=
    { s.disk with workingDirectory := Path.components workingDirectory }
  let known : Program.Host :=
    Program.withEnvFile ⟨here s, vars, Loader.none, fun _ _ => none⟩
  for file in userFiles known.vars do
    s ← addPath false s (absolute workingDirectory file)
  if let some file := Ignore.userFile? (here s) known.vars then
    s ← addPath false s (absolute workingDirectory file)
  match CommandLine.parse args with
  | .run config command =>
    if let some path := config then
      s ← addPath false s (absolute workingDirectory path)
    if let .chunk options := command then
      s ← addPath true s (absolute workingDirectory options.path)
      if let some real ← realPath? options.path then
        s ← addSideFiles s real
  | _ => pure ()
  return { known with disk := here s, vars }

end DeclSplit.Main

/-- Runs the program on the arguments of the process. -/
def main (args : List String) : IO UInt32 := do
  let outcome := DeclSplit.Program.run (← DeclSplit.Main.host args) args
  IO.print outcome.stdout
  IO.eprint outcome.stderr
  return outcome.exit.toUInt32
