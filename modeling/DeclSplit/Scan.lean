import DeclSplit.Ignore.Scope
import DeclSplit.Settings

/-!
The files of a directory and of the directories inside it. The entries of a directory come in the
order of the bytes of their names, and a directory stands in this order with all that it holds.
-/
namespace DeclSplit

namespace Scan

/-- A file that a scan has found. -/
structure Found where
  /-- The path that leads to it. -/
  path : String
  /-- The names that lead to it from where the scan started. -/
  names : List String
deriving DecidableEq, Repr

/-- The path from where the scan started. -/
def Found.relative (found : Found) : String :=
  "/".intercalate found.names

/-- A directory that a scan is in. -/
structure Stop where
  /-- The path that leads to it. -/
  path : String
  /-- The names that lead to it from where the scan started. -/
  names : List String
  /-- Where it stands on the disk. -/
  place : List String
  /-- The rules that bear on it. -/
  scope : Ignore.Scope
  /-- The places of the directories on the way to it, its own first. -/
  trail : List (List String)

/-- The directory of this name and at this place, entered from another. -/
def Stop.enter (stop : Stop) (disk : Disk) (name : String) (place : List String) : Stop where
  path := Path.join stop.path name
  names := stop.names ++ [name]
  place := place
  scope := stop.scope.enter disk name place
  trail := place :: stop.trail

/-- Whether a name is hidden. -/
def isHidden (name : String) : Bool :=
  name.toList.head? == some '.'

/-- Whether an entry of a directory takes part in the scan. A rule decides before the hidden names
do. -/
def admits (settings : ScanSettings) (stop : Stop) (name : String) (isDirectory : Bool) : Bool :=
  match stop.scope.verdict? name isDirectory with
  | some .keep => true
  | some .leaveOut => false
  | none => settings.includeHidden || !isHidden name

/-- The order of names by their bytes. -/
def nameLe (a b : String) : Bool :=
  decide (a.toUTF8.data.toList ≤ b.toUTF8.data.toList)

/-- What was found under each name, in the order of the names. -/
def inOrder (found : List (String × List Found)) : List Found :=
  (found.mergeSort fun a b => nameLe a.1 b.1).flatMap (·.2)

/-- A file, if it takes part. -/
def file (settings : ScanSettings) (stop : Stop) (name : String) : List Found :=
  if admits settings stop name false then
    [⟨Path.join stop.path name, stop.names ++ [name]⟩]
  else
    []

mutual

/-- The files that an entry of a directory holds, `onLink` answering for links. -/
def visit (disk : Disk) (settings : ScanSettings) (onLink : Stop → String → List Found) (stop : Stop)
    (name : String) : Entry → List Found
  | .file _ => file settings stop name
  | .link _ => onLink stop name
  | .directory entries =>
    if admits settings stop name true then
      inOrder (visitAll disk settings onLink (stop.enter disk name (stop.place ++ [name])) entries)
    else
      []

/-- The files that each entry of a directory holds. -/
def visitAll (disk : Disk) (settings : ScanSettings) (onLink : Stop → String → List Found)
    (stop : Stop) : List (String × Entry) → List (String × List Found)
  | [] => []
  | (name, entry) :: rest =>
    (name, visit disk settings onLink stop name entry) ::
      visitAll disk settings onLink stop rest

end

/-- The files behind a link, for a number of links at most that each lead into a directory inside the
other. A link into a directory that the scan is in already leads nowhere. -/
def throughLink (disk : Disk) (settings : ScanSettings) : Nat → Stop → String → List Found
  | 0, _, _ => []
  | depth + 1, stop, name =>
    match disk.follow Disk.maxLinks stop.place [name] with
    | .ok (_, .file _) => file settings stop name
    | .ok (place, .directory entries) =>
      if stop.trail.contains place || !admits settings stop name true then
        []
      else
        inOrder
          (visitAll disk settings (throughLink disk settings depth) (stop.enter disk name place)
            entries)
    | _ => []

/-- The names that lead to a place from the working directory, or from the root if it is not in
there. -/
def userLead (disk : Disk) (root : String) : List String :=
  let names := Path.components root
  if Path.isAbsolute root && disk.workingDirectory.isPrefixOf names then
    names.drop disk.workingDirectory.length
  else
    names

/-- The files under a root. A file as the root is found itself; neither rules nor hidden names bear on
the root. -/
def files (disk : Disk) (settings : ScanSettings) (userRules : List Ignore.Rule) (root : String) :
    List Found :=
  if Path.isStandardInput root then
    []
  else
    match disk.resolve root with
    | .ok (_, .file _) => [⟨root, []⟩]
    | .ok (place, .directory entries) =>
      let scope :=
        if settings.respectIgnore then .atPlace disk place userRules (userLead disk root)
        else .inactive
      let onLink :=
        if settings.followLinks then throughLink disk settings (disk.root.directories + 1)
        else fun _ _ => []
      inOrder (visitAll disk settings onLink ⟨root, [], place, scope, [place]⟩ entries)
    | _ => []

end Scan

end DeclSplit
