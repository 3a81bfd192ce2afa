import DeclSplit.Json

/-!
Tables while a document is read. A table remembers how it came about, since that decides what may
still be added to it: a header may complete a table that only deeper headers implied, and dotted keys
may only add to tables that dotted keys made.
-/
namespace DeclSplit.Toml

/-- What stands under a key. -/
inductive Item where
  /-- A finished value. -/
  | value (v : Json)
  /-- A table: whether it is only implied by what is below it, whether dotted keys made it, and its
  entries. -/
  | table (implied dotted : Bool) (entries : List (String × Item))
  /-- An array of tables that grows by headers. -/
  | tables (elements : List (List (String × Item)))

/-- The entries of a table. -/
abbrev Entries := List (String × Item)

namespace Entries

/-- Puts an item under a key that is in use already. -/
def replace (entries : Entries) (key : String) (item : Item) : Entries :=
  entries.map fun entry => if entry.1 == key then (key, item) else entry

/-- Applies `change` to the entries that a path leads to, and to whether dotted keys made their
table. Tables that are missing on the way are made. An array of tables leads to its last table. -/
def update (byDots : Bool) (change : Bool → Entries → Option Entries) :
    List String → Bool → Entries → Option Entries
  | [], dotted, entries => change dotted entries
  | key :: path, _, entries =>
    match List.lookup key entries with
    | none => do
      let below ← update byDots change path byDots []
      return entries ++ [(key, .table true byDots below)]
    | some (.value _) => none
    | some (.tables elements) => do
      let below ← update byDots change path false (elements.getLast?.getD [])
      return entries.replace key (.tables (elements.dropLast ++ [below]))
    | some (.table implied dotted below) =>
      if byDots && !implied then
        none
      else do
        let below ← update byDots change path dotted below
        return entries.replace key (.table implied dotted below)

/-- Adds a value under a dotted key. The key may not be in use, and the tables on its way have to be
made by dotted keys. -/
def insertValue (entries : Entries) (path : List String) (key : String) (value : Json) :
    Option Entries :=
  entries.update true
    (fun dotted entries =>
      if dotted == path.isEmpty || (List.lookup key entries).isSome then
        none
      else
        some (entries ++ [(key, .value value)]))
    path false

/-- Opens the table of a header. It may have been implied before, but not defined. -/
def openTable (entries : Entries) (path : List String) (key : String) : Option Entries :=
  entries.update false
    (fun _ entries =>
      match List.lookup key entries with
      | none => some (entries ++ [(key, .table false false [])])
      | some (.table true false below) => some (entries.replace key (.table false false below))
      | some _ => none)
    path false

/-- Adds a table to the array of a header. -/
def appendTable (entries : Entries) (path : List String) (key : String) : Option Entries :=
  entries.update false
    (fun _ entries =>
      match List.lookup key entries with
      | none => some (entries ++ [(key, .tables [[]])])
      | some (.tables elements) => some (entries.replace key (.tables (elements ++ [[]])))
      | some _ => none)
    path false

end Entries

mutual

/-- The finished value of an item. -/
def Item.toJson : Item → Json
  | .value v => v
  | .table _ _ entries => .obj (entriesToMembers entries)
  | .tables elements => .arr (elementsToItems elements)

/-- The finished values of entries. -/
def entriesToMembers : List (String × Item) → List (String × Json)
  | [] => []
  | (key, item) :: rest => (key, item.toJson) :: entriesToMembers rest

/-- The finished values of tables. -/
def elementsToItems : List (List (String × Item)) → List Json
  | [] => []
  | entries :: rest => .obj (entriesToMembers entries) :: elementsToItems rest

end

end DeclSplit.Toml
