import DeclSplit.Proofs.Scan
import Mathlib.Data.List.Flatten

/-!
Scans of trees without links. A scan finds files of the tree alone, each once, in the order of the names on the
way to them: a directory stands where its name does, with all that it holds. Rules and hidden names only take files
away, directories with all that they hold. Where neither count, every file is found, unless the path of the tree is
taken for the standard input.
-/

namespace DeclSplit

/-- A file, or a directory with one entry for each name, and no links at any depth. -/
inductive Entry.IsTree : Entry → Prop where
  | file (content : ByteArray) : IsTree (.file content)
  | directory {entries : List (String × Entry)} (distinct : (entries.map (·.1)).Nodup)
      (inside : ∀ name child, (name, child) ∈ entries → IsTree child) : IsTree (.directory entries)

namespace Entry
variable {entries : List (String × Entry)} {name : String} {child : Entry}

theorem mem_of_lookup (found : entries.lookup name = some child) : (name, child) ∈ entries := by
  obtain ⟨before, after, rfl, -⟩ := List.lookup_eq_some_iff.mp found
  exact List.mem_append_right _ List.mem_cons_self

theorem lookup_of_mem (distinct : (entries.map (·.1)).Nodup) (member : (name, child) ∈ entries) :
    entries.lookup name = some child := by
  obtain ⟨before, after, rfl⟩ := List.append_of_mem member
  refine List.lookup_eq_some_iff.mpr ⟨before, after, rfl, fun earlier passed => ?_⟩
  rw [List.map_append, List.map_cons, List.nodup_append] at distinct
  have different := distinct.2.2 earlier.1 (List.mem_map_of_mem passed) name List.mem_cons_self
  exact bne_iff_ne.mpr different.symm

end Entry

namespace Scan
variable {disk : Disk} {settings full : ScanSettings} {onLink onLinkToo : Stop → String → List Found} {stop : Stop}
  {entries : List (String × Entry)} {entry : Entry} {lead : List String} {name : String}

/-! ### The order of names -/

def nameBytes (name : String) : List UInt8 :=
  name.toUTF8.data.toList

/-- The lists of names in lexicographic order, the names by their bytes. -/
def Precedes (a b : List String) : Prop :=
  a.map nameBytes < b.map nameBytes

theorem nameBytes_injective {a b : String} (same : nameBytes a = nameBytes b) : a = b := by
  have bytes : a.toUTF8 = b.toUTF8 := ByteArray.ext (Array.toList_inj.mp same)
  exact String.toByteArray_inj.mp bytes

theorem nameLe_iff {a b : String} : nameLe a b = true ↔ nameBytes a ≤ nameBytes b :=
  decide_eq_true_iff

theorem lt_of_nameLe {a b : String} (le : nameLe a b = true) (different : a ≠ b) : nameBytes a < nameBytes b := by
  refine Classical.byContradiction fun above => ?_
  have same := List.le_antisymm (nameLe_iff.mp le) (List.not_lt.mp above)
  exact different (nameBytes_injective same)

theorem precedes_of_lt {a b : String} (lt : nameBytes a < nameBytes b) (lead rest others : List String) :
    Precedes (lead ++ a :: rest) (lead ++ b :: others) := by
  unfold Precedes
  rw [List.map_append, List.map_append, List.map_cons, List.map_cons]
  exact List.append_left_lt (List.cons_lt_cons_iff.mpr (Or.inl lt))

theorem not_precedes_self (names : List String) : ¬Precedes names names :=
  List.lt_irrefl _

/-- The entries of a directory in the order of their names. -/
def sorted (entries : List (String × Entry)) : List (String × Entry) :=
  entries.mergeSort fun a b => nameLe a.1 b.1

@[simp] theorem mem_sorted {e : String × Entry} : e ∈ sorted entries ↔ e ∈ entries :=
  List.mem_mergeSort

theorem pairwise_sorted (distinct : (entries.map (·.1)).Nodup) :
    (sorted entries).Pairwise fun a b => nameBytes a.1 < nameBytes b.1 := by
  have ordered : (sorted entries).Pairwise fun a b => nameLe a.1 b.1 = true := by
    apply List.pairwise_mergeSort
    · intro a b c le others
      exact nameLe_iff.mpr (List.le_trans (nameLe_iff.mp le) (nameLe_iff.mp others))
    · intro a b
      rw [Bool.or_eq_true, nameLe_iff, nameLe_iff]
      exact List.le_total _ _
  have different : (sorted entries).Pairwise fun a b => a.1 ≠ b.1 := by
    rw [← List.pairwise_map]
    exact ((List.mergeSort_perm entries _).map (·.1)).nodup_iff.mpr distinct
  exact (ordered.and different).imp fun both => lt_of_nameLe both.1 both.2

/-! ### One directory -/

theorem visitAll_eq_map (stop : Stop) (entries : List (String × Entry)) :
    visitAll disk settings onLink stop entries =
      entries.map fun e => (e.1, visit disk settings onLink stop e.1 e.2) := by
  induction entries with
  | nil => rfl
  | cons e rest ih => rw [visitAll, ih, List.map_cons]

/-- What a directory holds is what its entries hold, in the order of the names. -/
theorem inOrder_visitAll (stop : Stop) (entries : List (String × Entry)) :
    inOrder (visitAll disk settings onLink stop entries) =
      (sorted entries).flatMap fun e => visit disk settings onLink stop e.1 e.2 := by
  -- The files found under a name do not matter to the order.
  have moved : (sorted entries).map (fun e => (e.1, visit disk settings onLink stop e.1 e.2)) =
      (entries.map fun e => (e.1, visit disk settings onLink stop e.1 e.2)).mergeSort fun a b => nameLe a.1 b.1 :=
    List.map_mergeSort fun _ _ _ _ => rfl
  rw [visitAll_eq_map, inOrder, ← moved, List.flatMap_map]

/-- Files of an entry to which `lead` leads, each of them once and in the order of the names. -/
structure Lists (lead : List String) (entry : Entry) (found : List Found) : Prop where
  regular : ∀ f ∈ found, ∃ names content, f.names = lead ++ names ∧ entry.at? names = some (.file content)
  ascending : found.Pairwise fun f g => Precedes f.names g.names

/-- All files of an entry to which `lead` leads. -/
def Covers (lead : List String) (entry : Entry) (found : List Found) : Prop :=
  ∀ names content, entry.at? names = some (.file content) → ∃ f ∈ found, f.names = lead ++ names

theorem Lists.nil (lead : List String) (entry : Entry) : Lists lead entry [] :=
  ⟨fun _ member => absurd member List.not_mem_nil, .nil⟩

theorem Lists.singleton (path : String) (lead : List String) (content : ByteArray) :
    Lists lead (.file content) [⟨path, lead⟩] := by
  refine ⟨fun f found => ?_, List.pairwise_singleton _ _⟩
  rw [List.mem_singleton.mp found]
  exact ⟨[], content, (List.append_nil lead).symm, rfl⟩

theorem Covers.singleton (path : String) (lead : List String) (content : ByteArray) :
    Covers lead (.file content) [⟨path, lead⟩] := by
  intro names _ stands
  cases names with
  | nil => exact ⟨_, List.mem_singleton_self _, (List.append_nil lead).symm⟩
  | cons => cases stands

/-- Entries that are listed one after the other list the directory. -/
theorem Lists.directory {held : String → Entry → List Found} (distinct : (entries.map (·.1)).Nodup)
    (inside : ∀ name child, (name, child) ∈ entries → Lists (lead ++ [name]) child (held name child)) :
    Lists lead (.directory entries) ((sorted entries).flatMap fun e => held e.1 e.2) := by
  have reached : ∀ e ∈ entries, ∀ f ∈ held e.1 e.2, ∃ names content,
      f.names = lead ++ e.1 :: names ∧ e.2.at? names = some (.file content) := by
    intro e member f found
    obtain ⟨names, content, split, stands⟩ := (inside e.1 e.2 member).regular f found
    exact ⟨names, content, by rw [split, List.append_assoc, List.singleton_append], stands⟩
  constructor
  case regular =>
    intro f found
    obtain ⟨e, member, found⟩ := List.mem_flatMap.mp found
    obtain ⟨names, content, split, stands⟩ := reached e (mem_sorted.mp member) f found
    refine ⟨e.1 :: names, content, split, ?_⟩
    rw [Entry.at?, Entry.child?, Entry.lookup_of_mem distinct (mem_sorted.mp member)]
    exact stands
  case ascending =>
    refine List.pairwise_flatMap.mpr ⟨fun e member => (inside e.1 e.2 (mem_sorted.mp member)).ascending, ?_⟩
    -- Files below two entries differ first in the names of the entries, whatever follows.
    refine (pairwise_sorted distinct).imp_of_mem fun {a b} memberA memberB lt f found g other => ?_
    obtain ⟨names, -, split, -⟩ := reached a (mem_sorted.mp memberA) f found
    obtain ⟨others, -, splitToo, -⟩ := reached b (mem_sorted.mp memberB) g other
    rw [split, splitToo]
    exact precedes_of_lt lt lead names others

theorem Covers.directory {held : String → Entry → List Found}
    (inside : ∀ name child, (name, child) ∈ entries → Covers (lead ++ [name]) child (held name child)) :
    Covers lead (.directory entries) ((sorted entries).flatMap fun e => held e.1 e.2) := by
  intro names content stands
  cases names with
  | nil => cases stands
  | cons first rest =>
    obtain ⟨child, listed, stands⟩ := Option.bind_eq_some_iff.mp stands
    have member := Entry.mem_of_lookup listed
    obtain ⟨f, found, split⟩ := inside first child member rest content stands
    refine ⟨f, List.mem_flatMap.mpr ⟨(first, child), mem_sorted.mpr member, found⟩, ?_⟩
    rw [split, List.append_assoc, List.singleton_append]

theorem lists_visit (tree : entry.IsTree) (stop : Stop) (name : String) :
    Lists (stop.names ++ [name]) entry (visit disk settings onLink stop name entry) := by
  -- A tree has no links, so what `onLink` answers does not matter.
  induction tree generalizing stop name with
  | file content =>
    rw [visit, file]
    split
    · exact .singleton _ _ content
    · exact .nil _ _
  | directory distinct _ ih =>
    rw [visit]
    split
    · rw [inOrder_visitAll]
      exact .directory distinct fun child entry member => ih child entry member (stop.enter disk name _) child
    · exact .nil _ _

/-! ### Rules and hidden names -/

/-- A directory in which nothing is left out. -/
structure Open (settings : ScanSettings) (stop : Stop) : Prop where
  hidden : settings.includeHidden = true
  unruled : stop.scope = .inactive

theorem Open.admits (opened : Open settings stop) (name : String) (isDirectory : Bool) :
    admits settings stop name isDirectory = true := by
  have silent : stop.scope.verdict? name isDirectory = none := by
    rw [opened.unruled]
    rfl
  rw [Scan.admits, silent]
  exact Bool.or_eq_true_iff.mpr (Or.inl opened.hidden)

theorem Open.enter (opened : Open settings stop) (name : String) (place : List String) :
    Open settings (stop.enter disk name place) := by
  refine ⟨opened.hidden, ?_⟩
  rw [Stop.enter, opened.unruled]
  rfl

theorem covers_visit (tree : entry.IsTree) (opened : Open settings stop) (name : String) :
    Covers (stop.names ++ [name]) entry (visit disk settings onLink stop name entry) := by
  induction tree generalizing stop name with
  | file content =>
    rw [visit, file, if_pos (opened.admits name false)]
    exact .singleton _ _ content
  | directory _ _ ih =>
    rw [visit, if_pos (opened.admits name true), inOrder_visitAll]
    exact .directory fun child entry member => ih child entry member (opened.enter name _) child

/-- What is found of an entry is found of it, in the same order, where nothing is left out. -/
theorem visit_sublist (tree : entry.IsTree) {other : Stop} (path : stop.path = other.path)
    (names : stop.names = other.names) (opened : Open full other) (name : String) :
    (visit disk settings onLink stop name entry).Sublist (visit disk full onLinkToo other name entry) := by
  induction tree generalizing stop other name with
  | file =>
    rw [visit, visit, file, file, if_pos (opened.admits name false), path, names]
    split
    · exact .refl _
    · exact List.nil_sublist _
  | directory _ _ ih =>
    rw [visit, visit, if_pos (opened.admits name true)]
    split
    · rw [inOrder_visitAll, inOrder_visitAll]
      apply List.Sublist.flatMap_right
      intro e member
      apply ih e.1 e.2 (mem_sorted.mp member)
      · rw [Stop.enter, Stop.enter, path]
      · rw [Stop.enter, Stop.enter, names]
      · exact opened.enter name (other.place ++ [name])
    · exact List.nil_sublist _

/-! ### From a root on -/

section
variable {root : String} {place : List String} {userRules : List Ignore.Rule}

theorem files_of_standardInput (input : Path.isStandardInput root = true) :
    files disk settings userRules root = [] := by
  rw [files, if_pos input]

theorem files_of_file {content : ByteArray} (walked : ¬Path.isStandardInput root = true)
    (stands : disk.resolve root = .ok (place, .file content)) :
    files disk settings userRules root = [⟨root, []⟩] := by
  rw [files, if_neg walked, stands]

theorem files_of_directory (settings : ScanSettings) (userRules : List Ignore.Rule)
    (walked : ¬Path.isStandardInput root = true) (stands : disk.resolve root = .ok (place, .directory entries)) :
    ∃ stop onLink, stop.path = root ∧ stop.names = [] ∧
      (settings.includeHidden = true → settings.respectIgnore = false → Open settings stop) ∧
      files disk settings userRules root =
        (sorted entries).flatMap fun e => visit disk settings onLink stop e.1 e.2 := by
  rw [files, if_neg walked, stands]
  refine ⟨_, _, rfl, rfl, fun hidden unruled => ⟨hidden, ?_⟩, inOrder_visitAll _ entries⟩
  rw [unruled]
  rfl

theorem lists_files (stands : disk.resolve root = .ok (place, entry)) (tree : entry.IsTree)
    (settings : ScanSettings) (userRules : List Ignore.Rule) :
    Lists [] entry (files disk settings userRules root) := by
  by_cases walked : Path.isStandardInput root = true
  · rw [files_of_standardInput walked]
    exact .nil _ _
  cases tree with
  | file content =>
    rw [files_of_file walked stands]
    exact .singleton root [] content
  | directory distinct inside =>
    obtain ⟨stop, onLink, -, start, -, shape⟩ := files_of_directory settings userRules walked stands
    rw [shape]
    refine .directory distinct fun name child member => ?_
    have listed : Lists (stop.names ++ [name]) child (visit disk settings onLink stop name child) :=
      lists_visit (inside name child member) stop name
    rwa [start] at listed

theorem files_sublist (stands : disk.resolve root = .ok (place, entry)) (tree : entry.IsTree)
    (settings : ScanSettings) (userRules : List Ignore.Rule) (unruled : full.respectIgnore = false)
    (hidden : full.includeHidden = true) :
    (files disk settings userRules root).Sublist (files disk full userRules root) := by
  by_cases walked : Path.isStandardInput root = true
  · rw [files_of_standardInput walked]
    exact List.nil_sublist _
  cases tree with
  | file content =>
    have same : files disk settings userRules root = files disk full userRules root := by
      rw [files_of_file walked stands, files_of_file walked stands]
    exact same ▸ .refl _
  | directory distinct inside =>
    obtain ⟨stop, onLink, path, start, -, shape⟩ := files_of_directory settings userRules walked stands
    obtain ⟨other, onLinkToo, pathToo, startToo, opened, shapeToo⟩ :=
      files_of_directory full userRules walked stands
    rw [shape, shapeToo]
    apply List.Sublist.flatMap_right
    intro e member
    exact visit_sublist (inside e.1 e.2 (mem_sorted.mp member)) (path.trans pathToo.symm)
      (start.trans startToo.symm) (opened hidden unruled) e.1

theorem covers_files (walked : ¬Path.isStandardInput root = true) (stands : disk.resolve root = .ok (place, entry))
    (tree : entry.IsTree) (userRules : List Ignore.Rule) (unruled : full.respectIgnore = false)
    (hidden : full.includeHidden = true) : Covers [] entry (files disk full userRules root) := by
  cases tree with
  | file content =>
    rw [files_of_file walked stands]
    exact .singleton root [] content
  | directory _ inside =>
    obtain ⟨stop, onLink, -, start, opened, shape⟩ := files_of_directory full userRules walked stands
    rw [shape]
    refine .directory fun name child member => ?_
    have covered : Covers (stop.names ++ [name]) child (visit disk full onLink stop name child) :=
      covers_visit (inside name child member) (opened hidden unruled) name
    rwa [start] at covered

end

/-- A scan of a tree without links finds files of the tree alone, at the paths that their names lead to, each once
and in strictly ascending order of these names, component by component and by their bytes. Without rules and with
hidden names it finds all that it finds under other settings, in the same order, and it finds every file of the
tree exactly if its path is not taken for the standard input or there is none to find. -/
theorem files_of_tree {disk : Disk} {root : String} {place : List String} {entry : Entry}
    (stands : disk.resolve root = .ok (place, entry)) (tree : entry.IsTree) (settings full : ScanSettings)
    (unruled : full.respectIgnore = false) (hidden : full.includeHidden = true) (userRules : List Ignore.Rule) :
    (∀ f ∈ files disk settings userRules root, f.path = f.names.foldl Path.join root ∧
      ∃ content, entry.at? f.names = some (.file content)) ∧
    ((files disk settings userRules root).map (·.names)).Nodup ∧
    (files disk settings userRules root).Pairwise (fun f g => Precedes f.names g.names) ∧
    (files disk settings userRules root).Sublist (files disk full userRules root) ∧
    ((∀ names content, entry.at? names = some (.file content) →
        ∃ f ∈ files disk full userRules root, f.names = names) ↔
      (Path.isStandardInput root = true → ∀ names content, entry.at? names ≠ some (.file content))) := by
  obtain ⟨regular, ascending⟩ := lists_files stands tree settings userRules
  refine ⟨fun f found => ⟨continues_of_mem_files found, ?_⟩, ?_, ascending,
    files_sublist stands tree settings userRules unruled hidden, ?_⟩
  · obtain ⟨names, content, split, holds⟩ := regular f found
    exact ⟨content, split ▸ holds⟩
  · refine List.pairwise_map.mpr (ascending.imp fun {f g} precedes same => ?_)
    exact not_precedes_self g.names (same ▸ precedes)
  · constructor
    · intro complete input names content holds
      obtain ⟨f, found, -⟩ := complete names content holds
      rw [files_of_standardInput input] at found
      cases found
    · intro empty names content holds
      by_cases input : Path.isStandardInput root = true
      · exact absurd holds (empty input names content)
      · exact covers_files input stands tree userRules unruled hidden names content holds

/-! ### A directory named like the standard input -/

/-- A directory in which the files in order of their paths as texts would stand the other way around. -/
def nested : Entry :=
  .directory [("a.py", .file .empty), ("a", .directory [("z.py", .file .empty)])]

def dashed : Disk := ⟨.directory [("-", nested)], []⟩

def everything : ScanSettings where
  respectIgnore := false
  includeHidden := true

theorem nested_isTree : nested.IsTree := by
  refine .directory (by decide) fun name child member => ?_
  simp only [List.mem_cons, Prod.mk.injEq, List.not_mem_nil, or_false] at member
  rcases member with ⟨-, rfl⟩ | ⟨-, rfl⟩
  · exact .file _
  · refine .directory (by decide) fun name child member => ?_
    obtain ⟨-, rfl⟩ := Prod.mk.inj (List.mem_singleton.mp member)
    exact .file _

theorem follow_dashed : dashed.follow Disk.maxLinks [] ["-"] = .ok (["-"], nested) := by
  have short : ¬Disk.maxName < "-".utf8ByteSize := by decide +kernel
  simp [Disk.follow, dashed, nested, Entry.at?, Entry.isDirectory, Entry.child?, short]

theorem dashed_resolve : dashed.resolve "-" = .ok (["-"], nested) := by
  have parts : Text.split '/' "-" = ["-"] := by decide +kernel
  unfold Disk.resolve
  rw [if_neg (by decide +kernel), if_neg (by decide +kernel), if_neg (by decide +kernel), parts]
  exact follow_dashed

theorem dashed_resolve_below : dashed.resolve "./-" = .ok (["-"], nested) := by
  have parts : Text.split '/' "./-" = [".", "-"] := by decide +kernel
  unfold Disk.resolve
  rw [if_neg (by decide +kernel), if_neg (by decide +kernel), if_neg (by decide +kernel), parts, ← follow_dashed,
    Disk.follow]
  rfl

theorem nested_below_found :
    Path.isStandardInput "./-" = false ∧
      (∃ f ∈ files dashed everything [] "./-", f.names = ["a", "z.py"]) ∧
      (∃ f ∈ files dashed everything [] "./-", f.names = ["a.py"]) ∧
      (files dashed everything [] "./-").Pairwise (fun f g => Precedes f.names g.names) ∧
      (files dashed {} [] "./-").Sublist (files dashed everything [] "./-") := by
  obtain ⟨-, -, ascending, -, complete⟩ :=
    files_of_tree dashed_resolve_below nested_isTree everything everything rfl rfl []
  obtain ⟨-, -, -, sublist, -⟩ :=
    files_of_tree dashed_resolve_below nested_isTree {} everything rfl rfl []
  have walked : Path.isStandardInput "./-" = false := by decide +kernel
  have all := complete.mpr fun input => absurd (input.symm.trans walked) (by decide)
  exact ⟨walked, all ["a", "z.py"] .empty rfl, all ["a.py"] .empty rfl, ascending, sublist⟩

/-- The same directory under its bare name: it stands there and holds files, and a scan finds none. -/
theorem nested_missed :
    dashed.resolve "-" = .ok (["-"], nested) ∧ nested.IsTree ∧ everything.respectIgnore = false ∧
      everything.includeHidden = true ∧
      ¬∀ names content, nested.at? names = some (.file content) →
        ∃ f ∈ files dashed everything [] "-", f.names = names := by
  refine ⟨dashed_resolve, nested_isTree, rfl, rfl, fun complete => ?_⟩
  obtain ⟨f, found, -⟩ := complete ["a.py"] .empty rfl
  rw [files_of_standardInput (by decide +kernel)] at found
  cases found

end Scan

end DeclSplit
