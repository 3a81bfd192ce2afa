import DeclSplit.Scan

/-!
Where a scan finds files: the path of a file is the path of the root, continued with the names that lead
to the file from there.
-/

namespace DeclSplit.Scan

/-- A path that continues another with names. -/
def Continues (root path : String) (names : List String) : Prop :=
  path = names.foldl Path.join root

variable {disk : Disk} {settings : ScanSettings} {onLink : Stop → String → List Found} {root : String}
  {stop : Stop}

theorem Continues.join {path name : String} {names : List String} (continues : Continues root path names) :
    Continues root (Path.join path name) (names ++ [name]) := by
  unfold Continues
  rw [List.foldl_append, ← continues]
  rfl

theorem mem_inOrder {found : List (String × List Found)} {f : Found} :
    f ∈ inOrder found ↔ ∃ name files, (name, files) ∈ found ∧ f ∈ files := by
  simp [inOrder]

theorem continues_of_mem_file (continues : Continues root stop.path stop.names) {name : String} {f : Found}
    (found : f ∈ file settings stop name) : Continues root f.path f.names := by
  unfold file at found
  split at found
  · rw [List.mem_singleton] at found
    subst found
    exact continues.join
  · cases found

mutual

theorem continues_of_mem_visit
    (links : ∀ {stop name f}, Continues root stop.path stop.names → f ∈ onLink stop name →
      Continues root f.path f.names)
    (stop : Stop) (continues : Continues root stop.path stop.names) (name : String) :
    ∀ (entry : Entry) {f : Found}, f ∈ visit disk settings onLink stop name entry →
      Continues root f.path f.names
  | .file _, _, found => continues_of_mem_file continues found
  | .link _, _, found => links continues found
  | .directory entries, f, found => by
    unfold visit at found
    split at found
    · obtain ⟨child, held, listed, found⟩ := mem_inOrder.mp found
      exact continues_of_mem_visitAll links (stop.enter disk name (stop.place ++ [name])) continues.join
        entries listed found
    · cases found

theorem continues_of_mem_visitAll
    (links : ∀ {stop name f}, Continues root stop.path stop.names → f ∈ onLink stop name →
      Continues root f.path f.names)
    (stop : Stop) (continues : Continues root stop.path stop.names) :
    ∀ (entries : List (String × Entry)) {name : String} {files : List Found} {f : Found},
      (name, files) ∈ visitAll disk settings onLink stop entries → f ∈ files →
        Continues root f.path f.names
  | (child, entry) :: rest, name, files, f, listed, found => by
    rw [visitAll, List.mem_cons] at listed
    rcases listed with head | tail
    · cases head
      exact continues_of_mem_visit links stop continues _ entry found
    · exact continues_of_mem_visitAll links stop continues rest tail found

end

theorem continues_of_mem_throughLink (depth : Nat) {stop : Stop} {name : String} {f : Found}
    (continues : Continues root stop.path stop.names) (found : f ∈ throughLink disk settings depth stop name) :
    Continues root f.path f.names := by
  induction depth generalizing stop name f with
  | zero => cases found
  | succ depth ih =>
    unfold throughLink at found
    split at found
    · exact continues_of_mem_file continues found
    · rename_i place entries _
      split at found
      · cases found
      · obtain ⟨child, held, listed, found⟩ := mem_inOrder.mp found
        exact continues_of_mem_visitAll ih (stop.enter disk name place) continues.join entries listed found
    · cases found

/-- The names of a file lead to it from the root of the scan. -/
theorem continues_of_mem_files {userRules : List Ignore.Rule} {f : Found}
    (found : f ∈ files disk settings userRules root) : Continues root f.path f.names := by
  unfold files at found
  split at found
  · cases found
  · split at found
    · rw [List.mem_singleton] at found
      subst found
      rfl
    · rename_i place entries _
      obtain ⟨child, held, listed, found⟩ := mem_inOrder.mp found
      refine continues_of_mem_visitAll ?_ _ (by rfl) entries listed found
      intro stop name f continues linked
      split at linked
      · exact continues_of_mem_throughLink _ continues linked
      · cases linked
    · cases found

end DeclSplit.Scan
