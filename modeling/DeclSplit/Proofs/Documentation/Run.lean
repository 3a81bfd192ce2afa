import DeclSplit.Proofs.Documentation
import DeclSplit.Proofs.Text.Blank
import Mathlib.Data.List.Forall2

/-!
Runs of comments. The comments that document a declaration are the longest run of siblings directly before
its anchor that are comments and stand on rows one below the other. Two anchors that are no comments have
no comment of their runs in common, as the one in between ends the run of the other.
-/

namespace DeclSplit

open Cursor

/-- `near` starts on the row below that of `far`. -/
def Node.RowBelow (near far : Node) : Prop := far.span.startRow + 1 = near.span.startRow

namespace Documentation

/-! ### The longest run -/

/-- The first `k` of some siblings, nearest first, are comments, and each starts on the row below that of the
next one. -/
structure IsRun (before : List Node) (k : Nat) : Prop where
  nonempty : 1 ≤ k
  within : k ≤ before.length
  comments : ∀ n ∈ before.take k, n.isComment = true
  stacked : (before.take k).IsChain Node.RowBelow

/-- A run that no run is longer than. -/
structure IsLongestRun (before : List Node) (k : Nat) : Prop extends IsRun before k where
  longest : ∀ j, IsRun before j → j ≤ k

theorem IsLongestRun.unique {before : List Node} {j k : Nat} (hj : IsLongestRun before j)
    (hk : IsLongestRun before k) : j = k :=
  Nat.le_antisymm (hk.longest j hj.toIsRun) (hj.longest k hk.toIsRun)

/-- There are no more nodes on rows one above the other than there are rows. -/
theorem length_le_of_stacked {near : Node} {run : List Node} (stacked : (near :: run).IsChain Node.RowBelow) :
    run.length ≤ near.span.startRow := by
  induction run generalizing near with
  | nil => exact Nat.zero_le _
  | cons far run ih =>
    obtain ⟨below, rest⟩ := List.isChain_cons_cons.mp stacked
    have shorter := ih rest
    simp only [Node.RowBelow] at below
    simp only [List.length_cons]
    omega

theorem IsRun.le_rows {nearest : Node} {before : List Node} {k : Nat} (run : IsRun before k)
    (first : nearest ∈ before.head?) : k ≤ nearest.span.startRow + 1 := by
  obtain ⟨rest, rfl⟩ := List.head?_eq_some_iff.mp first
  obtain ⟨j, rfl⟩ := Nat.exists_eq_add_of_le' run.nonempty
  have within := run.within
  have shorter := length_le_of_stacked (by simpa using run.stacked)
  simp only [List.length_cons, List.length_take] at within shorter
  omega

theorem isChain_extendRun (last : Node) (before : List Node) : (last :: extendRun last before).IsChain Node.RowBelow := by
  fun_induction extendRun last before with
  | case1 last => exact .singleton last
  | case2 last next rest fits ih =>
    obtain ⟨-, below⟩ := Bool.and_eq_true_iff.mp fits
    exact .cons_cons (beq_iff_eq.mp below) ih
  | case3 last => exact .singleton last

/-- Comments that continue a run upwards are taken, however many there are. -/
theorem length_le_extendRun {last : Node} {before run : List Node} (nearest : run <+: before)
    (comments : ∀ n ∈ run, n.isComment = true) (stacked : (last :: run).IsChain Node.RowBelow) :
    run.length ≤ (extendRun last before).length := by
  fun_induction extendRun last before generalizing run with
  | case1 => exact nearest.length_le
  | case2 last next rest fits ih =>
    rcases List.prefix_cons_iff.mp nearest with rfl | ⟨run, rfl, nearer⟩
    · exact Nat.zero_le _
    · have rest := ih nearer (fun n member => comments n (List.mem_cons_of_mem _ member))
        (List.isChain_cons_cons.mp stacked).2
      exact Nat.succ_le_succ rest
  | case3 last next rest stops =>
    rcases List.prefix_cons_iff.mp nearest with rfl | ⟨run, rfl, -⟩
    · exact Nat.le_refl _
    · -- The run would go on with `next`, at which `extendRun` stops.
      have comment := comments next List.mem_cons_self
      have below := (List.isChain_cons_cons.mp stacked).1
      exact absurd (Bool.and_eq_true_iff.mpr ⟨comment, beq_iff_eq.mpr below⟩) stops

theorem isRun_commentRun {before : List Node} (exist : commentRun before ≠ []) :
    IsRun before (commentRun before).length := by
  have taken := (List.prefix_iff_eq_take.mp (commentRun_isPrefix before)).symm
  refine ⟨List.length_pos_of_ne_nil exist, (commentRun_isPrefix before).length_le, ?_, ?_⟩
  · rw [taken]
    exact fun n member => isComment_of_mem_commentRun member
  · rw [taken]
    fun_cases commentRun before with
    | case1 => exact .nil
    | case2 first rest comment => exact isChain_extendRun first rest
    | case3 first rest code => exact .nil

/-- The comments at the head of a list of siblings are the longest run there. -/
theorem isLongestRun_commentRun {before : List Node} (exist : commentRun before ≠ []) :
    IsLongestRun before (commentRun before).length := by
  refine ⟨isRun_commentRun exist, fun j run => ?_⟩
  obtain ⟨k, rfl⟩ := Nat.exists_eq_add_of_le' run.nonempty
  have within := run.within
  cases before with
  | nil => cases within
  | cons first rest =>
    have comments := run.comments
    have stacked := run.stacked
    rw [List.take_succ_cons] at comments stacked
    have shape : commentRun (first :: rest) = first :: extendRun first rest := if_pos (comments first List.mem_cons_self)
    have longer := length_le_extendRun (List.take_prefix k rest)
      (fun n member => comments n (List.mem_cons_of_mem _ member)) stacked
    simp only [List.length_take, List.length_cons, shape] at longer within ⊢
    omega

theorem commentRun_eq_nil_iff {before : List Node} :
    commentRun before = [] ↔ ∀ nearest ∈ before.head?, nearest.isComment = false := by
  cases before with
  | nil => simp [commentRun]
  | cons first rest =>
    by_cases comment : first.isComment = true
    · simp [commentRun, comment]
    · simp [commentRun, comment]

/-! ### What a run says -/

/-- Documentation that a run of comments, nearest first, makes up: it starts where the last of them does, and
its text has the line of each of them, from the last to the first. -/
structure MadeOf (source : String) (run : List Node) (docs : Documentation) : Prop where
  leading : ∃ top, run.getLast? = some top ∧ docs.leading = some ⟨top.span.startByte, top.span.startRow⟩
  text : ∃ lines, List.Forall₂ (fun n line => Text.IsLineOf (n.text source) line) run.reverse lines ∧
    docs.text = "\n".intercalate lines

section
variable {language : Language} {source : String} {c : Cursor}

theorem find?_eq_none_iff (adjacent : DocFamily.ofLanguage language = .adjacentComments) :
    find? language source c = none ↔ ∀ nearest ∈ (anchor c).preceding.head?, nearest.isComment = false := by
  rw [← commentRun_eq_nil_iff]
  simp [find?, adjacent, leadingComments]

/-- Documentation above a declaration is made up by the comments of the declaration, and these are the longest
run there. -/
theorem madeOf_longest_run (adjacent : DocFamily.ofLanguage language = .adjacentComments) {docs : Documentation}
    (found : find? language source c = some docs) :
    ∃ k, IsLongestRun (anchor c).preceding k ∧ docs.MadeOf source ((anchor c).preceding.take k) ∧
      (comments language c).map (·.node) = (anchor c).preceding.take k := by
  rw [find?, adjacent] at found
  obtain ⟨top, last, rfl⟩ := Option.map_eq_some_iff.mp found
  have exist : commentRun (anchor c).preceding ≠ [] := List.ne_nil_of_mem (List.mem_of_getLast? last)
  refine ⟨_, isLongestRun_commentRun exist, ?_⟩
  rw [← List.prefix_iff_eq_take.mp (commentRun_isPrefix (anchor c).preceding)]
  refine ⟨⟨⟨top, last, rfl⟩, _, ?_, rfl⟩, map_node_comments adjacent c⟩
  rw [List.forall₂_map_right_iff, List.forall₂_same]
  exact fun n _ => Text.isLineOf_trimLineEnd (n.text source)

end

/-! ### Two runs -/

theorem IsRun.isComment {c x : Cursor} {k : Nat} (run : IsRun c.preceding k) (member : x ∈ c.siblingsBefore.take k) :
    x.node.isComment = true := by
  apply run.comments
  rw [← map_node_siblingsBefore, ← List.map_take]
  exact List.mem_map_of_mem member

theorem IsRun.disjoint {root : Node} {y z : Cursor} {j k : Nat} (runY : IsRun y.preceding j)
    (runZ : IsRun z.preceding k) (hy : Below (.ofRoot root) y) (hz : Below (.ofRoot root) z) (different : y ≠ z)
    (codeY : y.node.isComment = false) (codeZ : z.node.isComment = false) :
    (y.siblingsBefore.take j).Disjoint (z.siblingsBefore.take k) := by
  intro x inY inZ
  have beforeY := List.mem_of_mem_take inY
  have beforeZ := List.mem_of_mem_take inZ
  -- The one of the two that stands between the other and `x` would be a comment of the other's run.
  rcases siblings_of_common hy hz beforeY beforeZ with same | left | left
  · exact different same
  · have between := runZ.isComment (mem_of_nearer (List.take_prefix k _) inZ left beforeY)
    rw [codeY] at between
    cases between
  · have between := runY.isComment (mem_of_nearer (List.take_prefix j _) inY left beforeZ)
    rw [codeZ] at between
    cases between

/-- Where comments document what is below them, a declaration has no documentation exactly if the sibling
before its anchor is no comment or is not there. Else there is one longest run of comments before the anchor,
and it makes up the documentation; it has at most one comment for each row down to that of the nearest. Runs
before different anchors that are no comments themselves have no comment in common. -/
theorem docs_are_longest_run (language : Language) (adjacent : DocFamily.ofLanguage language = .adjacentComments)
    (source : String) {root : Node} {c : Cursor} (inside : c ∈ (ofRoot root).preorder) :
    (find? language source c = none ↔ ∀ nearest ∈ (anchor c).preceding.head?, nearest.isComment = false) ∧
      (∀ nearest ∈ (anchor c).preceding.head?, nearest.isComment = true →
        ∃ k docs, IsLongestRun (anchor c).preceding k ∧ (∀ j, IsLongestRun (anchor c).preceding j → j = k) ∧
          find? language source c = some docs ∧ docs.MadeOf source ((anchor c).preceding.take k) ∧
          k ≤ nearest.span.startRow + 1) ∧
      ∀ d ∈ (ofRoot root).preorder, anchor c ≠ anchor d →
        (anchor c).node.isComment = false → (anchor d).node.isComment = false →
        ∀ j k, IsLongestRun (anchor c).preceding j → IsLongestRun (anchor d).preceding k →
          ((anchor c).siblingsBefore.take j).Disjoint ((anchor d).siblingsBefore.take k) := by
  refine ⟨find?_eq_none_iff adjacent, ?_, ?_⟩
  · intro nearest first comment
    have present : find? language source c ≠ none := by
      intro absent
      rw [(find?_eq_none_iff adjacent).mp absent nearest first] at comment
      cases comment
    obtain ⟨docs, found⟩ := Option.ne_none_iff_exists'.mp present
    obtain ⟨k, run, made, -⟩ := madeOf_longest_run adjacent found
    exact ⟨k, docs, run, fun j other => other.unique run, found, made, run.le_rows first⟩
  · intro d insideD different codeC codeD j k runC runD
    have belowC := (mem_preorder_iff.mp inside).above (anchor_mem_lineage c)
    have belowD := (mem_preorder_iff.mp insideD).above (anchor_mem_lineage d)
    exact runC.toIsRun.disjoint runD.toIsRun belowC belowD different codeC codeD

end Documentation

/-! ### Two functions with comments above them -/

/-- A function below two comments, with a third one farther up, and an exported function below another. -/
def stackedSource : String :=
  "// a\n\n// b\n// c\nfunction f() \x7b\x7d\n// d\nexport function g() \x7b\x7d\n"

def stackedFunction (start row : Nat) : Node :=
  ⟨"function_declaration", true, ⟨start, start + 15, row, row⟩, [("body", 3), ("name", 1), ("parameters", 2)],
    [.token "function" false start (start + 8) row, .token "identifier" true (start + 9) (start + 10) row,
      .token "formal_parameters" true (start + 10) (start + 12) row,
      .token "statement_block" true (start + 13) (start + 15) row]⟩

/-- The statement of `stackedSource` that exports the second function. -/
def stackedExport : Node :=
  ⟨"export_statement", true, ⟨37, 59, 6, 6⟩, [("declaration", 1)],
    [.token "export" false 37 43 6, stackedFunction 44 6]⟩

def stackedTree : Node :=
  ⟨"program", true, ⟨0, 60, 0, 7⟩, [],
    [.token "comment" true 0 4 0, .token "comment" true 6 10 2, .token "comment" true 11 15 3, stackedFunction 16 4,
      .token "comment" true 32 36 5, stackedExport]⟩

def stackedFirst : Cursor :=
  ⟨stackedFunction 16 4,
    [⟨stackedTree, [.token "comment" true 11 15 3, .token "comment" true 6 10 2, .token "comment" true 0 4 0]⟩]⟩

def stackedSecond : Cursor :=
  ⟨stackedFunction 44 6,
    [⟨stackedExport, [.token "export" false 37 43 6]⟩,
      ⟨stackedTree, [.token "comment" true 32 36 5, stackedFunction 16 4, .token "comment" true 11 15 3,
        .token "comment" true 6 10 2, .token "comment" true 0 4 0]⟩]⟩

namespace Documentation

theorem stackedFirst_below : Below (.ofRoot stackedTree) stackedFirst :=
  .single ⟨rfl⟩

theorem stackedSecond_below : Below (.ofRoot stackedTree) stackedSecond :=
  .head (b := ⟨stackedExport, stackedSecond.path.tail⟩) ⟨rfl⟩ (.single ⟨rfl⟩)

/-- The run of the first function ends at the empty row, and the second has a run of its own. -/
theorem stacked_longest_run :
    find? .javaScript stackedSource stackedFirst = some ⟨"// b\n// c", some ⟨6, 2⟩⟩ ∧
      (∃ k docs, IsLongestRun (anchor stackedFirst).preceding k ∧
        find? .javaScript stackedSource stackedFirst = some docs ∧
        docs.MadeOf stackedSource ((anchor stackedFirst).preceding.take k) ∧ k ≤ 4) ∧
      anchor stackedFirst ≠ anchor stackedSecond ∧
      ∀ j k, IsLongestRun (anchor stackedFirst).preceding j → IsLongestRun (anchor stackedSecond).preceding k →
        ((anchor stackedFirst).siblingsBefore.take j).Disjoint ((anchor stackedSecond).siblingsBefore.take k) := by
  have first := mem_preorder_iff.mpr stackedFirst_below
  have second := mem_preorder_iff.mpr stackedSecond_below
  have different : anchor stackedFirst ≠ anchor stackedSecond := by
    intro same
    have := congrArg (fun c => c.node.span.startByte) same
    revert this
    decide
  obtain ⟨-, found, apart⟩ := docs_are_longest_run .javaScript rfl stackedSource first
  obtain ⟨k, docs, longest, -, docsFound, made, bounded⟩ := found (.token "comment" true 11 15 3) rfl (by decide)
  exact ⟨by decide +kernel, ⟨k, docs, longest, docsFound, made, bounded⟩, different,
    apart stackedSecond second different (by decide) (by decide)⟩

end Documentation

end DeclSplit
