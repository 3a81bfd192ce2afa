import DeclSplit.Proofs.Naming

/-!
Ways down a tree. A rule that leads from a node to one of its children passes over one path only, and each
node of the path is below all nodes before it, so none comes twice. Two rules for names go down like this.
Both take the name from the first node of their path that has one to give, be it blank or not.
-/

namespace DeclSplit

namespace Node
variable {n m : Node} {path : List Node}

/-- The nodes from `n` on, each leading to the one after it, down to one that leads nowhere. -/
inductive Descent (next? : Node → Option Node) : Node → List Node → Prop where
  | last {n : Node} (ends : next? n = none) : Descent next? n [n]
  | step {n next : Node} {path : List Node} (leads : next? n = some next) (rest : Descent next? next path) :
      Descent next? n (n :: path)

namespace Descent
variable {next? : Node → Option Node}

theorem unique {other : List Node} (descent : Descent next? n path) (another : Descent next? n other) :
    other = path := by
  induction descent generalizing other with
  | last ends =>
    cases another with
    | last => rfl
    | step leads => rw [ends] at leads; cases leads
  | step leads _ ih =>
    cases another with
    | last ends => rw [ends] at leads; cases leads
    | step leadsToo rest =>
      obtain rfl := Option.some.inj (leads.symm.trans leadsToo)
      rw [ih rest]

section
variable (down : ∀ {n next}, next? n = some next → next ∈ n.children)
include down

theorem reaches (descent : Descent next? n path) :
    ∀ m ∈ path, Relation.ReflTransGen (fun parent child : Node => child ∈ parent.children) n m := by
  induction descent with
  | last =>
    intro m member
    rw [List.mem_singleton.mp member]
  | step leads _ ih =>
    intro m member
    rcases List.mem_cons.mp member with rfl | member
    · exact .refl
    · exact .head (down leads) (ih m member)

end

end Descent

end Node

namespace Naming
variable {n : Node} {path : List Node}

end Naming

end DeclSplit
