import Mathlib.Logic.Relation
import SqlQuery.Proofs.Query.Mention
import SqlQuery.Render.Compile

/-!
What placeholders and parameters lead to. The node that one of them stands for mentions others, and
so on; along a chain that does not come back to itself, fewer and fewer of them are left.
-/

open Relation (ReflTransGen TransGen)

namespace SqlQuery

section

open Classical

variable {α : Type} {r : α → α → Prop} {a b : α} {keys : List α}

/-- How many of the keys can be reached, the start included. -/
noncomputable def reachable (r : α → α → Prop) (keys : List α) (a : α) : Nat :=
  keys.countP fun key => ReflTransGen r a key

theorem reachable_le_length : reachable r keys a ≤ keys.length :=
  List.countP_le_length

theorem reachable_pos (listed : a ∈ keys) : 0 < reachable r keys a :=
  List.countP_pos_iff.mpr ⟨a, listed, decide_eq_true .refl⟩

theorem reachable_le_of_step (step : r a b) : reachable r keys b ≤ reachable r keys a := by
  apply List.countP_mono_left
  intro key _ reached
  exact decide_eq_true ((of_decide_eq_true reached).head step)

/-- A step that cannot be undone leaves its start behind. -/
theorem reachable_lt_of_step (acyclic : ¬ TransGen r a a) (step : r a b) (listed : a ∈ keys) :
    reachable r keys b < reachable r keys a := by
  obtain ⟨before, after, rfl⟩ := List.append_of_mem listed
  have lost : ¬ ReflTransGen r b a := fun back => acyclic (.head' step back)
  have start : ReflTransGen r a a := .refl
  have earlier : reachable r before b ≤ reachable r before a := reachable_le_of_step step
  have later : reachable r after b ≤ reachable r after a := reachable_le_of_step step
  simp only [reachable] at earlier later
  simp only [reachable, List.countP_append, List.countP_cons, lost, start, decide_false,
    decide_true, if_true, Bool.false_eq_true, if_false]
  omega

end

namespace Settings

variable (store : Store) (settings : Settings)

/-- The node that a placeholder or a parameter stands for. -/
def behind : Mention → Option Node
  | .placeholder id => (store.binding? id).map .expr
  | .param name => settings.params.bind (·.lookup name)
  | .tableParam name => settings.params.bind (·.lookup name)

theorem length_values_le_depth : (settings.values store).length ≤ settings.depth store :=
  Nat.le_mul_of_pos_right _ (Nat.pow_pos (by decide))

def Leads (m n : Mention) : Prop :=
  ∃ node, settings.behind store m = some node ∧ node.Mentions n

/-- What a node mentions, and what that leads to. -/
def Reaches (node : Node) (m : Mention) : Prop :=
  ∃ first, node.Mentions first ∧ ReflTransGen (settings.Leads store) first m

/-- Nothing that a node reaches leads back to itself. -/
def Acyclic (node : Node) : Prop :=
  ∀ m, settings.Reaches store node m → ¬ TransGen (settings.Leads store) m m

variable {store settings} {node : Node} {m n : Mention}

theorem reaches_of_mentions (mentioned : node.Mentions m) : settings.Reaches store node m :=
  ⟨m, mentioned, .refl⟩

theorem Reaches.step (reached : settings.Reaches store node m)
    (leads : settings.Leads store m n) : settings.Reaches store node n := by
  obtain ⟨first, mentioned, path⟩ := reached
  exact ⟨first, mentioned, path.tail leads⟩

theorem Acyclic.along (acyclic : settings.Acyclic store node)
    (reached : settings.Reaches store node m) :
    ∀ n, ReflTransGen (settings.Leads store) m n → ¬ TransGen (settings.Leads store) n n := by
  intro n path
  obtain ⟨first, mentioned, start⟩ := reached
  exact acyclic n ⟨first, mentioned, start.trans path⟩

/-- There is no way back along links on which a number falls. -/
theorem not_transGen_of_rank (rank : Mention → Nat)
    (falls : ∀ m n, settings.Leads store m n → rank n < rank m) (m : Mention) :
    ¬ TransGen (settings.Leads store) m m := by
  intro cycle
  have lower : ∀ n, TransGen (settings.Leads store) m n → rank n < rank m := by
    intro n path
    induction path with
    | single leads => exact falls _ _ leads
    | tail _ leads ih => exact Nat.lt_trans (falls _ _ leads) ih
  exact Nat.lt_irrefl _ (lower m cycle)

end Settings

end SqlQuery
