import SqlQuery.Proofs.Query.Interpretation
import SqlQuery.Proofs.Render.Termination

/-!
Results that later bindings leave as they are. Main statement: a type, a schema or a text that was
found in a store is found in every store that binds further placeholders.
-/

namespace SqlQuery

namespace Rendering

variable {α : Type}

/-- A text that the first step writes, with what it gathers, is what the second one writes. -/
def KeptIn (x y : Rendering α) : Prop :=
  ∀ draft a final, x.outcome draft = (.ok a, final) → y.outcome draft = (.ok a, final)

theorem KeptIn.congruence : Congruence fun _ => KeptIn where
  refl x _ _ _ written := written
  bind first rest := by
    intro draft b final written
    obtain ⟨a, middle, firstWritten, restWritten⟩ := ExceptT.outcome_bind_eq_ok.mp written
    apply ExceptT.outcome_bind_eq_ok.mpr
    exact ⟨a, middle, first draft a middle firstWritten,
      rest draft a middle firstWritten middle b final restWritten⟩

theorem KeptIn.lift {result later : Except Error α} (kept : result.KeptIn later) :
    KeptIn (liftM result) (liftM later) := by
  intro draft a final written
  rw [ExceptT.outcome_lift] at written ⊢
  obtain ⟨found, rfl⟩ := Prod.mk.inj written
  rw [kept a found]

end Rendering

open Rendering (KeptIn)

section

variable {store later : Store}

theorem Settings.links_keptIn (within : store.Within later) (settings : Settings) (depth : Nat)
    (outer : Scope) (steps : List Step) :
    (settings.links store depth).Related (fun _ => KeptIn) (settings.links later depth) outer
      steps := by
  -- One link more is followed on both sides, to the same expression or parameter.
  induction depth generalizing outer steps with
  | zero =>
      apply Links.related_of_forall
      · intro id name ctx
        apply KeptIn.congruence.each
        · exact KeptIn.congruence.followed (.lift (within.resolve id name))
        · intro _
          exact KeptIn.congruence.refl _
      · intro name ctx
        exact KeptIn.congruence.refl _
  | succ depth ih =>
      apply Links.related_of_forall
      · intro id name ctx
        apply KeptIn.congruence.each (.lift (within.resolve id name))
        intro e
        exact KeptIn.congruence.render (.expr e) ctx (ih _ _)
      · intro name ctx
        apply KeptIn.congruence.each (KeptIn.congruence.refl _)
        intro node
        exact KeptIn.congruence.render node ctx (ih _ _)

theorem Node.compileWithin_keptIn (within : store.Within later) (settings : Settings) (node : Node)
    (depth : Nat) :
    (node.compileWithin depth store settings).KeptIn
      (node.compileWithin depth later settings) := by
  intro text compiled
  obtain ⟨body, draft, written, rfl⟩ := Node.compileWithin_eq_ok.mp compiled
  have kept := KeptIn.congruence.renderRoot node settings.context
    (settings.links_keptIn within depth _ _)
  exact Node.compileWithin_eq_ok.mpr ⟨body, draft, kept {} body draft written, rfl⟩

theorem Node.compile_eq_ok_of_compileWithin {settings : Settings} {node : Node} {depth : Nat}
    {text : String} (compiled : node.compileWithin depth store settings = .ok text) :
    node.compile store settings = .ok text := by
  have ended : node.compileWithin depth store settings ≠ .error .unending := by
    rw [compiled]
    intro impossible
    cases impossible
  have straight : node.compile store settings ≠ .error .unending := by
    intro unending
    have loops := Node.compile_eq_unending_iff.mp unending
    exact ended (Node.compileWithin_eq_unending_iff.mpr (loops.runs _))
  rcases Nat.le_total depth (settings.depth store) with le | le
  · rw [Node.compile, Node.compileWithin_of_le le ended, compiled]
  · rw [← compiled, Node.compileWithin_of_le le straight, Node.compile]

theorem Node.compile_keptIn (within : store.Within later) (settings : Settings) (node : Node) :
    (node.compile store settings).KeptIn (node.compile later settings) := by
  intro text compiled
  exact Node.compile_eq_ok_of_compileWithin
    (Node.compileWithin_keptIn within settings node _ text compiled)

/-- Later bindings change no result: whatever has a type, a schema or a text in a store has the
same one in a store that binds further placeholders. -/
theorem Store.Within.keeps_results (within : store.Within later) :
    (∀ e t, Expr.type store e = .ok t → e.type later = .ok t) ∧
    (∀ r schema, Relation.schema store r = .ok schema → r.schema later = .ok schema) ∧
    ∀ node settings text, Node.compile store settings node = .ok text →
      node.compile later settings = .ok text :=
  ⟨fun e => e.typeIn_kept within.meaning, fun r => r.schemaIn_kept within.meaning,
    fun node settings => node.compile_keptIn within settings⟩

end

/-! Amounts of orders, while another placeholder is bound. -/

namespace OrderAmounts

def orders : Relation := .table ⟨⟨0⟩, .orders, some { columns := [("amount", .integer)] }⟩

def amount : Expr := .placeholder ⟨0⟩ "amount"

def amounts : Relation := .select { id := ⟨1⟩, table := some orders, columns := some [amount] }

def store : Store :=
  { relations := 2, placeholders := 2, bindings := [(⟨0⟩, .column ⟨orders, "amount"⟩)] }

def later : Store := store.bind ⟨1⟩ (.column ⟨amounts, "amount"⟩)

end OrderAmounts

open OrderAmounts in
theorem keeps_results_of_amounts :
    amount.type later = .ok (.semantic .integer) ∧
    amounts.schema later = .ok (some { columns := [("amount", .integer)] }) ∧
    (Node.relation amounts).compile later { dialect := .duckDB } =
      .ok "SELECT \"amount\" FROM \"orders\"" := by
  have within : store.Within later := by
    intro id e binding
    rw [Store.binding?] at binding ⊢
    exact (List.lookup_append ..).trans (by rw [binding]; rfl)
  obtain ⟨types, schemas, texts⟩ := within.keeps_results
  exact ⟨types _ _ rfl, schemas _ _ rfl, texts _ _ _ rfl⟩

end SqlQuery
