import SqlQuery.Proofs.Dialect.LiteralForms
import SqlQuery.Proofs.Render.Passage

/-!
Signs. The text of a node starts with one if a negative number stands at its start, and where such
a text is negated, two signs come together.
-/

namespace SqlQuery

section Parts

variable (store : Store) (settings : Settings)

def linkedNodes (target : Except Error Node) : List Node :=
  target.toOption.toList

def Expr.parts : Expr → List Node
  | .placeholder id name => linkedNodes ((store.resolve id name).map .expr)
  | .param name => linkedNodes (settings.param name)
  | .subquery r => [.relation r]
  | e => e.children.map .expr

def GroupingOf.parts (g : Grouping) : List Node :=
  match g.absorbed? with
  | some s =>
      g.outputs.map .expr ++ s.table.toList.map .relation ++
        (s.filters ++ g.having ++ s.orderBy).map .expr
  | none => g.outputs.map .expr ++ [.relation g.table] ++ g.having.map .expr

def Relation.parts (defined : Bool) : Relation → List Node
  | .table _ => []
  | .aliased a => [.relation a.source]
  | .join j => j.sources.map .relation ++ (j.on ++ j.columns.getD []).map .expr
  | .grouping g => g.parts
  | .setOperation o => [.relation o.left, .relation o.right]
  | .select s => s.exprs.map .expr ++ s.table.toList.map .relation
  | .cte c => if defined then [.relation c.source] else []
  | .param p => linkedNodes (settings.param p.name)

/-- The nodes whose texts are in the text of a node. What a relation in the WITH clause is `defined`
by counts as a part of it or does not. -/
def Node.parts (defined : Bool) : Node → List Node
  | .expr e => e.parts store settings
  | .relation r => r.parts settings defined
  | .statement s => s.sources.map .relation

namespace Node

/-- A node is inside another one, or behind its placeholders and parameters. -/
inductive Reaches (defined : Bool) : Node → Node → Prop
  | self (node) : Reaches defined node node
  | part {node part inner} (listed : part ∈ node.parts store settings defined)
      (within : Reaches defined part inner) : Reaches defined node inner

/-- A number with a sign stands at the start. -/
inductive Signed : Node → Prop
  | value {v : Value} (negative : v.isNegative = true) : Signed (.expr (.value v))
  | aliased {e name} (start : Signed (.expr e)) : Signed (.expr (.aliased e name))
  | isDistinctFrom {left right} (start : Signed (.expr left)) :
      Signed (.expr (.isDistinctFrom left right))
  | placeholder {id name e} (bound : store.resolve id name = .ok e) (start : Signed (.expr e)) :
      Signed (.expr (.placeholder id name))
  | param {name node} (given : settings.param name = .ok node) (start : Signed node) :
      Signed (.expr (.param name))
  | tableAlias {a} (start : Signed (.relation a.source)) : Signed (.relation (.aliased a))
  | tableParam {p node} (given : settings.param p.name = .ok node) (start : Signed node) :
      Signed (.relation (.param p))

/-- A negation stands before a sign somewhere in the text of the node, with the definitions of the
WITH clause or without them. -/
def DoublesSign (defined : Bool) (node : Node) : Prop :=
  ∃ e, node.Reaches store settings defined (.expr (.negate e)) ∧ Signed store settings (.expr e)

end Node

end Parts

namespace Node

variable {store : Store} {settings : Settings} {defined : Bool} {node part inner : Node}

theorem Reaches.mem_of_closed {nodes : List Node}
    (closed : ∀ node ∈ nodes, ∀ part ∈ node.parts store settings defined, part ∈ nodes)
    (within : node.Reaches store settings defined inner) (listed : node ∈ nodes) :
    inner ∈ nodes := by
  induction within with
  | self => exact listed
  | part isPart _ ih => exact ih (closed _ listed _ isPart)

/-- Without definitions it makes no difference whether they count. -/
theorem Reaches.undefined
    (undefined : ∀ c, ¬ node.Reaches store settings true (.relation (.cte c)))
    (within : node.Reaches store settings true inner) :
    node.Reaches store settings false inner := by
  induction within with
  | self => exact .self _
  | @part node part inner listed _ ih =>
      refine .part ?_ (ih fun c reached => undefined c (.part listed reached))
      cases node with
      | expr e => exact listed
      | statement s => exact listed
      | relation r =>
          cases r with
          | cte c => exact absurd (.self _) (undefined c)
          | _ => exact listed

namespace DoublesSign

theorem here {e : Expr} (signed : Signed store settings (.expr e)) :
    DoublesSign store settings defined (.expr (.negate e)) :=
  ⟨e, .self _, signed⟩

theorem inside (listed : part ∈ node.parts store settings defined)
    (doubles : part.DoublesSign store settings defined) :
    node.DoublesSign store settings defined := by
  obtain ⟨e, within, signed⟩ := doubles
  exact ⟨e, .part listed within, signed⟩

theorem cases_parts (doubles : node.DoublesSign store settings defined) :
    (∃ e, node = .expr (.negate e) ∧ Signed store settings (.expr e)) ∨
      ∃ part ∈ node.parts store settings defined, DoublesSign store settings defined part := by
  obtain ⟨e, within, signed⟩ := doubles
  cases within with
  | self => exact .inl ⟨e, rfl, signed⟩
  | part listed within => exact .inr ⟨_, listed, e, within, signed⟩

theorem undefined (none : ∀ c, ¬ node.Reaches store settings true (.relation (.cte c)))
    (doubles : node.DoublesSign store settings true) : node.DoublesSign store settings false := by
  obtain ⟨e, within, signed⟩ := doubles
  exact ⟨e, within.undefined none, signed⟩

end DoublesSign

end Node

end SqlQuery
