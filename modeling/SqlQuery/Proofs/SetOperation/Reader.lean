import SqlQuery.Proofs.SetOperation.Tree

/-!
A reader for the set operations in a SQL query. It takes a text apart into words, quotations and
symbols, puts what stands in parentheses together, and looks for the operators at the top level
only. Queries with comments are refused.
-/

namespace SqlQuery.Reader

/-! Words, quotations and symbols. -/

inductive Mark where
  | single
  | double
  deriving DecidableEq, Repr

def Mark.char : Mark → Char
  | single => '\''
  | double => '"'

inductive Token where
  | word (letters : List Char)
  | quoted (mark : Mark) (text : List Char)
  | symbol (c : Char)
  deriving DecidableEq, Repr

/-- What the characters before belong to. Letters and quoted text are kept backwards. -/
inductive Mode where
  | between
  | word (letters : List Char)
  | quoted (mark : Mark) (text : List Char)
  /-- After a mark, which ends the quotation unless another one follows. -/
  | closing (mark : Mark) (text : List Char)
  | symbol (c : Char)

namespace Mode

def isLetter (c : Char) : Bool :=
  c.isAlphanum || c == '_'

def start (c : Char) : Mode :=
  if c = Mark.single.char then .quoted .single []
  else if c = Mark.double.char then .quoted .double []
  else if isLetter c then .word [c]
  else if c.isWhitespace then .between
  else .symbol c

/-- The tokens that a character ends, and what it belongs to itself. -/
def step : Mode → Char → Option (List Token × Mode)
  | between, c => some ([], start c)
  | word letters, c =>
      if isLetter c then some ([], .word (c :: letters))
      else some ([.word letters.reverse], start c)
  | quoted mark text, c =>
      some ([], if c = mark.char then .closing mark text else .quoted mark (c :: text))
  | closing mark text, c =>
      if c = mark.char then some ([], .quoted mark (c :: text))
      else some ([.quoted mark text.reverse], start c)
  | symbol d, c =>
      if d = '-' ∧ c = '-' ∨ d = '/' ∧ c = '*' then none else some ([.symbol d], start c)

def finish : Mode → Option (List Token)
  | between => some []
  | word letters => some [.word letters.reverse]
  | quoted _ _ => none
  | closing mark text => some [.quoted mark text.reverse]
  | symbol c => some [.symbol c]

end Mode

def tokens (mode : Mode) : List Char → Option (List Token)
  | [] => mode.finish
  | c :: rest => do
      let (ended, next) ← mode.step c
      return ended ++ (← tokens next rest)

/-- The end of a text ends what a blank ends. -/
theorem Mode.step_blank {mode : Mode} {ended : List Token} (finished : mode.finish = some ended) :
    mode.step ' ' = some (ended, .between) := by
  cases mode with
  | between =>
      cases finished
      rfl
  | word letters =>
      cases finished
      rfl
  | quoted mark text => cases finished
  | closing mark text =>
      cases finished
      cases mark <;> rfl
  | symbol c =>
      cases finished
      simp only [Mode.step, show (' ' = '-') = False by decide, show (' ' = '*') = False by decide,
        and_false, or_false, if_false]
      rfl

theorem tokens_cons {mode next : Mode} {c : Char} {ended : List Token}
    (stepped : mode.step c = some (ended, next)) (rest : List Char) :
    tokens mode (c :: rest) = (tokens next rest).map (ended ++ ·) := by
  rw [tokens, stepped, Option.map_eq_bind]
  rfl

theorem tokens_append_blank {mode : Mode} {text : List Char} {read : List Token}
    (reads : tokens mode text = some read) (rest : List Char) :
    tokens mode (text ++ ' ' :: rest) = (tokens .between rest).map (read ++ ·) := by
  induction text generalizing mode read with
  | nil => exact tokens_cons (Mode.step_blank reads) rest
  | cons c text ih =>
      cases stepped : mode.step c with
      | none =>
          rw [tokens, stepped] at reads
          cases reads
      | some pair =>
          obtain ⟨ended, next⟩ := pair
          rw [tokens_cons stepped, Option.map_eq_some_iff] at reads
          obtain ⟨later, inner, rfl⟩ := reads
          rw [List.cons_append, tokens_cons stepped, ih inner, Option.map_map]
          simp only [Function.comp_def, List.append_assoc]

/-! Parentheses. -/

inductive Item where
  | token (t : Token)
  | group (items : List Item)
  deriving Repr

/-- The items so far: those of each open parenthesis, from the inside to the outside, and those
around them all. All are kept backwards. -/
structure Nesting where
  inner : List (List Item) := []
  top : List Item := []

namespace Nesting

def push (n : Nesting) (item : Item) : Nesting :=
  match n.inner with
  | [] => { n with top := item :: n.top }
  | level :: inner => { n with inner := (item :: level) :: inner }

def step (n : Nesting) (t : Token) : Option Nesting :=
  if t = .symbol '(' then
    some { n with inner := [] :: n.inner }
  else if t = .symbol ')' then
    match n.inner with
    | [] => none
    | level :: inner => some ({ n with inner }.push (.group level.reverse))
  else
    some (n.push (.token t))

def after (n : Nesting) (base : List Item) : Nesting :=
  { n with top := n.top ++ base }

theorem push_after (n : Nesting) (base : List Item) (item : Item) :
    (n.after base).push item = (n.push item).after base := by
  obtain ⟨inner, top⟩ := n
  cases inner <;> rfl

theorem step_after (n : Nesting) (base : List Item) (t : Token) :
    (n.after base).step t = (n.step t).map (·.after base) := by
  by_cases opens : t = .symbol '('
  · simp only [step, if_pos opens]
    rfl
  · by_cases closes : t = .symbol ')'
    · simp only [step, if_neg opens, if_pos closes]
      obtain ⟨inner, top⟩ := n
      cases inner with
      | nil => rfl
      | cons level inner =>
          exact congrArg some (push_after ⟨inner, top⟩ base (.group level.reverse))
    · simp only [step, if_neg opens, if_neg closes, push_after]
      rfl

end Nesting

def nest (n : Nesting) : List Token → Option (List Item)
  | [] => if n.inner.isEmpty then some n.top.reverse else none
  | t :: rest => (n.step t).bind (nest · rest)

theorem nest_append {n : Nesting} {first : List Token} {items : List Item}
    (nests : nest n first = some items) (second : List Token) :
    nest n (first ++ second) = nest ⟨[], items.reverse⟩ second := by
  induction first generalizing n with
  | nil =>
      obtain ⟨inner, top⟩ := n
      cases inner with
      | nil =>
          cases nests
          rw [List.reverse_reverse]
          rfl
      | cons level inner => cases nests
  | cons t first ih =>
      rw [nest, Option.bind_eq_some_iff] at nests
      obtain ⟨next, stepped, nests⟩ := nests
      rw [List.cons_append, nest, stepped]
      exact ih nests

theorem nest_after (n : Nesting) (tokens : List Token) (base : List Item) :
    nest (n.after base) tokens = (nest n tokens).map (base.reverse ++ ·) := by
  induction tokens generalizing n with
  | nil =>
      obtain ⟨inner, top⟩ := n
      cases inner with
      | nil => exact congrArg some List.reverse_append
      | cons level inner => rfl
  | cons t tokens ih =>
      rw [nest, nest, Nesting.step_after]
      cases n.step t with
      | none => rfl
      | some next => exact ih next

def items (text : List Char) : Option (List Item) :=
  (tokens .between text).bind (nest {})

theorem items_append_blank {first : List Char} {read : List Item}
    (reads : items first = some read) (second : List Char) :
    items (first ++ ' ' :: second) = (items second).map (read ++ ·) := by
  obtain ⟨firstTokens, lexed, nested⟩ := Option.bind_eq_some_iff.mp reads
  rw [items, items, tokens_append_blank lexed]
  cases tokens .between second with
  | none => rfl
  | some secondTokens =>
      have shifted := nest_after {} secondTokens read.reverse
      rw [List.reverse_reverse] at shifted
      exact (nest_append nested secondTokens).trans shifted

/-! Queries. -/

/-- A query as it is read: a SELECT, the combination of two queries, or a query with the clauses
after it that order and limit its rows. -/
inductive SetQuery where
  | select (items : List Item)
  | combine (operator : SetOperator) (left right : SetQuery)
  | trailed (query : SetQuery) (clauses : List Item)

namespace Item

/-- Keywords are read in either case. -/
def isKeyword (keyword : String) : Item → Bool
  | token (.word letters) => letters.map Char.toUpper == keyword.toList
  | _ => false

def setOperator? (i : Item) : Option SetOperator :=
  if i.isKeyword "UNION" then some .union
  else if i.isKeyword "EXCEPT" then some .except
  else if i.isKeyword "INTERSECT" then some .intersect
  else none

/-- The first word of a clause that belongs to a query as a whole. -/
def isTrailer (i : Item) : Bool :=
  ["ORDER", "LIMIT", "OFFSET", "FETCH"].any i.isKeyword

end Item

/-- An item, and the query in it if it is one in parentheses. -/
abbrev Piece := Item × Option SetQuery

/-- UNION is another operator with ALL after it. -/
def withAll (operator : SetOperator) : List Piece → SetOperator × List Piece
  | [] => (operator, [])
  | p :: rest =>
      if operator = .union ∧ p.1.isKeyword "ALL" then (.unionAll, rest) else (operator, p :: rest)

def operands : List Piece → SetChain (List Piece)
  | [] => ⟨[], []⟩
  | p :: rest =>
      match p.1.setOperator? with
      | none => ⟨p :: (operands rest).first, (operands rest).others⟩
      | some operator => ⟨[], withAll operator (operands rest).first :: (operands rest).others⟩

def operandQuery : List Piece → Option SetQuery
  | [] => none
  | [(.group _, query)] => query
  | p :: rest =>
      if p.1.isKeyword "SELECT" then some (.select ((p :: rest).map Prod.fst)) else none

def SetQuery.withClauses (query : SetQuery) : List Item → SetQuery
  | [] => query
  | clauses => .trailed query clauses

def combined : SetTree SetQuery → SetQuery
  | .leaf query => query
  | .node operator left right => .combine operator (combined left) (combined right)

/-- Clauses at the end belong to the whole query, so that no operator comes after them. -/
def pieceQuery (pieces : List Piece) : Option SetQuery :=
  let body := pieces.takeWhile (!·.1.isTrailer)
  let clauses := pieces.dropWhile (!·.1.isTrailer)
  if clauses.any (·.1.setOperator?.isSome) then
    none
  else do
    let chain ← (operands body).mapM operandQuery
    return (combined chain.tree).withClauses (clauses.map Prod.fst)

mutual

def Item.query : Item → Option SetQuery
  | .token _ => none
  | .group items => pieceQuery (pieces items)

def pieces : List Item → List Piece
  | [] => []
  | i :: rest => (i, i.query) :: pieces rest

end

def query (text : String) : Option SetQuery :=
  (items text.toList).bind fun items => pieceQuery (pieces items)

end SqlQuery.Reader
