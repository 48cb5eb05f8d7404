import SqlQuery.Binary
import SqlQuery.Builder.Basic
import SqlQuery.Builder.Expr
import SqlQuery.Builder.Relation
import SqlQuery.Builder.Statement
import SqlQuery.Calendar
import SqlQuery.Database
import SqlQuery.Database.Recorder
import SqlQuery.Decimal.Notation
import SqlQuery.Decimal.Shortest
import SqlQuery.Dialect
import SqlQuery.Dialect.DuckDB
import SqlQuery.DuckDB.Cell
import SqlQuery.DuckDB.Config
import SqlQuery.DuckDB.Connection
import SqlQuery.DuckDB.Script
import SqlQuery.Error
import SqlQuery.ExprType
import SqlQuery.ExprType.Unify
import SqlQuery.Operator
import SqlQuery.Path
import SqlQuery.Query
import SqlQuery.Query.Equality
import SqlQuery.Query.Statement
import SqlQuery.Query.Summary
import SqlQuery.Query.Typing
import SqlQuery.Query.Walk
import SqlQuery.Render.Compile
import SqlQuery.Render.Context
import SqlQuery.Render.Query
import SqlQuery.Render.Statement
import SqlQuery.Schema
import SqlQuery.SemanticType
import SqlQuery.Store
import SqlQuery.Text.Blank
import SqlQuery.Text.Digit
import SqlQuery.Text.Escaped
import SqlQuery.Text.Hex
import SqlQuery.Text.Printable
import SqlQuery.Value
import SqlQuery.Proofs.Query.Induction
import SqlQuery.Proofs.Render.Equations
import SqlQuery.Proofs.Render.Outcome
import SqlQuery.Proofs.Render.Scope
import SqlQuery.Proofs.Render.JoinScope
import SqlQuery.Proofs.Render.Growth
import SqlQuery.Proofs.Render.JoinSources
import SqlQuery.Proofs.SetOperation.Reader
import SqlQuery.Proofs.SetOperation.Reading
import SqlQuery.Proofs.SetOperation.Grouping
import SqlQuery.Proofs.Rows.Ordering
import SqlQuery.Proofs.Rows.Select
import SqlQuery.Proofs.Rows.Layer
import SqlQuery.Proofs.Query.Resolved
import SqlQuery.Proofs.Query.Size
import SqlQuery.Proofs.Query.Mention
import SqlQuery.Proofs.Query.Substitution
import SqlQuery.Proofs.Render.Resolved
import SqlQuery.Proofs.Builder.Binding
import SqlQuery.Proofs.Builder.Resolution
import SqlQuery.Proofs.Builder.Construction
import SqlQuery.Proofs.Render.Substitution
import SqlQuery.Proofs.Render.Drawing
import SqlQuery.Proofs.Render.Renaming
import SqlQuery.Proofs.Render.Reference
import SqlQuery.Proofs.Render.Parameters
import SqlQuery.Proofs.Render.Passage
import SqlQuery.Proofs.Render.Written
import SqlQuery.Proofs.Render.Definition
import SqlQuery.Proofs.Render.WithClause
import SqlQuery.Proofs.Text.Quoted
import SqlQuery.Proofs.Dialect.Literal
import SqlQuery.Proofs.Dialect.TypeNames
import SqlQuery.Proofs.Dialect.LiteralForms
import SqlQuery.Proofs.Dialect.Rows
import SqlQuery.Proofs.Text.Scan
import SqlQuery.Proofs.Dialect.Identifier
import SqlQuery.Proofs.Render.Operators
import SqlQuery.Proofs.Render.Formula
import SqlQuery.Proofs.Render.Distinctness
import SqlQuery.Proofs.Text.Comments
import SqlQuery.Proofs.Render.Signs
import SqlQuery.Proofs.Render.NeatText
import SqlQuery.Proofs.Render.ExprComments
import SqlQuery.Proofs.Render.RelationComments
import SqlQuery.Proofs.Render.Comments
import SqlQuery.Proofs.Render.Approximation
import SqlQuery.Proofs.Render.Trace
import SqlQuery.Proofs.Render.Events
import SqlQuery.Proofs.Render.Termination
import SqlQuery.Proofs.DuckDB.LifeCycle
import SqlQuery.Proofs.Render.GeneratedNames
import SqlQuery.Proofs.DuckDB.Routing
import SqlQuery.Proofs.Render.Embedding
import SqlQuery.Proofs.Builder.Layers
import SqlQuery.Proofs.Query.Interpretation
import SqlQuery.Proofs.Render.Stability
import SqlQuery.Proofs.Builder.Identity
import SqlQuery.Proofs.Builder.Filters
import SqlQuery.Proofs.Query.Names
import SqlQuery.Proofs.Query.Columns
import SqlQuery.Proofs.Query.Width
import SqlQuery.Proofs.Render.Mismatch
import SqlQuery.Proofs.Builder.Transparency
import SqlQuery.Proofs.Builder.NameResolution
import SqlQuery.Proofs.Builder.FailedCalls
import SqlQuery.Proofs.ExprType.Merging
import SqlQuery.Proofs.Database.Batches
import SqlQuery.Proofs.Render.SourceNames
import SqlQuery.Proofs.Query.Joined
import SqlQuery.Proofs.Builder.Qualification
import SqlQuery.Proofs.Rows.Grouping
import SqlQuery.Proofs.Query.Throughout
import SqlQuery.Proofs.Render.SelectLists
import SqlQuery.Proofs.Builder.SelectLists
import SqlQuery.Proofs.Query.Preorder
import SqlQuery.Proofs.Schema.Insertions
import SqlQuery.Proofs.Schema.DottedPaths
import SqlQuery.Proofs.Calendar
import SqlQuery.Proofs.DuckDB.Timestamps
