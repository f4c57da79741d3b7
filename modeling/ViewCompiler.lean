import ViewCompiler.Main
import ViewCompiler.Page.Basic
import ViewCompiler.Request.Search
import ViewCompiler.Scope.Check
import ViewCompiler.Service.Answer
import ViewCompiler.Proofs.Field.Edits
import ViewCompiler.Proofs.Filter.Agreement
import ViewCompiler.Proofs.Filter.Lexical
import ViewCompiler.Proofs.Filter.Missing
import ViewCompiler.Proofs.Filter.Wildcards
import ViewCompiler.Proofs.Page.Columns
import ViewCompiler.Proofs.Page.Exposure
import ViewCompiler.Proofs.Page.Flattening
import ViewCompiler.Proofs.Page.PickOrder
import ViewCompiler.Proofs.Page.Renaming
import ViewCompiler.Proofs.Query.Codec
import ViewCompiler.Proofs.Relation.Lineage
import ViewCompiler.Proofs.Relation.Reachable
import ViewCompiler.Proofs.Request.Counting
import ViewCompiler.Proofs.Request.Ordering
import ViewCompiler.Proofs.Request.References
import ViewCompiler.Proofs.Request.Routes
import ViewCompiler.Proofs.Request.Scope
import ViewCompiler.Proofs.Request.Scoring
import ViewCompiler.Proofs.Request.Search
import ViewCompiler.Proofs.Request.TieBreakers
import ViewCompiler.Proofs.Request.TimeWindow
import ViewCompiler.Proofs.Scope.Cycle
import ViewCompiler.Proofs.Service.Access
import ViewCompiler.Proofs.Service.Cursor
import ViewCompiler.Proofs.Service.PointInTime
import ViewCompiler.Proofs.Service.Refusal
import ViewCompiler.Proofs.Sql.Offset
import ViewCompiler.Proofs.Sql.Quote
import ViewCompiler.Proofs.Sql.Template
import ViewCompiler.Proofs.Sql.TopLevel
