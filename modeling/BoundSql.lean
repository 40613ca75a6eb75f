import BoundSql.Run.Action
import BoundSql.Run.Script
import BoundSql.Config.Json
import BoundSql.Config.Toml
import BoundSql.Proofs.Bindings
import BoundSql.Proofs.Alignment
import BoundSql.Proofs.Filters
import BoundSql.Proofs.Failures
import BoundSql.Proofs.Congruence
import BoundSql.Proofs.Outline
import BoundSql.Proofs.Subqueries
import BoundSql.Proofs.Lexemes
import BoundSql.Proofs.Containment
import BoundSql.Proofs.Collecting
import BoundSql.Proofs.Runs
import BoundSql.Proofs.Commuting
import BoundSql.Proofs.Nesting
import BoundSql.Proofs.Aggregates
import BoundSql.Proofs.Batches
import BoundSql.Proofs.Sending
import BoundSql.Proofs.History
import BoundSql.Proofs.Rounding
import BoundSql.Proofs.IntegerTexts
import BoundSql.Proofs.Literals
import BoundSql.Proofs.Extension
import BoundSql.Proofs.Connectives
import BoundSql.Proofs.Operators
import BoundSql.Proofs.Joins
import BoundSql.Proofs.Paging
import BoundSql.Proofs.Inserts
import BoundSql.Proofs.Pages
import BoundSql.Proofs.Arrows
import BoundSql.Proofs.Selectors
import BoundSql.Proofs.Resolution
import BoundSql.Proofs.Excerpts
import BoundSql.Proofs.Nearest
import BoundSql.Proofs.Numerals
