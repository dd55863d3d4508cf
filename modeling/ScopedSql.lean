import ScopedSql.Config
import ScopedSql.Json.Reader
import ScopedSql.Proofs.Database.Closing
import ScopedSql.Proofs.Database.Readiness
import ScopedSql.Proofs.Database.Reads
import ScopedSql.Proofs.Database.Serial
import ScopedSql.Proofs.Database.Survival
import ScopedSql.Proofs.Database.Transactions
import ScopedSql.Proofs.Database.Validation
import ScopedSql.Proofs.Database.Warnings
import ScopedSql.Proofs.Predicate.Ignored
import ScopedSql.Proofs.Predicate.Operators
import ScopedSql.Proofs.Predicate.Refusals
import ScopedSql.Proofs.Query.Rows
import ScopedSql.Proofs.Schema.WellFormed
import ScopedSql.Proofs.Scope.Hooks
import ScopedSql.Proofs.Value.Stored
import ScopedSql.Schema.Statements
import ScopedSql.Session
import ScopedSql.Store.Connection
