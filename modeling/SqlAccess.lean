import SqlAccess.Proofs.Binding
import SqlAccess.Proofs.Columns.Distinct
import SqlAccess.Proofs.Conversion
import SqlAccess.Proofs.Dsn
import SqlAccess.Proofs.Durability
import SqlAccess.Proofs.Failures
import SqlAccess.Proofs.Heeding.Session
import SqlAccess.Proofs.Indexing
import SqlAccess.Proofs.Keys
import SqlAccess.Proofs.Permission
import SqlAccess.Proofs.Protocols
import SqlAccess.Proofs.Query.Formats
import SqlAccess.Proofs.Query.Lists
import SqlAccess.Proofs.Query.Texts
import SqlAccess.Proofs.Resources
import SqlAccess.Proofs.Session.Mismatches
import SqlAccess.Proofs.Tokens.Escaped
import SqlAccess.Proofs.Tokens.Restored
import SqlAccess.Proofs.Transactions
import SqlAccess.Proofs.Unbound
import SqlAccess.Proofs.Version
import SqlAccess.Query.Builder
import SqlAccess.Session.Step
