import Sema.Json.Printer
import Sema.Main
import Sema.Tree.Encode
import Sema.Proofs.Typing.Acceptance
import Sema.Proofs.Walk.Calls
import Sema.Proofs.Scoping.Undisturbed
import Sema.Proofs.Walk.FirstPass
import Sema.Proofs.Scoping.Resolution
import Sema.Proofs.Scoping.Uses
import Sema.Proofs.Walk.Isolation
import Sema.Proofs.Walk.Order
import Sema.Proofs.Walk.Again
import Sema.Proofs.Walk.Provenance
import Sema.Proofs.Scopes.Log
import Sema.Proofs.Scopes.Recency
import Sema.Proofs.Symbols.Chronicle
import Sema.Proofs.Symbols.Store
import Sema.Proofs.Json.Literals
import Sema.Proofs.Json.Roundtrip
import Sema.Proofs.Symbols.Representation
import Sema.Proofs.Json.Record
import Sema.Proofs.Tree.Decoded
import Sema.Proofs.Tree.Lossless
import Sema.Proofs.Walk.Dressed
import Sema.Proofs.Report.Styles
import Sema.Proofs.Cli.Verdict
import Sema.Proofs.Tree.Accepted
import Sema.Proofs.Walk.Retained
import Sema.Proofs.Typing.Promotion
import Sema.Proofs.Typing.Registrations
import Sema.Proofs.Walk.Mismatches
import Sema.Proofs.Text.Words
import Sema.Proofs.Report.Entries
import Sema.Proofs.Tokens.Rows
import Sema.Proofs.Symbols.Fields
import Sema.Proofs.Scoping.Fields
import Sema.Proofs.Scoping.Expressions
