import ContractTrace.Main
import ContractTrace.Builder
import ContractTrace.Callback
import ContractTrace.Proofs.Evaluation
import ContractTrace.Proofs.Flat
import ContractTrace.Proofs.Walk
import ContractTrace.Proofs.Transaction
import ContractTrace.Proofs.Run
import ContractTrace.Proofs.Reachable
import ContractTrace.Proofs.Atomicity
import ContractTrace.Proofs.Arithmetic
import ContractTrace.Proofs.Range
import ContractTrace.Proofs.Words
import ContractTrace.Proofs.Exact
import ContractTrace.Proofs.Lockstep
import ContractTrace.Proofs.Policy
import ContractTrace.Proofs.Decimal
import ContractTrace.Proofs.Tokens
import ContractTrace.Proofs.Rendering
import ContractTrace.Proofs.Reading
import ContractTrace.Proofs.Records
import ContractTrace.Proofs.Spelling
import ContractTrace.Proofs.Literals
import ContractTrace.Proofs.WellFormed
import ContractTrace.Proofs.RoundTrip
import ContractTrace.Proofs.InRange
import ContractTrace.Proofs.AllOrNothing
import ContractTrace.Proofs.Independence
import ContractTrace.Proofs.History
import ContractTrace.Proofs.Prefix
import ContractTrace.Proofs.Draws
import ContractTrace.Proofs.Failures
import ContractTrace.Proofs.Remainder
import ContractTrace.Proofs.BindingLog
import ContractTrace.Proofs.Moments
import ContractTrace.Proofs.Resolution
import ContractTrace.Proofs.Coverage
import ContractTrace.Proofs.Counterpart
import ContractTrace.Proofs.Normalization
import ContractTrace.Proofs.References
import ContractTrace.Proofs.Emission
import ContractTrace.Proofs.FreshIds
import ContractTrace.Proofs.Ledger
import ContractTrace.Proofs.ScopePath
