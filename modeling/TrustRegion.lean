import TrustRegion.Json.Saved
import TrustRegion.Operator.Rule
import TrustRegion.Session
import TrustRegion.Space.Weighted
import TrustRegion.Proofs.Exact.Calls
import TrustRegion.Proofs.Exact.Objective
import TrustRegion.Proofs.Exact.Optimality
import TrustRegion.Proofs.Exact.Recurrence
import TrustRegion.Proofs.Exact.Scaling
import TrustRegion.Proofs.Verdicts
import TrustRegion.Proofs.Observers
import TrustRegion.Proofs.Failures
import TrustRegion.Proofs.Ledger
import TrustRegion.Proofs.Ieee.Finiteness
import TrustRegion.Proofs.Exact.Cauchy
import TrustRegion.Proofs.Exact.Diagnosis
import TrustRegion.Proofs.Exact.Fallback
import TrustRegion.Proofs.Exact.Termination
import TrustRegion.Proofs.Exact.Certificate
import TrustRegion.Proofs.Exact.Monotone
import TrustRegion.Proofs.Sessions
import TrustRegion.Proofs.Unconstrained
import TrustRegion.Proofs.Exact.Unpreconditioned
import TrustRegion.Proofs.Lengths
import TrustRegion.Proofs.Operations
import TrustRegion.Proofs.Exact.Signs
import TrustRegion.Proofs.Ieee.Figures
import TrustRegion.Proofs.Exact.Homogeneity
import TrustRegion.Proofs.Exact.Meaning
import TrustRegion.Proofs.Ieee.Refusal
import TrustRegion.Proofs.Exact.OneStep
import TrustRegion.Proofs.Exact.Exchange
import TrustRegion.Proofs.Spelling
import TrustRegion.Proofs.Ieee.Saving
import TrustRegion.Proofs.Exact.InnerProduct
import TrustRegion.Proofs.Ieee.Inverses
import TrustRegion.Proofs.MaximumNorm
import TrustRegion.Proofs.Ieee.Values
import TrustRegion.Proofs.Exact.Feasibility
