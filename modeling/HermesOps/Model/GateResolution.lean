import HermesOps.Model.RecoverySweep

/-! How an operator answers a human gate. `command_resolve` of `hermesops-control.py` looks the approval up,
    and runs `recover_run` with `--force` and the decision as the one that is expected. -/

namespace HermesOps

/-- The `options_json` that `record_non_integration` and `apply_block` insert with an approval. -/
def gateOptions : List RecoveryDecision := [.resumeSafe, .rollbackSafe]

/-- An operator's call, with the clock, the identifiers it will draw and the failures that come from
    outside. -/
structure ResolveCall where
  owner : String
  now : Time
  fresh : Nat
  fault : Nat → Bool

/-- `command_resolve` up to the command it runs. -/
def resolveStage (s : Store) (owner : String) (id : ApprovalId) (decision : RecoveryDecision) :
    Except String Stage :=
  match s.approvals.get? id with
  | none => .error s!"Unknown approval: {id}"
  | some a =>
    if a.status ≠ .pending then .error "Approval is not pending"
    else if decision ∉ gateOptions then .error "Decision is not allowed"
    else .ok (.recover a.runId owner (some decision) none)

/-- `command_resolve`; the flag is whether it returned. -/
def commandResolve (h : History) (c : ResolveCall) (s : Site) (id : ApprovalId)
    (decision : RecoveryDecision) : Site × Bool :=
  match resolveStage s.db.store c.owner id decision with
  | .error _ => (s, false)
  | .ok stage =>
    match stage.complete h c.now c.fresh c.fault recoverySteps s with
    | (s, some .failed) | (s, none) => (s, false)
    | (s, some _) => (s, true)

end HermesOps
