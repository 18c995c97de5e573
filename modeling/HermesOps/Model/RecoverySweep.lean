import HermesOps.Model.Processes

/-! `recover_run` from its first read to its end, and `command_sweep`, which calls it for one stale run
    after the other. Nothing in the loop catches what `recover_run` raises. -/

namespace HermesOps

/-- A process from the stage to its exit; `fault` tells at which of its steps, counted down by the
    fuel, a tool or the database fails it. -/
def Stage.complete (h : History) (now : Time) (fresh : Nat) (fault : Nat → Bool) :
    Nat → Site → Stage → Site × Option Exit
  | 0, s, _ => (s, none)
  | n + 1, s, stage =>
    match stage.step h now fresh (fault n) s with
    | (s, .next stage) => stage.complete h now fresh fault n s
    | (s, .exit e) => (s, some e)

/-- The arguments of a sweep, with the clock, the identifiers it will draw and the failures that come
    from outside. -/
structure SweepCall where
  owner : String
  staleSeconds : Time
  now : Time
  fresh : RunId → Nat
  fault : RunId → Nat → Bool

/-- A recovery takes at most this many steps. -/
def recoverySteps : Nat := 7

/-- `recover_run` without `--force`; the flag is whether it returned. -/
def recoverRun (h : History) (c : SweepCall) (s : Site) (runId : RunId) : Site × Bool :=
  match Stage.complete h c.now (c.fresh runId) (c.fault runId) recoverySteps s
      (.recover runId c.owner none (some c.staleSeconds)) with
  | (s, some .failed) | (s, none) => (s, false)
  | (s, some _) => (s, true)

/-- The heartbeat is missing or old enough. -/
def SweepCall.isStale (c : SweepCall) (run : Run) : Bool :=
  ¬run.heartbeatAt.any fun t => c.now - t < c.staleSeconds

/-- A sweep: the site it leaves, the runs it called `recover_run` for, and whether it came to the
    orphan cleanup. -/
structure SweepOutcome where
  site : Site
  attempted : List RunId
  cleaned : Bool

/-- The loop over the rows, with the rest of the command after it. -/
def sweepLoop (h : History) (c : SweepCall) : Site → List (RunId × Run) → SweepOutcome
  | s, [] => ⟨s, [], true⟩
  | s, (runId, run) :: rows =>
    if ¬c.isStale run then sweepLoop h c s rows
    else
      match recoverRun h c s runId with
      | (s, false) => ⟨s, [runId], false⟩
      | (s, true) =>
        let rest := sweepLoop h c s rows
        { rest with attempted := runId :: rest.attempted }

end HermesOps
