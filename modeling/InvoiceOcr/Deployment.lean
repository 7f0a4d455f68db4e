/-
  File:      InvoiceOcr/Deployment.lean
  Subject:   THE RUNNING SYSTEM: any number of worker processes, API requests and daemons over one
             Postgres and one Redis, interleaved at every awaited call.

  * `Deployment` -- the settings the processes share, and what each worker process has of its
    own: prompt version and whitelist index;
  * `TaskName` -- a pass of a worker slot, a request, a pass of a daemon. A worker slot is the
    sequence of its passes; any number of passes may be under way;
  * `Deployment.sys` -- the system. `uuid4` never draws an identifier twice.
-/
import InvoiceOcr.Worker
import InvoiceOcr.Api

namespace InvoiceOcr

open PyJson Async

/-- What a worker process has of its own. -/
structure Process where
  promptSemanticVersion : Str
  postprocess : InvoiceResult → Except PyExc InvoiceResult

structure Deployment where
  cfg : Settings
  lib : Externals
  process : Nat → Process

def Deployment.worker (D : Deployment) (p : Nat) : Worker where
  cfg := { D.cfg with promptSemanticVersion := (D.process p).promptSemanticVersion }
  lib := D.lib
  postprocess := (D.process p).postprocess

inductive TaskName where
  | worker (process : Nat)
  | submit (jobId : Uuid) (imageUrl : Str)
  | sweep
  | purge
  deriving DecidableEq

/-- The body of a task. -/
def Deployment.boot (D : Deployment) : TaskName → Py Unit
  | .worker p => workerIteration jsonDepth (executeTaskLifecycle (D.worker p))
  | .submit j u => (submitReceipt D.cfg D.lib j u).bind fun _ => .ret ()
  | .sweep => sweeperIteration D.cfg
  | .purge => purgeIteration D.cfg

/-- Identifiers are fresh. -/
def fresh (names : List TaskName) : TaskName → Prop
  | .submit j _ => ∀ u, TaskName.submit j u ∉ names
  | _ => True

/-- **The system.** -/
def Deployment.sys (D : Deployment) : Sys Op Ans PyExc World TaskName where
  sem := Sem
  drift := Drift
  boot := D.boot
  allow := fresh

end InvoiceOcr
