import StackMachine.Registry

/-!
# The worker

All use of a shared registry goes through a worker, which takes up one job at a time. A job may
change the registry; one that breaks down is reported to whoever sent it and leaves the worker
running, with the changes it had made by then. A worker that was stopped takes up nothing more.
-/

namespace StackMachine

open Text

/-- A worker and the registry it looks after. -/
structure Worker (α : Type) where
  registry : Registry α
  stopped : Bool := false

/-- Why a job has no answer. -/
inductive WorkerError where
  | stopped
  /-- The job broke down, with a message. -/
  | broke (message : Bytes)
  deriving DecidableEq, Repr

/-- The wording of a job without an answer. -/
def WorkerError.message : WorkerError → Bytes
  | .stopped => utf8 "vm worker stopped"
  | .broke message => message

namespace Worker

variable {α β : Type}

/-- Carries out a job, which answers or breaks down and leaves a registry behind. -/
def perform {m : Type → Type} [Monad m] (w : Worker α)
    (job : Registry α → m (Except Bytes β × Registry α)) : m (Except WorkerError β × Worker α) := do
  if w.stopped then return (.error .stopped, w)
  else
    let (answer, registry) ← job w.registry
    return (answer.mapError .broke, { w with registry })

/-- Carries out a job that only looks at the registry. -/
def ask (w : Worker α) (question : Registry α → β) : Except WorkerError β :=
  if w.stopped then .error .stopped else .ok (question w.registry)

/-- The worker once it is stopped. -/
def stop (w : Worker α) : Worker α := { w with stopped := true }

end Worker

end StackMachine
