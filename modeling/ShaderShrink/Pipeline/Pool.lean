import ShaderShrink.Pipeline.Work

/-!
# Pools of workers

Several workers on one queue, each with a scratch directory of its own. A lone worker uses the plain
scratch directory. A worker that breaks down does not disturb the others.

The workers of a pool run in an order that the program does not determine. `runPool` is the run in
which each worker starts when the one before it has ended.
-/

namespace ShaderShrink

variable {σ : Type} [Disk σ]

/-- The worker with a number in a pool of `workers`. -/
def Worker.inPool (w : Worker σ) (workers number : Nat) : Worker σ :=
  { w with id := if workers > 1 then some number else none }

/-- How a pool reports the end of the worker with a number. -/
def WorkerEnd.inPool (number : Nat) : WorkerEnd → WorkerEnd
  | .died => .failed (.panicked number)
  | other => other

/-- Runs the workers of a pool with the given numbers. -/
def runNumbers (w : Worker σ) (workers : Nat) : List Nat → Pipeline σ → List WorkerEnd × Pipeline σ
  | [], p => ([], p)
  | number :: rest, p =>
    let (result, p) := (w.inPool workers number).run p
    let (results, p) := runNumbers w workers rest p
    (result.inPool number :: results, p)

/-- Runs a pool of workers, one at least, that are like `w` but for their numbers. -/
def runPool (w : Worker σ) (workers : Nat) (p : Pipeline σ) : List WorkerEnd × Pipeline σ :=
  runNumbers w (max workers 1) (List.range (max workers 1)) p

end ShaderShrink
