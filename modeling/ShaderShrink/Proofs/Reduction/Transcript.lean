import ShaderShrink.Proofs.Reduction.Refines

/-!
# Transcripts of reductions

The oracle of a reduction may keep any state, so what it was asked is not part of what a reduction
gives. `Oracle.logged` is an oracle that keeps its calls in addition, and `Reducer.transcript` is
what it has written down at the end. Writing the calls down changes nothing else
(`Reducer.reduce_logged`).
-/

namespace ShaderShrink

/-- A call of an oracle: what it was asked about, and what it answered. -/
structure Call where
  text : String
  verdict : Verdict
  deriving DecidableEq, Repr

variable {σ : Type}

/-- The oracle that writes its calls down, the last one at the end. -/
def Oracle.logged (oracle : Oracle σ) : Oracle (σ × List Call) := fun text s =>
  let (verdict, s') := oracle text s.1
  (verdict, s', s.2 ++ [⟨text, verdict⟩])

/-- The state of a reduction without the calls that the oracle wrote down. -/
def Run.forget (run : Run (σ × List Call)) : Run σ := { run with oracle := run.oracle.1 }

/-- A result, and the state behind it without the calls that the oracle wrote down. -/
def Run.forgetIn {α : Type} (x : α × Run (σ × List Call)) : α × Run σ := (x.1, x.2.forget)

/-- The result stays, and the calls are forgotten. -/
theorem Run.forgetIn_mk {α : Type} {v : α} {run : Run (σ × List Call)} :
    Run.forgetIn (v, run) = (v, run.forget) := rfl

@[simp] theorem Run.forget_arena {run : Run (σ × List Call)} : run.forget.arena = run.arena := rfl

namespace Reducer

/-- The reducer whose oracle writes its calls down. -/
def logged (r : Reducer σ) : Reducer (σ × List Call) :=
  ⟨r.config, r.finder, r.oracle.logged, r.clock⟩

/-- The calls of the oracle in a reduction. -/
def transcript (r : Reducer σ) (arena : Arena) (oracle : σ) : List Call :=
  (r.logged.reduce arena (oracle, [])).2.2

/-- An oracle that writes its calls down answers as the one that does not. -/
theorem refines_logged (r : Reducer σ) : r.oracle.logged.Refines Prod.fst r.oracle :=
  fun _ _ => rfl

/-- Writing calls down changes nothing about the question about the unchanged program. -/
theorem askFirst_logged (r : Reducer σ) (run : Run (σ × List Call)) :
    r.askFirst run.forget = Run.forgetIn (r.logged.askFirst run) :=
  r.askFirst_refines r.refines_logged run

/-- Writing calls down changes nothing about how opportunities are tried. -/
theorem attemptAll_logged (r : Reducer σ) (run : Run (σ × List Call)) (os : List Opportunity) :
    r.attemptAll os run.forget = Run.forgetIn (r.logged.attemptAll os run) :=
  r.attemptAll_refines r.refines_logged run os

/-- Writing the calls down changes neither what a reduction gives nor how it leaves the oracle. -/
theorem reduce_logged (r : Reducer σ) (arena : Arena) (oracle : σ) (calls : List Call) :
    r.reduce arena oracle =
      ((r.logged.reduce arena (oracle, calls)).1, (r.logged.reduce arena (oracle, calls)).2.1) :=
  r.reduce_refines r.refines_logged arena (oracle, calls)

end Reducer

end ShaderShrink
