import ShaderShrink.Reduction.Run

/-!
# Sample programs

Programs that are grown from arbitrary bytes, to try reductions on: one global and an entry point
with a statement per byte. `Sample.holds` reduces such a program and checks what must be so for
every reduction: the program does not grow, every change that is kept makes it smaller, without such
a change it stays as it is, and reducing a fixpoint changes nothing.
-/

namespace ShaderShrink.Sample

/-- The most statements that a sample has. -/
def statementLimit : Nat := 24

/-- The name of the global. -/
def globalName : String := "g0"

/-- The statement that a byte stands for. -/
def statement (byte : UInt8) : Stmt :=
  let value := Expr.binary .add (.ident globalName) (.int (Int64.ofNat (byte.toNat / 8)))
  match byte.toNat % 6 with
  | 0 => .discard
  | 1 => .empty
  | 2 => .expr value
  | 3 =>
    .ifElse (.binary .gt (.ident globalName) (.float "0.5")) (.block [.discard]) none
  | 4 => .whileLoop (.bool false) .empty
  | _ => .var "float" "t" (some value)

/-- The program that a list of bytes stands for. The first byte belongs to the oracle. -/
def program (bytes : List UInt8) : Program :=
  ⟨[.global "float" globalName (some (.float "1.0")),
    .function "void" Program.entryPoint [] (((bytes.drop 1).take statementLimit).map statement)]⟩

/-- Finds a candidate interesting while some `discard` is left in it and, if the first byte is odd,
the global is still declared. -/
def oracle (keep : UInt8) : Oracle Unit := fun text s =>
  let discards := Text.mentions text "\"discard\""
  let global := keep % 2 == 0 || Text.mentions text ("\"" ++ globalName ++ "\"")
  (if discards && global then .interesting else .notInteresting, s)

/-- The reduction of a sample. -/
def reducer (keep : UInt8) : Reducer Unit where
  config :=
    { ReductionConfig.ofJob "fuzz" "glsl-310es" with
      budget := { ReductionBudget.unlimited with maxOracleCalls := some 4096 } }
  finder := .default
  oracle := oracle keep
  clock _ := 0

/-- Whether an outcome is as it must be, given how it is reduced once more. -/
def sound (o : ReductionOutcome) (again : Except ReductionError ReductionOutcome) : Bool :=
  o.report.stats.finalNodes ≤ o.report.stats.initialNodes
    && o.report.commits.all (fun c => c.nodesAfter < c.nodesBefore)
    && (!o.report.commits.isEmpty || o.report.stats.initialHash = o.report.stats.reducedHash)
    && (o.report.termination ≠ .fixpoint ||
      match again with
      | .ok o => o.report.commits.isEmpty
      | .error _ => false)

/-- Whether the reduction of a sample is as it must be. Fewer than two bytes stand for no sample. -/
def holds (bytes : List UInt8) : Bool :=
  match bytes with
  | keep :: _ :: _ =>
    match (reducer keep).reduce (Arena.ofProgram (program bytes)) () with
    | (.ok o, _) => sound o ((reducer keep).reduce o.arena ()).1
    | (.error _, _) => false
  | _ => true

end ShaderShrink.Sample
