import ShaderShrink.Reduction.Run

/-!
# Oracles with larger states

An oracle may keep more in its state than another one and still give the same answers
(`Oracle.Refines`). A reduction that asks it goes the same way (`Reducer.reduce_refines`).
-/

namespace ShaderShrink

variable {σ τ : Type}

/-- An oracle answers as `oracle` does about the part of its state that `f` reads off. -/
def Oracle.Refines (finer : Oracle τ) (f : τ → σ) (oracle : Oracle σ) : Prop :=
  ∀ text s, oracle text (f s) = ((finer text s).1, f (finer text s).2)

/-- The state of a reduction with a part of the state of the oracle. -/
def Run.map (f : τ → σ) (run : Run τ) : Run σ := { run with oracle := f run.oracle }

/-- A result, and the state behind it with a part of the state of the oracle. -/
def Run.mapIn {α : Type} (f : τ → σ) (x : α × Run τ) : α × Run σ := (x.1, x.2.map f)

/-- The result stays, and the state is mapped. -/
theorem Run.mapIn_mk {α : Type} {f : τ → σ} {v : α} {run : Run τ} :
    Run.mapIn f (v, run) = (v, run.map f) := rfl

@[simp] theorem Run.map_arena {f : τ → σ} {run : Run τ} : (run.map f).arena = run.arena := rfl

namespace Reducer

/-- The reducer that asks another oracle. -/
def asking (r : Reducer σ) (oracle : Oracle τ) : Reducer τ :=
  ⟨r.config, r.finder, oracle, r.clock⟩

section
variable (r : Reducer σ) {finer : Oracle τ} {f : τ → σ} (h : finer.Refines f r.oracle)
  (o : Opportunity) (run : Run τ)

include h in
/-- The finer oracle is asked as the other one is. -/
theorem ask_refines {text : String} :
    r.ask (run.map f) text = Run.mapIn f ((r.asking finer).ask run text) := by
  rw [ask, Run.map, h]
  rfl

/-- Whether all questions are spent is not up to the oracle. -/
theorem questionsSpent_refines (finer : Oracle τ) :
    r.questionsSpent (run.map f) = (r.asking finer).questionsSpent run := rfl

/-- The text of the program is not up to the oracle. -/
theorem currentText_refines (finer : Oracle τ) :
    r.currentText (run.map f) = (r.asking finer).currentText run := rfl

/-- A look at the clock is not up to the oracle. -/
theorem look_refines (finer : Oracle τ) :
    r.look (run.map f) = Run.mapIn f ((r.asking finer).look run) := rfl

include h in
/-- The question about the unchanged program goes as with the other oracle. -/
theorem askFirst_refines :
    r.askFirst (run.map f) = Run.mapIn f ((r.asking finer).askFirst run) := by
  unfold askFirst
  rw [r.questionsSpent_refines run finer, r.currentText_refines run finer]
  cases (r.asking finer).questionsSpent run with
  | true => rfl
  | false =>
    cases (r.asking finer).currentText run with
    | error e => rfl
    | ok text =>
      simp only [ask_refines r h]
      obtain ⟨verdict, run'⟩ := (r.asking finer).ask run text
      cases verdict <;> rfl

/-- A change is kept as with the other oracle. -/
theorem commit_refines {description : String} {nodesBefore : Nat} :
    r.commit o description nodesBefore (run.map f) =
      Run.mapIn f ((r.asking finer).commit o description nodesBefore run) := by
  unfold commit
  rw [Run.map_arena]
  cases run.arena.compact <;> rfl

/-- A change is rejected as with the other oracle. -/
theorem reject_refines {edit : Edit} {verdict : Verdict} :
    r.reject edit verdict (run.map f) =
      Run.mapIn f ((r.asking finer).reject edit verdict run) := by
  unfold reject
  rw [Run.map_arena]
  cases edit.revert run.arena <;> rfl

/-- A change is taken back as with the other oracle. -/
theorem discard_refines {edit : Edit} :
    r.discard edit (run.map f) = Run.mapIn f ((r.asking finer).discard edit run) := by
  unfold discard
  rw [Run.map_arena]
  cases edit.revert run.arena <;> rfl

include h in
/-- A change is judged as with the other oracle. -/
theorem judge_refines {edit : Edit} {description : String} {nodesBefore : Nat} :
    r.judge o edit description nodesBefore (run.map f) =
      Run.mapIn f ((r.asking finer).judge o edit description nodesBefore run) := by
  unfold judge
  rw [r.currentText_refines run finer]
  cases (r.asking finer).currentText run with
  | error e => exact r.discard_refines run
  | ok text =>
    simp only [ask_refines r h]
    obtain ⟨verdict, run'⟩ := (r.asking finer).ask run text
    cases verdict with
    | interesting => exact r.commit_refines o run'
    | notInteresting | invalid | executionError => exact r.reject_refines run'

include h in
/-- An opportunity is tried as with the other oracle. -/
theorem attempt_refines :
    r.attempt o (run.map f) = Run.mapIn f ((r.asking finer).attempt o run) := by
  unfold attempt
  rw [Run.map_arena, r.questionsSpent_refines run finer]
  cases o.change.holds run.arena with
  | false => rfl
  | true =>
    cases (r.asking finer).questionsSpent run with
    | true => rfl
    | false =>
      rcases o.change.apply run.arena with ⟨_ | edit, arena⟩
      · rfl
      · exact r.judge_refines h o { run with arena }

include h in
/-- Opportunities are tried as with the other oracle. -/
theorem attemptAll_refines (os : List Opportunity) :
    r.attemptAll os (run.map f) = Run.mapIn f ((r.asking finer).attemptAll os run) := by
  induction os generalizing run with
  | nil =>
    unfold attemptAll
    simp only [r.look_refines _ finer]
    rcases (r.asking finer).look run with ⟨_ | _, run⟩ <;> rfl
  | cons o rest ih =>
    unfold attemptAll
    simp only [r.look_refines _ finer]
    rcases (r.asking finer).look run with ⟨_ | _, run⟩
    · simp only [Run.mapIn_mk, attempt_refines r h]
      rcases (r.asking finer).attempt o run with ⟨_ | _ | _, run⟩
      · exact ih run
      · rfl
      · rfl
    · rfl

/-- A look for opportunities goes as with the other oracle. -/
theorem scan_refines (finer : Oracle τ) :
    r.scan (run.map f) = Run.mapIn f ((r.asking finer).scan run) := by
  unfold scan
  simp only [apply_ite (Run.mapIn f)]
  rfl

include h in
/-- The rounds go as with the other oracle. -/
theorem rounds_refines (n : Nat) :
    r.rounds n (run.map f) = Run.mapIn f ((r.asking finer).rounds n run) := by
  induction n generalizing run with
  | zero => rfl
  | succ n ih =>
    unfold rounds
    simp only [r.look_refines _ finer]
    rcases (r.asking finer).look run with ⟨_ | _, run⟩
    · simp only [Run.mapIn_mk, r.scan_refines _ finer]
      rcases (r.asking finer).scan run with ⟨_ | found, run⟩
      · rfl
      · simp only [Run.mapIn_mk, attemptAll_refines r h]
        rcases (r.asking finer).attemptAll found run with ⟨_ | halt, run⟩
        · exact ih run
        · rfl
    · rfl

include h in
/-- The search goes as with the other oracle. -/
theorem search_refines :
    r.search (run.map f) = Run.mapIn f ((r.asking finer).search run) := by
  have hconfig : (r.asking finer).config = r.config := rfl
  unfold search
  rw [hconfig]
  cases r.config.checkInitial with
  | false => exact r.rounds_refines h run _
  | true =>
    simp only [if_true, askFirst_refines r h]
    rcases (r.asking finer).askFirst run with ⟨_ | halt, run⟩
    · exact r.rounds_refines h run _
    · rfl

/-- The outcome is not up to the state of the oracle. -/
theorem finish_refines {reason : Termination} :
    r.finish reason (run.map f) = (r.asking finer).finish reason run := by
  unfold finish
  rw [Run.map_arena]
  cases run.arena.toProgram with
  | error e => rfl
  | ok p => cases reason <;> rfl

end

/-- An oracle with a larger state and the same answers changes neither what a reduction gives nor
the part of the state that the reduction leaves behind. -/
theorem reduce_refines (r : Reducer σ) {finer : Oracle τ} {f : τ → σ}
    (h : finer.Refines f r.oracle) (arena : Arena) (s : τ) :
    r.reduce arena (f s) =
      (((r.asking finer).reduce arena s).1, f ((r.asking finer).reduce arena s).2) := by
  unfold reduce start
  cases arena.digest with
  | error e => rfl
  | ok digest =>
    simp only [Except.map]
    have hsearch := r.search_refines h ⟨arena, s, [], .start arena.liveCount digest, [], 0⟩
    simp only [Run.map] at hsearch
    rw [hsearch]
    rcases (r.asking finer).search _ with ⟨_ | e, run⟩
    · exact Prod.ext (r.finish_refines run) rfl
    · rfl

end Reducer

end ShaderShrink
