import ShaderShrink.Proofs.Pipeline.Plain

/-!
# Schedules of a pipeline with one worker

A producer pushes pairs into a bounded queue and closes it behind the last one, while a worker takes
them; when the worker has ended, the queue is cancelled, so that a producer that still waits for
room comes to an end. `Session.play` runs them in any order of turns. A turn is one call on the
queue or the work on one pair, and a turn of a party that has to wait changes nothing.

The outcome of a session is foreseen from each of its states (`Session.outcome`): it is what the
plain loop makes of the pairs that the worker holds, that are queued and that are yet to be pushed.
No turn changes it (`Session.Sound.turn`), so the worker ends as the plain loop does, whatever the
order of the turns is (`Session.play_plain`). Each turn that changes something brings the end
nearer, and before the end one of the parties can go on (`Session.Sound.exists_turn`).
-/

namespace ShaderShrink

/-- Who takes a turn. -/
inductive Party where
  | producer
  | worker
  /-- Who started the others and waits for the worker to end. -/
  | supervisor
  deriving DecidableEq, Repr

/-- Where a producer stands between two of its turns. -/
inductive Producer where
  /-- It has these pairs to push before it closes the queue. -/
  | pushing (pairs : List ProgramPair)
  | ended

/-- The pairs that a producer has yet to push. -/
def Producer.pairs : Producer → List ProgramPair
  | .pushing pairs => pairs
  | .ended => []

/-- The turns that it takes to bring the pairs through the queue and to close it: each pair is
pushed, taken and worked on. -/
def Producer.turnsLeft : Producer → Nat
  | .pushing pairs => 3 * pairs.length + 1
  | .ended => 0

/-- Where a worker stands between two of its turns. -/
inductive WorkerStage where
  /-- It asks the queue for a pair, unless `remaining` is zero. -/
  | taking (remaining : Nat) (report : WorkerReport)
  /-- It has taken a pair, behind which it may take `remaining` more. -/
  | holding (pair : ProgramPair) (remaining : Nat) (report : WorkerReport)
  | ended (result : WorkerEnd)

/-- The turns of the worker up to its end, but for those with pairs that it has yet to take. -/
def WorkerStage.turnsLeft : WorkerStage → Nat
  | .taking .. => 1
  | .holding .. => 2
  | .ended _ => 0

/-- The worker stands where its service of the queue ends, be it that it has to wait. -/
def WorkerStage.Shows : WorkerStage → WorkerEnd → Prop
  | .taking _ report, result => result = .waiting report
  | .holding .., _ => False
  | .ended result, result' => result = result'

/-- A pipeline with one producer and one worker. -/
structure Session (σ : Type) where
  pipeline : Pipeline σ
  producer : Producer
  stage : WorkerStage

namespace Session

variable {σ : Type}

/-- A session that is about to begin. -/
def start (w : Worker σ) (pairs : List ProgramPair) (capacity : Nat) (world : σ) : Session σ where
  pipeline := { queue := .new capacity, counter := 0, world }
  producer := .pushing pairs
  stage := .taking w.config.limit.toNat (.start w.id)

/-- The session with another queue. -/
def withQueue (s : Session σ) (queue : JobQueue ProgramPair) : Session σ :=
  { s with pipeline := { s.pipeline with queue } }

/-- The producer and the worker have ended. -/
def Over (s : Session σ) : Prop := s.producer = .ended ∧ ∃ result, s.stage = .ended result

/-- What holds of the queue while a session goes on. -/
structure Sound (s : Session σ) : Prop where
  room : 0 < s.pipeline.queue.capacity
  closed_iff : s.pipeline.queue.closed = true ↔ s.producer = .ended
  ended_of_cancelled : s.pipeline.queue.cancelled = true → ∃ result, s.stage = .ended result

/-- A session that is about to begin is sound. -/
theorem sound_start (w : Worker σ) (pairs : List ProgramPair) (capacity : Nat) (world : σ) :
    (start w pairs capacity world).Sound where
  room := Nat.le_max_right ..
  closed_iff := by simp [start, JobQueue.new]
  ended_of_cancelled := nofun

/-- Before the worker has ended the queue is not cancelled. -/
theorem Sound.not_cancelled {s : Session σ} (hs : s.Sound)
    (hstage : ∀ result, s.stage ≠ .ended result) : s.pipeline.queue.cancelled = false :=
  Bool.eq_false_iff.2 fun h => (hs.ended_of_cancelled h).elim hstage

/-- The most turns that can still change something, the one that cancels the queue among them. -/
def turnsLeft (s : Session σ) : Nat :=
  s.producer.turnsLeft + 2 * s.pipeline.queue.items.length + s.stage.turnsLeft +
    (!s.pipeline.queue.cancelled).toNat

/-- A session without turns left is over. -/
theorem over_of_turnsLeft {s : Session σ} (h : s.turnsLeft = 0) : s.Over := by
  obtain ⟨p, producer, stage⟩ := s
  cases producer with
  | pushing pairs => simp [turnsLeft, Producer.turnsLeft] at h
  | ended =>
    cases stage with
    | ended result => exact ⟨rfl, result, rfl⟩
    | taking | holding => simp [turnsLeft, WorkerStage.turnsLeft] at h

/-! ## Turns -/

/-- The turn of the producer: it pushes the next pair, or it closes the queue. If a pair is not
accepted, the others are not pushed either. -/
def produce? (s : Session σ) : Option (Session σ) :=
  match s.producer with
  | .pushing (pair :: rest) =>
    match s.pipeline.queue.push? pair with
    | none => none
    | some (.ok _, queue) => some { s.withQueue queue with producer := .pushing rest }
    | some (.error _, queue) => some { s.withQueue queue with producer := .pushing [] }
  | .pushing [] => some { s.withQueue s.pipeline.queue.close with producer := .ended }
  | .ended => none

/-- The turn of the supervisor: it cancels the queue when the worker has ended. -/
def cancel? (s : Session σ) : Option (Session σ) :=
  match s.stage with
  | .ended _ =>
    if s.pipeline.queue.cancelled then none else some (s.withQueue s.pipeline.queue.cancel)
  | .taking .. | .holding .. => none

variable [Disk σ]

/-- The turn of the worker: it takes a pair, or it works on the pair that it has taken. -/
def work? (w : Worker σ) (s : Session σ) : Option (Session σ) :=
  match s.stage with
  | .taking 0 report =>
    some { s with stage := .ended (.finished { report with stop := .limitReached }) }
  | .taking (remaining + 1) report =>
    match s.pipeline.queue.take? with
    | none => none
    | some (.cancelled, queue) =>
      some { s.withQueue queue with stage := .ended (.failed (.cancelled report.consumed)) }
    | some (.closed, queue) =>
      some { s.withQueue queue with
        stage := .ended (.finished { report with stop := .queueClosed }) }
    | some (.item pair, queue) =>
      some { s.withQueue queue with stage := .holding pair remaining report }
  | .holding pair remaining report =>
    match w.handle pair report s.pipeline with
    | (.ok report, pipeline) => some { s with pipeline, stage := .taking remaining report }
    | (.error reason, pipeline) => some { s with pipeline, stage := .ended reason }
  | .ended _ => none

/-- The turn of a party; there is none if the party has to wait or has ended. -/
def turn? (w : Worker σ) (s : Session σ) : Party → Option (Session σ)
  | .producer => s.produce?
  | .worker => s.work? w
  | .supervisor => s.cancel?

/-- The parties take turns in the given order. A party that has to wait leaves all as it is. -/
def play (w : Worker σ) : List Party → Session σ → Session σ
  | [], s => s
  | party :: rest, s => play w rest ((s.turn? w party).getD s)

/-! ## The outcome -/

/-- The pairs that the worker has yet to take. -/
def pairs (s : Session σ) : List ProgramPair := s.pipeline.queue.items ++ s.producer.pairs

/-- How the worker will end, and the world it will leave. -/
def outcome (w : Worker σ) (s : Session σ) : WorkerEnd × σ :=
  let p := s.pipeline
  match s.stage with
  | .taking remaining report =>
    w.plainFrom remaining s.pairs p.counter { world := p.world, report }
  | .holding pair remaining report =>
    w.plainFrom (remaining + 1) (pair :: s.pairs) p.counter { world := p.world, report }
  | .ended result => (result, p.world)

/-- A turn that leaves the session sound and its outcome as it was, and brings the end nearer. -/
structure Advances (w : Worker σ) (s s' : Session σ) : Prop where
  sound : s'.Sound
  outcome_eq : s'.outcome w = s.outcome w
  turnsLeft_lt : s'.turnsLeft < s.turnsLeft

section
variable {w : Worker σ} {s s' : Session σ} {party : Party} {p : Pipeline σ} {producer : Producer}
  {pair : ProgramPair} {remaining : Nat} {report : WorkerReport}

/-- A turn of the producer moves a pair from its list to the queue; it gives its pairs up only where
the worker has ended. -/
theorem Sound.produce (hs : s.Sound) (h : s.produce? = some s') : Advances w s s' := by
  obtain ⟨⟨⟨capacity, items, closed, cancelled⟩, counter, world⟩, producer, stage⟩ := s
  match producer with
  | .ended => cases h
  | .pushing [] =>
    cases h
    refine ⟨⟨hs.room, ⟨fun _ => rfl, fun _ => rfl⟩, hs.ended_of_cancelled⟩, rfl, ?_⟩
    simp only [turnsLeft, withQueue, JobQueue.close, Producer.turnsLeft]
    omega
  | .pushing (pair :: rest) =>
    have hclosed : closed = false := by simpa using hs.closed_iff
    subst hclosed
    cases cancelled with
    | true =>
      obtain ⟨result, hstage⟩ := hs.ended_of_cancelled rfl
      cases hstage
      cases h
      refine ⟨⟨hs.room, by simp [withQueue], fun _ => ⟨result, rfl⟩⟩, rfl, ?_⟩
      simp only [turnsLeft, withQueue, Producer.turnsLeft, List.length_nil, List.length_cons]
      omega
    | false =>
      simp only [produce?, JobQueue.push?, Bool.false_eq_true, if_false] at h
      split at h
      · cases h
      · next hpush =>
        split at hpush <;> cases hpush
        cases h
        refine ⟨⟨hs.room, by simp [withQueue], nofun⟩, ?_, ?_⟩
        · simp only [outcome, Session.pairs, withQueue, Producer.pairs, List.append_assoc,
            List.singleton_append]
        · simp only [turnsLeft, withQueue, Producer.turnsLeft, List.length_append,
            List.length_cons, List.length_nil]
          omega
      · next hpush =>
        split at hpush <;> cases hpush

/-- A worker that takes a pair takes the first one of those it is foreseen to take; if it takes
none, there is none left or none more is allowed. -/
theorem Sound.take (hs : Sound ⟨p, producer, .taking remaining report⟩)
    (h : work? w ⟨p, producer, .taking remaining report⟩ = some s') :
    Advances w ⟨p, producer, .taking remaining report⟩ s' := by
  have hcancelled : p.queue.cancelled = false := hs.not_cancelled nofun
  cases remaining with
  | zero =>
    cases h
    refine ⟨⟨hs.room, hs.closed_iff, fun _ => ⟨_, rfl⟩⟩, ?_, ?_⟩
    · exact (w.plainFrom_zero _ p.counter { world := p.world, report }).symm
    · simp only [turnsLeft, WorkerStage.turnsLeft]
      omega
  | succ remaining =>
    cases hitems : p.queue.items with
    | nil =>
      simp only [work?, JobQueue.take?_nil hcancelled hitems] at h
      cases hclosed : p.queue.closed with
      | false => simp [hclosed] at h
      | true =>
        obtain rfl : producer = .ended := hs.closed_iff.1 hclosed
        simp only [hclosed, if_true] at h
        cases h
        refine ⟨⟨hs.room, hs.closed_iff, fun _ => ⟨_, rfl⟩⟩, ?_, ?_⟩
        · simp only [outcome, Session.pairs, hitems, Producer.pairs, List.append_nil]
          exact (w.plainFrom_nil _ p.counter { world := p.world, report }).symm
        · simp only [turnsLeft, withQueue, WorkerStage.turnsLeft]
          omega
    | cons pair items =>
      simp only [work?, JobQueue.take?_cons hcancelled hitems] at h
      cases h
      refine ⟨⟨hs.room, hs.closed_iff, fun h => ?_⟩, ?_, ?_⟩
      · exact absurd h (by simp [withQueue, hcancelled])
      · simp only [outcome, Session.pairs, hitems, withQueue, List.cons_append]
      · simp only [turnsLeft, withQueue, WorkerStage.turnsLeft, hitems, List.length_cons]
        omega

/-- A worker that works on the pair that it has taken does with it what the loop does. -/
theorem Sound.handle (hs : Sound ⟨p, producer, .holding pair remaining report⟩)
    (h : work? w ⟨p, producer, .holding pair remaining report⟩ = some s') :
    Advances w ⟨p, producer, .holding pair remaining report⟩ s' := by
  have hcancelled : p.queue.cancelled = false := hs.not_cancelled nofun
  have hplain := w.plainFrom_cons remaining pair (p.queue.items ++ producer.pairs) report p
  rcases hhandled : w.handle pair report p with ⟨reason | report', p'⟩
  all_goals
    have hqueue := Worker.queue_of_handle hhandled
    rw [hhandled] at hplain
    simp only [work?, hhandled] at h
    cases h
  · refine ⟨⟨hqueue ▸ hs.room, hqueue ▸ hs.closed_iff, fun _ => ⟨_, rfl⟩⟩, hplain.symm, ?_⟩
    simp only [turnsLeft, WorkerStage.turnsLeft, hqueue]
    omega
  · refine ⟨⟨hqueue ▸ hs.room, hqueue ▸ hs.closed_iff, fun h => ?_⟩, ?_, ?_⟩
    · exact absurd h (by simp [hqueue, hcancelled])
    · simp only [outcome, Session.pairs, hqueue]
      exact hplain.symm
    · simp only [turnsLeft, WorkerStage.turnsLeft, hqueue]
      omega

/-- A turn of the worker advances a sound session. -/
theorem Sound.work (hs : s.Sound) (h : s.work? w = some s') : Advances w s s' := by
  obtain ⟨p, producer, stage⟩ := s
  cases stage with
  | taking remaining report => exact hs.take h
  | holding pair remaining report => exact hs.handle h
  | ended result => cases h

/-- Cancelling the queue behind the end of the worker changes nothing for it. -/
theorem Sound.cancel (hs : s.Sound) (h : s.cancel? = some s') : Advances w s s' := by
  obtain ⟨p, producer, stage⟩ := s
  cases stage with
  | taking | holding => cases h
  | ended result =>
    simp only [cancel?] at h
    split at h
    · cases h
    · next hcancelled =>
      cases h
      refine ⟨⟨hs.room, hs.closed_iff, fun _ => ⟨result, rfl⟩⟩, rfl, ?_⟩
      simp [turnsLeft, withQueue, JobQueue.cancel, Bool.eq_false_iff.2 hcancelled]

/-- Whoever takes a turn that changes something, the outcome stays as foreseen. -/
theorem Sound.turn (hs : s.Sound) (h : s.turn? w party = some s') : Advances w s s' := by
  cases party with
  | producer => exact hs.produce h
  | worker => exact hs.work h
  | supervisor => exact hs.cancel h

/-- Until the session is over, one of the parties can go on: if the worker waits for a pair, the
queue is empty and not closed, so there is room for a pair or the queue can be closed; if the worker
has ended, the queue is cancelled or can be, and the producer does not wait at a cancelled one. -/
theorem Sound.exists_turn (w : Worker σ) (hs : s.Sound) (hover : ¬ s.Over) :
    ∃ party, (s.turn? w party).isSome = true := by
  obtain ⟨⟨⟨capacity, items, closed, cancelled⟩, counter, world⟩, producer, stage⟩ := s
  match producer, stage with
  | .ended, .ended result => exact absurd ⟨rfl, result, rfl⟩ hover
  | .pushing [], _ => exact ⟨.producer, rfl⟩
  | .pushing (pair :: rest), .ended result =>
    cases cancelled with
    | true => exact ⟨.producer, rfl⟩
    | false => exact ⟨.supervisor, rfl⟩
  | _, .taking 0 report => exact ⟨.worker, rfl⟩
  | _, .holding pair remaining report =>
    refine ⟨.worker, ?_⟩
    simp only [turn?, work?]
    split <;> rfl
  | .ended, .taking (remaining + 1) report =>
    obtain rfl : cancelled = false := hs.not_cancelled nofun
    obtain rfl : closed = true := hs.closed_iff.2 rfl
    cases items <;> exact ⟨.worker, rfl⟩
  | .pushing (pair :: rest), .taking (remaining + 1) report =>
    obtain rfl : cancelled = false := hs.not_cancelled nofun
    obtain rfl : closed = false := by simpa using hs.closed_iff
    cases items with
    | cons pair items => exact ⟨.worker, rfl⟩
    | nil =>
      have hroom : 0 < capacity := hs.room
      refine ⟨.producer, ?_⟩
      simp [turn?, produce?, JobQueue.push?, hroom]

/-! ## Sessions -/

/-- Turns are played one after another. -/
theorem play_append (turns more : List Party) (s : Session σ) :
    s.play w (turns ++ more) = (s.play w turns).play w more := by
  induction turns generalizing s with
  | nil => rfl
  | cons party rest ih => exact ih _

/-- A worker that is left alone does in its turns what it does when it serves the queue. -/
theorem play_serve (w : Worker σ) (remaining : Nat) (report : WorkerReport) (p : Pipeline σ)
    (producer : Producer) : ∃ turns stage,
      play w (List.replicate turns .worker) ⟨p, producer, .taking remaining report⟩ =
        ⟨(w.serve remaining report p).2, producer, stage⟩ ∧
      stage.Shows (w.serve remaining report p).1 := by
  induction remaining generalizing report p with
  | zero => exact ⟨1, _, rfl, rfl⟩
  | succ remaining ih =>
    rw [Worker.serve]
    rcases htake : p.queue.take? with _ | ⟨pair | _ | _, queue⟩
    · exact ⟨0, .taking (remaining + 1) report, rfl, rfl⟩
    · -- one turn for the pair and one for the work on it
      rcases hhandled : w.handle pair report { p with queue } with ⟨reason | report', p'⟩
      · refine ⟨2, .ended reason, ?_, ?_⟩ <;>
          simp [List.replicate, play, turn?, work?, withQueue, htake, hhandled, WorkerStage.Shows]
      · obtain ⟨turns, stage, hplay, hshows⟩ := ih report' p'
        refine ⟨turns + 2, stage, ?_, by simpa only [hhandled] using hshows⟩
        simp only [hhandled, ← hplay]
        simp [List.replicate, play, turn?, work?, withQueue, htake, hhandled]
    · refine ⟨1, .ended (.finished { report with stop := .queueClosed }), ?_, rfl⟩
      simp [List.replicate, play, turn?, work?, withQueue, htake]
    · refine ⟨1, .ended (.failed (.cancelled report.consumed)), ?_, rfl⟩
      simp [List.replicate, play, turn?, work?, withQueue, htake]

/-- However many turns are taken, the outcome stays as foreseen. -/
theorem Sound.play (hs : s.Sound) (turns : List Party) :
    (s.play w turns).Sound ∧ (s.play w turns).outcome w = s.outcome w := by
  induction turns generalizing s with
  | nil => exact ⟨hs, rfl⟩
  | cons party rest ih =>
    rw [Session.play]
    cases hturn : s.turn? w party with
    | none => exact ih hs
    | some s' =>
      have hadvances := hs.turn hturn
      obtain ⟨hsound, houtcome⟩ := ih hadvances.sound
      exact ⟨hsound, houtcome.trans hadvances.outcome_eq⟩

/-- Turns bring the end nearer, unless nobody who had one could go on. -/
theorem Sound.play_lt (hs : s.Sound) (turns : List Party) :
    (s.play w turns).turnsLeft < s.turnsLeft ∨
      s.play w turns = s ∧ ∀ party ∈ turns, s.turn? w party = none := by
  induction turns generalizing s with
  | nil => exact .inr ⟨rfl, nofun⟩
  | cons party rest ih =>
    rw [Session.play]
    cases hturn : s.turn? w party with
    | none =>
      refine (ih hs).imp_right fun ⟨hsame, hblocked⟩ => ⟨hsame, ?_⟩
      exact List.forall_mem_cons.2 ⟨hturn, hblocked⟩
    | some s' =>
      have hadvances := hs.turn hturn
      have hlt := hadvances.turnsLeft_lt
      rcases ih hadvances.sound with hless | ⟨hsame, -⟩
      · exact .inl (Nat.lt_trans hless hlt)
      · exact .inl (by rw [Option.getD_some, hsame]; exact hlt)

/-- A session that is over stays so. -/
theorem Over.play (h : s.Over) (turns : List Party) : (s.play w turns).Over := by
  induction turns generalizing s with
  | nil => exact h
  | cons party rest ih =>
    obtain ⟨hproducer, result, hstage⟩ := h
    rw [Session.play]
    cases party with
    | producer => simpa [turn?, produce?, hproducer] using ih ⟨hproducer, result, hstage⟩
    | worker => simpa [turn?, work?, hstage] using ih ⟨hproducer, result, hstage⟩
    | supervisor =>
      simp only [turn?, cancel?, hstage]
      split
      · exact ih ⟨hproducer, result, hstage⟩
      · exact ih (s := s.withQueue s.pipeline.queue.cancel) ⟨hproducer, result, hstage⟩

/-- As many rounds as turns are left, with a turn for every party in each, bring the session to its
end. -/
theorem Sound.play_rounds (hs : s.Sound) {rounds : List (List Party)}
    (hfair : ∀ round ∈ rounds, ∀ party, party ∈ round) (hmany : s.turnsLeft ≤ rounds.length) :
    (s.play w rounds.flatten).Over := by
  induction rounds generalizing s with
  | nil => exact over_of_turnsLeft (Nat.le_zero.1 hmany)
  | cons round rest ih =>
    obtain ⟨hround, hfair⟩ := List.forall_mem_cons.1 hfair
    rw [List.length_cons] at hmany
    rw [List.flatten_cons, play_append]
    by_cases hover : s.Over
    · exact (hover.play _).play _
    · obtain ⟨party, hparty⟩ := hs.exists_turn w hover
      rcases hs.play_lt (w := w) round with hless | ⟨-, hblocked⟩
      · exact ih (hs.play round).1 hfair (by omega)
      · rw [hblocked party (hround party)] at hparty
        cases hparty

/-- A pipeline with one worker does not depend on the schedule. Whatever the order of turns is, when
the worker has ended, its end and the world are those of the plain loop over the pairs. If it ends
with a report, it has taken as many pairs as its limit allows and as there are, and it stopped at
the limit exactly if there were as many. A schedule in which every party has its turn time and again
brings the worker and the producer to their ends. -/
theorem play_plain (w : Worker σ) (pairs : List ProgramPair) (capacity : Nat) (world : σ) :
    (∀ turns result, ((start w pairs capacity world).play w turns).stage = .ended result →
      (result, ((start w pairs capacity world).play w turns).pipeline.world) =
        w.plain pairs world ∧
      ∀ report, result = .finished report →
        report.consumed = min w.config.limit.toNat pairs.length ∧
        (report.stop = .limitReached ↔ w.config.limit.toNat ≤ pairs.length)) ∧
    ∀ rounds : List (List Party), (∀ round ∈ rounds, ∀ party, party ∈ round) →
      3 * pairs.length + 3 ≤ rounds.length →
      ((start w pairs capacity world).play w rounds.flatten).Over := by
  have hs := sound_start w pairs capacity world
  constructor
  · intro turns result hstage
    have houtcome := (hs.play (w := w) turns).2
    have hend : ((start w pairs capacity world).play w turns).outcome w =
        (result, ((start w pairs capacity world).play w turns).pipeline.world) := by
      rw [outcome, hstage]
    have hplain := hend.symm.trans houtcome
    refine ⟨hplain, fun report hreport => ?_⟩
    subst hreport
    exact Worker.plain_finished hplain.symm
  · intro rounds hfair hmany
    refine hs.play_rounds hfair (Nat.le_trans (Nat.le_of_eq ?_) hmany)
    rfl

end

end Session

end ShaderShrink
