import Mathlib.Data.List.Basic
import ShaderShrink.JobQueue

/-!
# Calls on a queue, in any order

Any number of calls are made on a queue, and they take turns in any order. A turn is one critical
section of a call: the call is answered, or it finds that it has to wait and looks again at a later
turn of its own. `QueueRun` is what the turns have led to: the queue and the answers, the oldest one
first.

What each turn can do is said once (`JobQueue.Answers`, with `QueueCall.perform?_eq_some_iff`). All
that a reached state says about the answers so far is carried by one invariant
(`QueueRun.Faithful`), which each turn keeps (`QueueRun.Faithful.step`).
-/

namespace ShaderShrink

/-- A call on a queue. -/
inductive QueueCall (α : Type) where
  | push (item : α)
  | take
  | close
  | cancel

/-- What a call gives back. -/
inductive QueueAnswer (α : Type) where
  | pushed (result : Except (PushRefusal α) Unit)
  | taken (result : TakeResult α)
  /-- The answer of a call that gives nothing back. -/
  | done

section
variable {α : Type}

/-- A turn of a call: its answer and the queue behind it, unless the call has to wait. -/
def QueueCall.perform? : QueueCall α → JobQueue α → Option (QueueAnswer α × JobQueue α)
  | .push item, q => (q.push? item).map fun (result, q) => (.pushed result, q)
  | .take, q => q.take?.map fun (result, q) => (.taken result, q)
  | .close, q => some (.done, q.close)
  | .cancel, q => some (.done, q.cancel)

/-- The answers that the calls can get from a queue, each with the queue behind it. -/
inductive JobQueue.Answers (q : JobQueue α) :
    QueueCall α → QueueAnswer α → JobQueue α → Prop where
  | pushCancelled (item : α) (hcancelled : q.cancelled = true) :
    q.Answers (.push item) (.pushed (.error (.cancelled item))) q
  | pushClosed (item : α) (hcancelled : q.cancelled = false) (hclosed : q.closed = true) :
    q.Answers (.push item) (.pushed (.error (.closed item))) q
  | pushed (item : α) (hcancelled : q.cancelled = false) (hclosed : q.closed = false)
    (hroom : q.items.length < q.capacity) :
    q.Answers (.push item) (.pushed (.ok ())) { q with items := q.items ++ [item] }
  | takeCancelled (hcancelled : q.cancelled = true) : q.Answers .take (.taken .cancelled) q
  | taken (item : α) (items : List α) (hcancelled : q.cancelled = false)
    (hitems : q.items = item :: items) :
    q.Answers .take (.taken (.item item)) { q with items }
  | takeClosed (hcancelled : q.cancelled = false) (hitems : q.items = [])
    (hclosed : q.closed = true) : q.Answers .take (.taken .closed) q
  | close : q.Answers .close .done q.close
  | cancel : q.Answers .cancel .done q.cancel

variable {call : QueueCall α} {answer : QueueAnswer α} {q q' : JobQueue α}

/-- `Answers` lists the answers that calls get. -/
theorem QueueCall.perform?_eq_some_iff :
    call.perform? q = some (answer, q') ↔ q.Answers call answer q' := by
  constructor
  · intro h
    cases call with
    | push item =>
      simp only [perform?, JobQueue.push?] at h
      split at h
      · next hcancelled =>
        cases h
        exact .pushCancelled item hcancelled
      · next hcancelled =>
        split at h
        · next hclosed =>
          cases h
          exact .pushClosed item (Bool.eq_false_iff.2 hcancelled) hclosed
        · next hclosed =>
          split at h
          · next hroom =>
            cases h
            exact .pushed item (Bool.eq_false_iff.2 hcancelled) (Bool.eq_false_iff.2 hclosed) hroom
          · cases h
    | take =>
      simp only [perform?, JobQueue.take?] at h
      split at h
      · next hcancelled =>
        cases h
        exact .takeCancelled hcancelled
      · next hcancelled =>
        split at h
        · next hitems =>
          cases h
          exact .taken _ _ (Bool.eq_false_iff.2 hcancelled) hitems
        · next hitems =>
          split at h
          · next hclosed =>
            cases h
            exact .takeClosed (Bool.eq_false_iff.2 hcancelled) hitems hclosed
          · cases h
    | close =>
      cases h
      exact .close
    | cancel =>
      cases h
      exact .cancel
  · intro h
    cases h <;> simp_all [perform?, JobQueue.push?, JobQueue.take?]

/-- A queue is closed by a close alone, and for good. -/
theorem JobQueue.Answers.closed_iff (h : q.Answers call answer q') :
    q'.closed = true ↔ q.closed = true ∨ call = .close := by
  cases h <;> simp [JobQueue.close, JobQueue.cancel]

/-- A queue is cancelled by a cancel alone, and for good. -/
theorem JobQueue.Answers.cancelled_iff (h : q.Answers call answer q') :
    q'.cancelled = true ↔ q.cancelled = true ∨ call = .cancel := by
  cases h <;> simp [JobQueue.close, JobQueue.cancel]

/-- No answer changes the capacity of a queue. -/
theorem JobQueue.Answers.capacity_eq (h : q.Answers call answer q') : q'.capacity = q.capacity := by
  cases h <;> rfl

/-- No answer makes a queue overflow. -/
theorem JobQueue.Answers.length_le (h : q.Answers call answer q')
    (hq : q.items.length ≤ q.capacity) : q'.items.length ≤ q'.capacity := by
  cases h with
  | pushed item _ _ hroom =>
    simp only [List.length_append, List.length_cons, List.length_nil]
    omega
  | taken item items _ hitems =>
    simp only [hitems, List.length_cons] at hq
    exact Nat.le_of_succ_le hq
  | _ => exact hq

/-- A call waits only at a queue that is not cancelled: a push while the queue is open and full, a
take while the queue is open and empty. -/
theorem QueueCall.perform?_eq_none_iff : call.perform? q = none ↔
    q.cancelled = false ∧ q.closed = false ∧
      ((∃ item, call = .push item) ∧ q.capacity ≤ q.items.length ∨
        call = .take ∧ q.items = []) := by
  obtain ⟨capacity, items, closed, cancelled⟩ := q
  cases call with
  | push item => cases cancelled <;> cases closed <;> simp [perform?, JobQueue.push?]
  | take =>
    cases cancelled <;> cases closed <;> cases items <;> simp [perform?, JobQueue.take?]
  | close | cancel => simp [perform?]

end

/-! ## Runs -/

/-- A queue on which calls with names from `ι` are made. -/
structure QueueRun (ι α : Type) where
  queue : JobQueue α
  /-- The answers so far, the oldest one first, each with the call that got it. -/
  log : List (ι × QueueAnswer α)

namespace QueueRun

variable {ι α : Type}

/-- A new queue, on which no call has been answered. -/
def start (capacity : Nat) : QueueRun ι α := ⟨.new capacity, []⟩

/-- The call with this name has been answered. -/
def IsAnswered (r : QueueRun ι α) (i : ι) : Prop := i ∈ r.log.map Prod.fst

instance [DecidableEq ι] (r : QueueRun ι α) (i : ι) : Decidable (r.IsAnswered i) :=
  inferInstanceAs (Decidable (i ∈ r.log.map Prod.fst))

/-- The run with one answer more. -/
def answered (r : QueueRun ι α) (i : ι) (answer : QueueAnswer α) (queue : JobQueue α) :
    QueueRun ι α :=
  ⟨queue, r.log ++ [(i, answer)]⟩

/-- At its next turn, the call with this name gets this answer and leaves this queue behind. -/
def Gives (call : ι → QueueCall α) (r : QueueRun ι α) (i : ι) (answer : QueueAnswer α)
    (queue : JobQueue α) : Prop :=
  ¬ r.IsAnswered i ∧ (call i).perform? r.queue = some (answer, queue)

section
variable [DecidableEq ι]

/-- A turn of the call with this name. A call that has to wait leaves all as it is, and a call that
has been answered has no more turns. -/
def turn (call : ι → QueueCall α) (i : ι) (r : QueueRun ι α) : QueueRun ι α :=
  if r.IsAnswered i then r
  else
    match (call i).perform? r.queue with
    | none => r
    | some (answer, queue) => r.answered i answer queue

/-- The calls take turns in the given order. -/
def play (call : ι → QueueCall α) (r : QueueRun ι α) : List ι → QueueRun ι α
  | [] => r
  | i :: rest => play call (r.turn call i) rest

end

/-! ## The log -/

/-- The item that was accepted, if an answer says so. -/
def acceptedItem? (call : ι → QueueCall α) : ι × QueueAnswer α → Option α
  | (i, .pushed (.ok _)) =>
    match call i with
    | .push item => some item
    | _ => none
  | _ => none

/-- The item that was taken, if an answer gives one. -/
def takenItem? : ι × QueueAnswer α → Option α
  | (_, .taken (.item item)) => some item
  | _ => none

/-- The items of the pushes that succeeded, in the order in which they were accepted. -/
def accepted (call : ι → QueueCall α) (r : QueueRun ι α) : List α :=
  r.log.filterMap (acceptedItem? call)

/-- The items that were taken, in the order in which they were given. -/
def taken (r : QueueRun ι α) : List α := r.log.filterMap takenItem?

/-- Such a call has been answered. -/
def Behind (call : ι → QueueCall α) (r : QueueRun ι α) (done : QueueCall α) : Prop :=
  ∃ i, call i = done ∧ r.IsAnswered i

variable {call : ι → QueueCall α} {capacity : Nat} {r : QueueRun ι α} {i : ι}
  {answer : QueueAnswer α} {queue : JobQueue α} {done : QueueCall α}

/-- An answered call adds its item to those accepted if it is a push that went well. -/
theorem accepted_answered : (r.answered i answer queue).accepted call =
    r.accepted call ++ (acceptedItem? call (i, answer)).toList := by
  cases h : acceptedItem? call (i, answer) <;>
    simp [answered, accepted, List.filterMap_append, h]

/-- An answered call adds the item that it took, if any, to those taken. -/
theorem taken_answered : (r.answered i answer queue).taken =
    r.taken ++ (takenItem? (i, answer)).toList := by
  cases h : takenItem? (i, answer) <;> simp [answered, taken, List.filterMap_append, h]

/-- One call more is answered. -/
theorem isAnswered_answered {j : ι} :
    (r.answered i answer queue).IsAnswered j ↔ r.IsAnswered j ∨ j = i := by
  rw [answered, IsAnswered, List.map_append, List.mem_append]
  exact or_congr_right List.mem_singleton

/-- Such a call has been answered if one had been before, or if the one answered now is such a
call. -/
theorem behind_answered :
    (r.answered i answer queue).Behind call done ↔ r.Behind call done ∨ call i = done := by
  simp only [Behind, isAnswered_answered]
  constructor
  · rintro ⟨j, hj, hbefore | rfl⟩
    · exact .inl ⟨j, hj, hbefore⟩
    · exact .inr hj
  · rintro (⟨j, hj, hbefore⟩ | hi)
    · exact ⟨j, hj, .inl hbefore⟩
    · exact ⟨i, hi, .inr rfl⟩

/-! ## What holds in every state -/

/-- A push succeeds only at a queue that is neither closed nor cancelled. -/
theorem Gives.open (h : r.Gives call i (.pushed (.ok ())) queue) :
    r.queue.closed = false ∧ r.queue.cancelled = false := by
  have hanswers := QueueCall.perform?_eq_some_iff.1 h.2
  generalize call i = c at hanswers
  cases hanswers with
  | pushed item hcancelled hclosed => exact ⟨hclosed, hcancelled⟩

/-- What the queue of a run has to do with the answers so far. -/
structure Faithful (call : ι → QueueCall α) (capacity : Nat) (r : QueueRun ι α) : Prop where
  accepted_eq : r.accepted call = r.taken ++ r.queue.items
  capacity_eq : r.queue.capacity = max capacity 1
  length_le : r.queue.items.length ≤ r.queue.capacity
  closed_iff : r.queue.closed = true ↔ r.Behind call .close
  cancelled_iff : r.queue.cancelled = true ↔ r.Behind call .cancel

/-- A queue that was never called is faithful. -/
theorem faithful_start (call : ι → QueueCall α) (capacity : Nat) :
    (start capacity).Faithful call capacity where
  accepted_eq := rfl
  capacity_eq := rfl
  length_le := Nat.zero_le _
  closed_iff := by simp [start, JobQueue.new, Behind, IsAnswered]
  cancelled_iff := by simp [start, JobQueue.new, Behind, IsAnswered]

/-- A push that succeeds puts its item behind those queued, and a take that gives an item gives the
one in front; no other answer accepts or gives an item, or touches those queued. -/
theorem accepted_eq_of_answers (hr : r.accepted call = r.taken ++ r.queue.items)
    (hanswers : r.queue.Answers (call i) answer queue) :
    (r.answered i answer queue).accepted call =
      (r.answered i answer queue).taken ++ queue.items := by
  rw [accepted_answered, taken_answered, hr]
  generalize hcall : call i = c at hanswers
  cases hanswers with
  | pushed item => simp [acceptedItem?, takenItem?, hcall]
  | taken item items _ hitems => simp [acceptedItem?, takenItem?, hitems]
  | _ => simp [acceptedItem?, takenItem?, JobQueue.close, JobQueue.cancel]

/-- An answer that a call can get keeps the queue faithful. -/
theorem Faithful.step (hr : r.Faithful call capacity) (hgives : r.Gives call i answer queue) :
    (r.answered i answer queue).Faithful call capacity := by
  have hanswers := QueueCall.perform?_eq_some_iff.1 hgives.2
  exact {
    accepted_eq := accepted_eq_of_answers hr.accepted_eq hanswers
    capacity_eq := hanswers.capacity_eq.trans hr.capacity_eq
    length_le := hanswers.length_le hr.length_le
    closed_iff := by rw [behind_answered, ← hr.closed_iff]; exact hanswers.closed_iff
    cancelled_iff := by rw [behind_answered, ← hr.cancelled_iff]; exact hanswers.cancelled_iff }

variable [DecidableEq ι]

/-- What each answer keeps is kept by any number of turns. -/
theorem play_induction {P : QueueRun ι α → Prop}
    (hstep : ∀ r i answer queue, P r → r.Gives call i answer queue →
      P (r.answered i answer queue))
    (turns : List ι) (hr : P r) : P (r.play call turns) := by
  induction turns generalizing r with
  | nil => exact hr
  | cons i rest ih =>
    refine ih ?_
    rw [turn]
    split
    · exact hr
    · next hanswered =>
      split
      · exact hr
      · next hperform => exact hstep r i _ _ hr ⟨hanswered, hperform⟩

/-- Turns of the callers keep the queue faithful. -/
theorem Faithful.play (hr : r.Faithful call capacity) (turns : List ι) :
    (r.play call turns).Faithful call capacity :=
  play_induction (fun _ _ _ _ hr hgives => hr.step hgives) turns hr

/-- Behind a close all turns find a closed queue. -/
theorem closed_play (hr : r.queue.closed = true) (turns : List ι) :
    (r.play call turns).queue.closed = true :=
  play_induction (P := (·.queue.closed = true))
    (fun _ _ _ _ hr hgives =>
      (QueueCall.perform?_eq_some_iff.1 hgives.2).closed_iff.2 (.inl hr))
    turns hr

/-- Behind a cancel all turns find a cancelled queue with the items that it held. -/
theorem cancelled_play (hr : r.queue.cancelled = true) (turns : List ι) :
    (r.play call turns).queue.cancelled = true ∧
      (r.play call turns).queue.items = r.queue.items := by
  refine play_induction (P := fun r' => r'.queue.cancelled = true ∧ r'.queue.items = r.queue.items)
    (fun r' i answer queue hr' hgives => ?_) turns ⟨hr, rfl⟩
  have hanswers := QueueCall.perform?_eq_some_iff.1 hgives.2
  refine ⟨hanswers.cancelled_iff.2 (.inl hr'.1), ?_⟩
  rw [← hr'.2]
  generalize call i = c at hanswers
  cases hanswers with
  | pushed _ hcancelled | taken _ _ hcancelled => simp [hcancelled] at hr'
  | _ => rfl

/-- What a state that has been reached says of the answers so far, and of those to come. -/
structure Orderly (call : ι → QueueCall α) (capacity : Nat) (r : QueueRun ι α) : Prop where
  /-- Nothing is lost, duplicated or reordered: the accepted items are those that were taken, and
  behind them those that are queued. -/
  accepted_eq : r.accepted call = r.taken ++ r.queue.items
  length_le : r.queue.items.length ≤ max capacity 1
  /-- A push that fails hands back its own item and changes nothing. -/
  refused : ∀ i reason queue, r.Gives call i (.pushed (.error reason)) queue →
    call i = .push reason.item ∧ queue = r.queue
  /-- Who is told that the queue is closed comes behind a close, and every accepted item has been
  taken. -/
  drained : ∀ i queue, r.Gives call i (.taken .closed) queue →
    r.Behind call .close ∧ r.accepted call = r.taken
  /-- Behind a close no push succeeds any more. -/
  closed : r.Behind call .close → ∀ turns i queue,
    ¬ (r.play call turns).Gives call i (.pushed (.ok ())) queue
  /-- Behind a cancel no push succeeds any more, every take finds the queue cancelled, and the
  queued items stay as they are. -/
  cancelled : r.Behind call .cancel → ∀ turns,
    (∀ i queue, ¬ (r.play call turns).Gives call i (.pushed (.ok ())) queue) ∧
    (∀ i, call i = .take → ¬ (r.play call turns).IsAnswered i →
      (r.play call turns).Gives call i (.taken .cancelled) (r.play call turns).queue) ∧
    (r.play call turns).queue.items = r.queue.items

/-- A faithful queue is orderly. -/
theorem Faithful.orderly (hr : r.Faithful call capacity) : r.Orderly call capacity where
  accepted_eq := hr.accepted_eq
  length_le := hr.capacity_eq ▸ hr.length_le
  refused i reason queue hgives := by
    have hanswers := QueueCall.perform?_eq_some_iff.1 hgives.2
    generalize call i = c at hanswers
    cases hanswers with
    | pushCancelled item | pushClosed item => exact ⟨rfl, rfl⟩
  drained i queue hgives := by
    have hanswers := QueueCall.perform?_eq_some_iff.1 hgives.2
    generalize call i = c at hanswers
    cases hanswers with
    | takeClosed _ hitems hclosed =>
      refine ⟨hr.closed_iff.1 hclosed, ?_⟩
      rw [hr.accepted_eq, hitems, List.append_nil]
  closed hbehind turns i queue hgives := by
    have hclosed : (r.play call turns).queue.closed = true :=
      closed_play (hr.closed_iff.2 hbehind) turns
    exact absurd hclosed (by simp [hgives.open.1])
  cancelled hbehind turns := by
    obtain ⟨hcancelled, hitems⟩ : (r.play call turns).queue.cancelled = true ∧
        (r.play call turns).queue.items = r.queue.items :=
      cancelled_play (hr.cancelled_iff.2 hbehind) turns
    refine ⟨fun i queue hgives => ?_, fun i hcall hanswered => ⟨hanswered, ?_⟩, hitems⟩
    · exact absurd hcancelled (by simp [hgives.open.2])
    · rw [hcall]
      exact QueueCall.perform?_eq_some_iff.2 (.takeCancelled hcancelled)

/-- However many calls of whichever kinds are made on a new queue, and in whichever order they take
their turns, every state that is reached is orderly. -/
theorem play_orderly (call : ι → QueueCall α) (capacity : Nat) (turns : List ι) :
    ((start capacity).play call turns).Orderly call capacity :=
  ((faithful_start call capacity).play turns).orderly

-- The second push waits until the first item is taken; the close falls between its two turns.
example :
    let call : Fin 4 → QueueCall Nat
      | 0 => .push 7
      | 1 => .push 8
      | 2 => .take
      | 3 => .close
    ((start 1).play call [0, 1, 3, 2, 1]).log =
      [(0, .pushed (.ok ())), (3, .done), (2, .taken (.item 7)),
        (1, .pushed (.error (.closed 8)))] := rfl

end QueueRun

end ShaderShrink
