import Mathlib.Logic.Relation
import ShaderShrink.Proofs.Pipeline.Queue

/-!
# No wake-up is lost

Any number of callers share a queue behind a lock. A caller that holds the lock looks at the queue:
its call is answered, or it goes to sleep on the condition that it waits for, and in both cases it
gives the lock back. It sends the signals that go with its answer when it no longer holds the lock,
so other callers come in between: they may take what a signal is about before one who sleeps is
woken by it. A sleeper may also wake up without a signal.

What keeps sleepers from being forgotten is a count (`Attended`): if somebody sleeps on a condition,
then somebody has yet to send a signal to all who sleep on it, or the queue is open and there are at
least as many callers who are about to help, in that they have yet to send a signal to one sleeper
or have been woken and not looked since, as there are items or free places. What an answer does to
the count is said once (`JobQueue.Answers.signals_spec`), and so is what a change of one caller does
(`Attended.set`); every step keeps it (`QueueMonitor.Step.attended`).
-/

namespace ShaderShrink

/-! ## Conditions and signals -/

/-- What a caller may wait for. -/
inductive QueueCondition where
  | notEmpty
  | notFull
  deriving DecidableEq, Repr

/-- What wakes up callers who sleep on a condition. -/
inductive QueueSignal where
  /-- One of them is woken if there is any. -/
  | one (c : QueueCondition)
  | all (c : QueueCondition)
  deriving DecidableEq, Repr

section
variable {α : Type}

/-- The condition on which a call sleeps. -/
def QueueCall.condition? : QueueCall α → Option QueueCondition
  | .push _ => some .notFull
  | .take => some .notEmpty
  | .close | .cancel => none

/-- The signals that are sent with an answer, in their order. -/
def QueueAnswer.signals : QueueAnswer α → List QueueSignal
  | .pushed (.ok _) => [.one .notEmpty]
  | .taken (.item _) => [.one .notFull]
  | .done => [.all .notEmpty, .all .notFull]
  | .pushed (.error _) | .taken .closed | .taken .cancelled => []

namespace JobQueue

/-- The queue is neither closed nor cancelled. -/
def IsOpen (q : JobQueue α) : Prop := q.closed = false ∧ q.cancelled = false

/-- How many callers a queue that is open has something for: items for those who take, and free
places for those who push. -/
def available (q : JobQueue α) : QueueCondition → Nat
  | .notEmpty => q.items.length
  | .notFull => q.capacity - q.items.length

/-- What ends the wait for a condition. -/
def EndsWait (q : JobQueue α) : QueueCondition → Prop
  | .notEmpty => q.items ≠ [] ∨ q.closed = true ∨ q.cancelled = true
  | .notFull => q.items.length < q.capacity ∨ q.closed = true ∨ q.cancelled = true

variable {q q' : JobQueue α} {call : QueueCall α} {answer : QueueAnswer α} {c : QueueCondition}

/-- A wait ends if the call is answered at a look at the queue. -/
theorem endsWait_iff (hc : call.condition? = some c) :
    q.EndsWait c ↔ call.perform? q ≠ none := by
  rw [Ne, QueueCall.perform?_eq_none_iff]
  cases call with
  | push | take =>
    cases hc
    cases hclosed : q.closed <;> cases hcancelled : q.cancelled <;>
      simp [EndsWait, hclosed, hcancelled]
  | close | cancel => cases hc

/-- At an open queue a wait ends if there is something to take or room for something. -/
theorem IsOpen.endsWait_iff (h : q.IsOpen) : q.EndsWait c ↔ 0 < q.available c := by
  obtain ⟨hclosed, hcancelled⟩ := h
  cases c with
  | notEmpty =>
    simp only [EndsWait, available, hclosed, hcancelled, Bool.false_eq_true, or_false,
      List.length_pos_iff, ne_eq]
  | notFull =>
    simp only [EndsWait, available, hclosed, hcancelled, Bool.false_eq_true, or_false]
    omega

/-- A queue at which a caller goes to sleep is open and has nothing for it. -/
theorem available_of_not_endsWait (h : ¬ q.EndsWait c) : q.IsOpen ∧ q.available c = 0 := by
  have hopen : q.IsOpen := by
    cases c <;> simp only [EndsWait, not_or, Bool.not_eq_true] at h <;> exact h.2
  exact ⟨hopen, Nat.eq_zero_of_not_pos (mt hopen.endsWait_iff.2 h)⟩

/-- Unless an answer comes with a signal to all, it leaves an open queue open; then the queue has
one thing less of what the caller may have waited for, and at most one more of what others wait for,
which the answer signals to one of them. -/
theorem Answers.signals_spec (h : q.Answers call answer q') (c : QueueCondition) :
    .all c ∈ answer.signals ∨ (q.IsOpen → q'.IsOpen ∧
      q'.available c + (if call.condition? = some c then 1 else 0) ≤
        q.available c + (if .one c ∈ answer.signals then 1 else 0)) := by
  cases h with
  | pushCancelled _ hcancelled | takeCancelled hcancelled =>
    exact .inr fun hopen => absurd hcancelled (by simp [hopen.2])
  | pushClosed _ _ hclosed | takeClosed _ _ hclosed =>
    exact .inr fun hopen => absurd hclosed (by simp [hopen.1])
  | pushed item _ _ hroom =>
    refine .inr fun hopen => ⟨hopen, ?_⟩
    cases c with
    | notEmpty => simp [available, QueueAnswer.signals, QueueCall.condition?]
    | notFull =>
      simp only [available, List.length_append, List.length_cons, List.length_nil,
        QueueCall.condition?, ↓reduceIte]
      omega
  | taken item items _ hitems =>
    refine .inr fun hopen => ⟨hopen, ?_⟩
    cases c with
    | notEmpty => simp [available, QueueAnswer.signals, QueueCall.condition?, hitems]
    | notFull =>
      simp only [available, QueueAnswer.signals, List.mem_cons, true_or, ↓reduceIte, hitems,
        List.length_cons, QueueCall.condition?, Option.some.injEq, reduceCtorEq]
      omega
  | close | cancel => cases c <;> simp [QueueAnswer.signals]

end JobQueue

end

/-! ## Callers -/

/-- How far a call has come. -/
inductive CallPhase (α : Type) where
  /-- The caller has not looked at the queue yet. -/
  | outside
  /-- The caller holds the lock and looks at the queue next; `again` tells whether it has been
  asleep before. -/
  | holding (again : Bool)
  | asleep
  /-- The caller has been woken and wants the lock back. -/
  | woken
  /-- The caller has an answer, and these signals are still to be sent. -/
  | returning (answer : QueueAnswer α) (signals : List QueueSignal)

/-- One who makes a call. -/
structure Caller (α : Type) where
  call : QueueCall α
  phase : CallPhase α

namespace Caller

variable {α : Type}

/-- The caller sleeps on the condition. -/
def sleepsOn (c : QueueCondition) (x : Caller α) : Bool :=
  match x.phase with
  | .asleep => x.call.condition? = some c
  | _ => false

/-- The caller slept on the condition and was woken, and it has not looked at the queue since. -/
def wokenOn (c : QueueCondition) (x : Caller α) : Bool :=
  match x.phase with
  | .woken | .holding true => x.call.condition? = some c
  | _ => false

/-- The caller has still to send the signal. -/
def owes (s : QueueSignal) (x : Caller α) : Bool :=
  match x.phase with
  | .returning _ signals => s ∈ signals
  | _ => false

/-- The caller holds the lock. -/
def holds (x : Caller α) : Bool :=
  match x.phase with
  | .holding _ => true
  | _ => false

/-- The caller wakes up if it sleeps on the condition. -/
def wake (c : QueueCondition) (x : Caller α) : Caller α :=
  if x.sleepsOn c then { x with phase := .woken } else x

/-- The caller will see to it that one sleeper looks at the queue, or it looks there itself. -/
def helps (c : QueueCondition) (x : Caller α) : Bool := x.wokenOn c || x.owes (.one c)

variable {c d : QueueCondition} {s : QueueSignal} {call : QueueCall α} {answer : QueueAnswer α}
  {signals : List QueueSignal} {again : Bool}

@[simp] theorem sleepsOn_outside : sleepsOn c ⟨call, .outside⟩ = false := rfl
@[simp] theorem sleepsOn_holding : sleepsOn c ⟨call, .holding again⟩ = false := rfl
@[simp] theorem sleepsOn_woken : sleepsOn c ⟨call, .woken⟩ = false := rfl
@[simp] theorem sleepsOn_returning : sleepsOn c ⟨call, .returning answer signals⟩ = false := rfl
@[simp] theorem sleepsOn_asleep :
    sleepsOn c ⟨call, .asleep⟩ = true ↔ call.condition? = some c := decide_eq_true_iff

@[simp] theorem owes_outside : owes s ⟨call, .outside⟩ = false := rfl
@[simp] theorem owes_holding : owes s ⟨call, .holding again⟩ = false := rfl
@[simp] theorem owes_woken : owes s ⟨call, .woken⟩ = false := rfl
@[simp] theorem owes_asleep : owes s ⟨call, .asleep⟩ = false := rfl
@[simp] theorem owes_returning :
    owes s ⟨call, .returning answer signals⟩ = true ↔ s ∈ signals := decide_eq_true_iff

@[simp] theorem helps_outside : helps c ⟨call, .outside⟩ = false := rfl
@[simp] theorem helps_holding_false : helps c ⟨call, .holding false⟩ = false := rfl
@[simp] theorem helps_asleep : helps c ⟨call, .asleep⟩ = false := rfl
@[simp] theorem helps_woken : helps c ⟨call, .woken⟩ = true ↔ call.condition? = some c := by
  simp [helps, wokenOn]
@[simp] theorem helps_holding_true :
    helps c ⟨call, .holding true⟩ = true ↔ call.condition? = some c := by
  simp [helps, wokenOn]
@[simp] theorem helps_returning :
    helps c ⟨call, .returning answer signals⟩ = true ↔ .one c ∈ signals := by
  simp [helps, wokenOn]

section
variable {x : Caller α}

/-- Nobody whom a signal reached sleeps on its condition. -/
theorem sleepsOn_wake_self : (x.wake c).sleepsOn c = false := by
  rw [wake]
  split_ifs with h
  · rfl
  · exact Bool.eq_false_iff.2 h

/-- Whoever is woken owes the signals that it owed before. -/
theorem owes_wake : (x.wake d).owes s = x.owes s := by
  obtain ⟨call, phase⟩ := x
  cases phase with
  | asleep => unfold wake; split_ifs <;> rfl
  | outside | holding | woken | returning => rfl

/-- Who sleeps on one condition does not sleep on another one. -/
theorem sleepsOn_wake (h : d ≠ c) : (x.wake d).sleepsOn c = x.sleepsOn c := by
  obtain ⟨call, phase⟩ := x
  cases phase with
  | asleep =>
    rw [wake]
    split_ifs with hd
    · have hcall : call.condition? = some d := sleepsOn_asleep.1 hd
      simp [sleepsOn, hcall, h]
    · rfl
  | outside | holding | woken | returning => rfl

/-- Whoever is woken on one condition helps on another one as before. -/
theorem helps_wake (h : d ≠ c) : (x.wake d).helps c = x.helps c := by
  obtain ⟨call, phase⟩ := x
  cases phase with
  | asleep =>
    rw [wake]
    split_ifs with hd
    · have hcall : call.condition? = some d := sleepsOn_asleep.1 hd
      simp [helps, wokenOn, owes, hcall, h]
    · rfl
  | outside | holding | woken | returning => rfl

end

end Caller

/-! ## Sleepers are attended -/

/-- Nobody sleeps on the condition, or somebody has yet to wake all who do, or the queue is open and
there are at least `spare` more who are about to help than the queue has something for. -/
def Attended {α : Type} (c : QueueCondition) (spare : Nat) (q : JobQueue α)
    (xs : List (Caller α)) : Prop :=
  (∀ x ∈ xs, x.sleepsOn c = false) ∨ (∃ x ∈ xs, x.owes (.all c) = true) ∨
    (q.IsOpen ∧ q.available c + spare ≤ xs.countP (·.helps c))

section
variable {α : Type} {c d : QueueCondition} {spare spare' : Nat} {q q' : JobQueue α}
  {xs : List (Caller α)} {x y : Caller α} {i : Nat}

/-- A count after one element was changed. -/
theorem countP_set_add (p : Caller α → Bool) (hi : xs[i]? = some x) :
    (xs.set i y).countP p + (if p x then 1 else 0) = xs.countP p + (if p y then 1 else 0) := by
  obtain ⟨hlt, rfl⟩ := List.getElem?_eq_some_iff.1 hi
  have hle : (if p xs[i] then 1 else 0) ≤ xs.countP p := List.boole_getElem_le_countP hlt
  rw [List.countP_set hlt]
  omega

/-- What becomes of the sleepers when one caller goes on: it does not fall asleep and keeps the
signals to all that it has to send, and of those about to help there are still enough. -/
theorem Attended.set (h : Attended c spare q xs) (hi : xs[i]? = some x)
    (hsleeps : y.sleepsOn c = true → x.sleepsOn c = true)
    (howes : x.owes (.all c) = true → y.owes (.all c) = true)
    (hhelps : q.IsOpen → q'.IsOpen ∧ q'.available c + spare' + (if x.helps c then 1 else 0) ≤
      q.available c + spare + (if y.helps c then 1 else 0)) :
    Attended c spare' q' (xs.set i y) := by
  obtain ⟨hlt, -⟩ := List.getElem?_eq_some_iff.1 hi
  rcases h with hnone | ⟨z, hz, hall⟩ | ⟨hopen, hle⟩
  · have hx : x.sleepsOn c = false := hnone x (List.mem_of_getElem? hi)
    refine .inl fun z hz => ?_
    obtain hz | rfl := List.mem_or_eq_of_mem_set hz
    · exact hnone z hz
    · exact Bool.eq_false_iff.2 fun hs => by simp [hsleeps hs] at hx
  · refine .inr (.inl ?_)
    obtain ⟨k, hk⟩ := List.mem_iff_getElem?.1 hz
    by_cases hki : i = k
    · subst hki
      obtain rfl := Option.some.inj (hi.symm.trans hk)
      exact ⟨y, List.mem_set hlt y, howes hall⟩
    · exact ⟨z, List.mem_of_getElem? ((List.getElem?_set_ne hki).trans hk), hall⟩
  · obtain ⟨hopen', hle'⟩ := hhelps hopen
    have hcount := countP_set_add (y := y) (·.helps c) hi
    exact .inr (.inr ⟨hopen', by omega⟩)

/-- What changes callers without a change of what they do about a condition. -/
theorem Attended.map (h : Attended c spare q xs) {f : Caller α → Caller α}
    (hsleeps : ∀ x, (f x).sleepsOn c = x.sleepsOn c)
    (howes : ∀ x, (f x).owes (.all c) = x.owes (.all c))
    (hhelps : ∀ x, (f x).helps c = x.helps c) : Attended c spare q (xs.map f) := by
  rcases h with hnone | ⟨z, hz, hall⟩ | ⟨hopen, hle⟩
  · exact .inl (List.forall_mem_map.2 fun x hx => (hsleeps x).trans (hnone x hx))
  · exact .inr (.inl ⟨f z, List.mem_map_of_mem hz, (howes z).trans hall⟩)
  · refine .inr (.inr ⟨hopen, ?_⟩)
    rw [List.countP_map]
    simpa [Function.comp_def, hhelps] using hle

end

/-! ## Steps -/

/-- A queue with those who make calls on it. -/
structure QueueMonitor (α : Type) where
  queue : JobQueue α
  callers : List (Caller α)

namespace QueueMonitor

variable {α : Type}

/-- A new queue, at which the given calls are about to be made. -/
def start (capacity : Nat) (calls : List (QueueCall α)) : QueueMonitor α :=
  ⟨.new capacity, calls.map fun call => ⟨call, .outside⟩⟩

/-- One caller goes on. -/
def put (m : QueueMonitor α) (i : Nat) (x : Caller α) : QueueMonitor α :=
  { m with callers := m.callers.set i x }

@[simp] theorem queue_put {m : QueueMonitor α} {i : Nat} {x : Caller α} :
    (m.put i x).queue = m.queue := rfl

/-- Nobody holds the lock. -/
def IsFree (m : QueueMonitor α) : Prop := ∀ x ∈ m.callers, x.holds = false

instance (m : QueueMonitor α) : Decidable m.IsFree :=
  inferInstanceAs (Decidable (∀ x ∈ m.callers, x.holds = false))

/-- A step of one of the callers. -/
inductive Step (m : QueueMonitor α) : QueueMonitor α → Prop where
  | lock (i : Nat) (call : QueueCall α) (hfree : m.IsFree)
    (hi : m.callers[i]? = some ⟨call, .outside⟩) : m.Step (m.put i ⟨call, .holding false⟩)
  | relock (i : Nat) (call : QueueCall α) (hfree : m.IsFree)
    (hi : m.callers[i]? = some ⟨call, .woken⟩) : m.Step (m.put i ⟨call, .holding true⟩)
  /-- The call is answered, and the lock is given back. -/
  | answer (i : Nat) (call : QueueCall α) (again : Bool) (answer : QueueAnswer α)
    (queue : JobQueue α) (hi : m.callers[i]? = some ⟨call, .holding again⟩)
    (hperform : call.perform? m.queue = some (answer, queue)) :
    m.Step { m.put i ⟨call, .returning answer answer.signals⟩ with queue }
  /-- The call has to wait. The lock is given back as the caller falls asleep. -/
  | sleep (i : Nat) (call : QueueCall α) (again : Bool)
    (hi : m.callers[i]? = some ⟨call, .holding again⟩) (hperform : call.perform? m.queue = none) :
    m.Step (m.put i ⟨call, .asleep⟩)
  /-- A caller wakes up without a signal. -/
  | stir (i : Nat) (call : QueueCall α) (hi : m.callers[i]? = some ⟨call, .asleep⟩) :
    m.Step (m.put i ⟨call, .woken⟩)
  /-- A signal wakes one of those who sleep on its condition. -/
  | signalOne (i j : Nat) (call sleeper : QueueCall α) (answer : QueueAnswer α)
    (c : QueueCondition) (rest : List QueueSignal)
    (hi : m.callers[i]? = some ⟨call, .returning answer (.one c :: rest)⟩)
    (hj : m.callers[j]? = some ⟨sleeper, .asleep⟩) (hc : sleeper.condition? = some c) :
    m.Step ((m.put j ⟨sleeper, .woken⟩).put i ⟨call, .returning answer rest⟩)
  /-- A signal to one finds nobody who sleeps on its condition. -/
  | signalNone (i : Nat) (call : QueueCall α) (answer : QueueAnswer α) (c : QueueCondition)
    (rest : List QueueSignal)
    (hi : m.callers[i]? = some ⟨call, .returning answer (.one c :: rest)⟩)
    (hnone : ∀ x ∈ m.callers, x.sleepsOn c = false) :
    m.Step (m.put i ⟨call, .returning answer rest⟩)
  /-- A signal wakes all who sleep on its condition. -/
  | signalAll (i : Nat) (call : QueueCall α) (answer : QueueAnswer α) (c : QueueCondition)
    (rest : List QueueSignal)
    (hi : m.callers[i]? = some ⟨call, .returning answer (.all c :: rest)⟩) :
    m.Step ⟨m.queue, (m.callers.set i ⟨call, .returning answer rest⟩).map (Caller.wake c)⟩

variable {m m' : QueueMonitor α} {c : QueueCondition}

/-- No step leaves sleepers unattended. -/
theorem Step.attended (h : m.Step m') (hm : ∀ c, Attended c 0 m.queue m.callers)
    (c : QueueCondition) : Attended c 0 m'.queue m'.callers := by
  cases h with
  | lock i call _ hi => exact (hm c).set hi (by simp) (by simp) fun hopen => ⟨hopen, by simp⟩
  | relock i call _ hi => exact (hm c).set hi (by simp) (by simp) fun hopen => ⟨hopen, by simp⟩
  | answer i call again answer queue hi hperform =>
    have hanswers := QueueCall.perform?_eq_some_iff.1 hperform
    rcases hanswers.signals_spec c with hall | hspec
    · obtain ⟨hlt, -⟩ := List.getElem?_eq_some_iff.1 hi
      exact .inr (.inl ⟨_, List.mem_set hlt _, by simpa using hall⟩)
    · refine (hm c).set hi (by simp) (by simp) fun hopen => ?_
      obtain ⟨hopen', hle⟩ := hspec hopen
      refine ⟨hopen', ?_⟩
      have hhelps : (if Caller.helps c ⟨call, .holding again⟩ then 1 else 0) ≤
          if call.condition? = some c then 1 else 0 := by
        cases again <;> simp
      simp only [Caller.helps_returning]
      omega
  | sleep i call again hi hperform =>
    by_cases hc : call.condition? = some c
    · have hwait : ¬ m.queue.EndsWait c := by
        rw [JobQueue.endsWait_iff hc]
        exact not_not.2 hperform
      obtain ⟨hopen, hzero⟩ := JobQueue.available_of_not_endsWait hwait
      exact .inr (.inr ⟨hopen, by simp [put, hzero]⟩)
    · -- on another condition there is no sleeper more, and nobody less who helps
      refine (hm c).set hi (by simp [hc]) (by simp) fun hopen => ⟨hopen, ?_⟩
      cases again <;> simp [hc]
  | stir i call hi => exact (hm c).set hi (by simp) (by simp) fun hopen => ⟨hopen, by simp⟩
  | signalOne i j call sleeper answer d rest hi hj hd =>
    have hne : j ≠ i := by
      rintro rfl
      simp [hi] at hj
    -- the sleeper that wakes up helps where the one who sent the signal helped
    have hwoken : Attended c (if d = c then 1 else 0) m.queue
        (m.callers.set j ⟨sleeper, .woken⟩) :=
      (hm c).set hj (by simp) (by simp) fun hopen => ⟨hopen, by simp [hd]⟩
    refine hwoken.set ((List.getElem?_set_ne hne).trans hi) (by simp) (by simp) fun hopen =>
      ⟨hopen, ?_⟩
    by_cases hdc : d = c
    · subst hdc
      simp
    · simp [hdc, Ne.symm hdc]
  | signalNone i call answer d rest hi hnone =>
    by_cases hdc : d = c
    · subst hdc
      refine .inl fun x hx => ?_
      obtain hx | rfl := List.mem_or_eq_of_mem_set hx
      · exact hnone x hx
      · rfl
    · exact (hm c).set hi (by simp) (by simp) fun hopen => ⟨hopen, by simp [Ne.symm hdc]⟩
  | signalAll i call answer d rest hi =>
    by_cases hdc : d = c
    · subst hdc
      exact .inl (List.forall_mem_map.2 fun x _ => Caller.sleepsOn_wake_self)
    · have hset : Attended c 0 m.queue (m.callers.set i ⟨call, .returning answer rest⟩) :=
        (hm c).set hi (by simp) (by simp [Ne.symm hdc]) fun hopen => ⟨hopen, by simp⟩
      exact hset.map (fun x => Caller.sleepsOn_wake hdc) (fun x => Caller.owes_wake)
        (fun x => Caller.helps_wake hdc)

/-! ## Runs -/

/-- A state that is reached from a new queue by any steps of the callers. -/
def IsReached (capacity : Nat) (calls : List (QueueCall α)) (m : QueueMonitor α) : Prop :=
  Relation.ReflTransGen Step (start capacity calls) m

variable {capacity : Nat} {calls : List (QueueCall α)}

/-- On every condition the sleepers are attended to, wherever the callers have come to. -/
theorem IsReached.attended (h : m.IsReached capacity calls) :
    ∀ c, Attended c 0 m.queue m.callers := by
  induction h with
  | refl => exact fun c => .inl (List.forall_mem_map.2 fun call _ => rfl)
  | tail _ hstep ih => exact hstep.attended ih

/-- In every state that is reached, if a caller sleeps though there is what ends its wait, be it an
item, a free place or a queue that is closed or cancelled, then a signal on its condition has still
to be sent, or another caller who slept on this condition was woken and has not looked at the queue
since. -/
theorem exists_waker_of_isReached (h : m.IsReached capacity calls) {x : Caller α}
    (hx : x ∈ m.callers) (hsleeps : x.sleepsOn c = true) (hends : m.queue.EndsWait c) :
    ∃ y ∈ m.callers,
      y.owes (.one c) = true ∨ y.owes (.all c) = true ∨ y.wokenOn c = true := by
  rcases h.attended c with hnone | ⟨y, hy, hall⟩ | ⟨hopen, hle⟩
  · simp [hnone x hx] at hsleeps
  · exact ⟨y, hy, .inr (.inl hall)⟩
  · have havailable : 0 < m.queue.available c := hopen.endsWait_iff.1 hends
    have hcount : 0 < m.callers.countP (·.helps c) := by omega
    obtain ⟨y, hy, hhelps⟩ := List.countP_pos_iff.1 hcount
    rw [Caller.helps, Bool.or_eq_true] at hhelps
    exact ⟨y, hy, hhelps.elim (.inr ∘ .inr) .inl⟩

/-- One caller went to sleep at an empty queue, and another one has pushed an item since, but it has
not signalled that yet. -/
def betweenPushAndSignal : QueueMonitor Nat :=
  ⟨⟨1, [7], false, false⟩,
    [⟨.take, .asleep⟩, ⟨.push 7, .returning (.pushed (.ok ())) [.one .notEmpty]⟩]⟩

/-- A taker sleeps at a queue with an item in it, and the one who pushed the item has yet to send
the signal. -/
theorem exists_waker_betweenPushAndSignal :
    betweenPushAndSignal.IsReached 1 [.take, .push 7] ∧
      ∃ y ∈ betweenPushAndSignal.callers,
        y.owes (.one .notEmpty) = true ∨ y.owes (.all .notEmpty) = true ∨
          y.wokenOn .notEmpty = true := by
  have hreached : betweenPushAndSignal.IsReached 1 [.take, .push 7] :=
    .tail (.tail (.tail (.tail .refl (.lock 0 .take (by decide) rfl))
      (.sleep 0 .take false rfl rfl)) (.lock 1 (.push 7) (by decide) rfl))
      (.answer 1 (.push 7) false (.pushed (.ok ())) ⟨1, [7], false, false⟩ rfl rfl)
  exact ⟨hreached, exists_waker_of_isReached hreached List.mem_cons_self rfl (.inl nofun)⟩

end QueueMonitor

end ShaderShrink
