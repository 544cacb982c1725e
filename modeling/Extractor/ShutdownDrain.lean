import Mathlib.Data.Nat.Notation
import Extractor.Lib.System

/-!
# The shutdown drain

`AdmissionController`: the gate that work passes before it starts, and that shutdown closes and
waits on. `try_admit` checks the gate, counts itself and checks again; `close` shuts the gate;
`drained` waits until the counter is zero. Every atomic operation is a step, in one sequentially
consistent order, of any number of admissions and permit drops, one close and one wait.

The counter does not reach the end of its type: every permit holds a reference to the shared state.

## Main results

* `shutdown_drain`: the counter is the number of live permits and undecided admissions, and is
  positive whenever it is decremented; after a wait that began on a closed gate has returned, no
  permit is live, then or ever after.
* `drained_wakes`: a wait that was not notified has work to wait for, or a notification is due.
-/

namespace Extractor

/-- Where a call of `try_admit`, and the permit it returned, is. -/
inductive AdmitPhase
  | begun
  /-- The first load saw an open gate. -/
  | passed
  /-- The counter was incremented. -/
  | tentative
  /-- The second load saw an open gate: the permit is live. -/
  | live
  /-- The second load saw a closed gate: the counter is to be decremented. -/
  | rejecting
  /-- The counter was decremented to zero: the waiters are to be notified. -/
  | notifying
  /-- The call returned an error, or the permit is dropped. -/
  | finished
  deriving DecidableEq

/-- An admission between its increment and the step that decides it. -/
def AdmitPhase.undecided (phase : AdmitPhase) : Bool := phase == .tentative || phase == .rejecting

/-- The counter counts the call. -/
def AdmitPhase.counted (phase : AdmitPhase) : Bool := phase == .live || phase.undecided

/-- Where `close` is. -/
inductive ClosePhase
  | before
  /-- The gate is closed; the counter is to be read. -/
  | stored
  | notifying
  | closed
  deriving DecidableEq

/-- Where `drained` is; `closed` says that the gate was closed when it was called, `notified` that
its current `Notified` was notified. -/
inductive DrainPhase
  | idle
  /-- A `Notified` is armed, the counter is to be read. -/
  | armed (notified closed : Bool)
  | waiting (notified closed : Bool)
  | returned (closed : Bool)
  deriving DecidableEq

/-- `AdmissionState` and the calls on it. -/
structure DrainState where
  accepting : Bool
  active : ℕ
  calls : List AdmitPhase
  close : ClosePhase
  drain : DrainPhase
  deriving DecidableEq

namespace DrainState

/-- `AdmissionController::new`. -/
def new : DrainState := ⟨true, 0, [], .before, .idle⟩

/-- A call moves on. -/
def move (s : DrainState) (k : ℕ) (phase : AdmitPhase) : DrainState :=
  { s with calls := s.calls.set k phase }

/-- `notify_waiters`: a `Notified` that was created before is notified. -/
def notifyWaiters (s : DrainState) : DrainState :=
  { s with
    drain := match s.drain with
      | .armed _ closed => .armed true closed
      | .waiting _ closed => .waiting true closed
      | phase => phase }

/-- `fetch_sub` of `release_one`. -/
def releaseOne (s : DrainState) (k : ℕ) : DrainState :=
  { s.move k (if s.active = 1 then .notifying else .finished) with active := s.active - 1 }

/-- `drained` reads the counter. -/
def drainLoad (s : DrainState) : Option DrainState :=
  match s.drain with
  | .armed notified closed =>
      some { s with
        drain := if s.active = 0 then .returned closed else .waiting notified closed }
  | _ => none

/-- `drained` was notified, and arms the next `Notified`. -/
def drainWake (s : DrainState) : Option DrainState :=
  match s.drain with
  | .waiting true closed => some { s with drain := .armed false closed }
  | _ => none

end DrainState

/-- The atomic operations. -/
inductive DrainLabel
  /-- `try_admit` is called. -/
  | begin
  | load (k : ℕ)
  | increment (k : ℕ)
  | recheck (k : ℕ)
  /-- The decrement of a rejected admission. -/
  | reject (k : ℕ)
  /-- The decrement of a dropped permit. -/
  | drop (k : ℕ)
  | notify (k : ℕ)
  | closeStore
  | closeLoad
  | closeNotify
  | drainCall
  | drainLoad
  | drainWake
  /-- The grace deadline passes. -/
  | drainStop

/-- A call in one phase takes a step. -/
def DrainState.advance (s : DrainState) (k : ℕ) (phase : AdmitPhase) (next : DrainState) :
    Option DrainState :=
  if s.calls[k]? = some phase then some next else none

/-- One atomic operation. -/
def drainStep (s : DrainState) : DrainLabel → Option DrainState
  | .begin => some { s with calls := s.calls ++ [.begun] }
  | .load k => s.advance k .begun (s.move k (if s.accepting then .passed else .finished))
  | .increment k => s.advance k .passed { s.move k .tentative with active := s.active + 1 }
  | .recheck k => s.advance k .tentative (s.move k (if s.accepting then .live else .rejecting))
  | .reject k => s.advance k .rejecting (s.releaseOne k)
  | .drop k => s.advance k .live (s.releaseOne k)
  | .notify k => s.advance k .notifying (s.move k .finished).notifyWaiters
  | .closeStore =>
      if s.close = .before then some { s with accepting := false, close := .stored } else none
  | .closeLoad =>
      if s.close = .stored then
        some { s with close := if s.active = 0 then .notifying else .closed }
      else none
  | .closeNotify =>
      if s.close = .notifying then some { s with close := .closed }.notifyWaiters else none
  | .drainCall =>
      if s.drain = .idle then some { s with drain := .armed false !s.accepting } else none
  | .drainLoad => s.drainLoad
  | .drainWake => s.drainWake
  | .drainStop => some { s with drain := .idle }

/-- **The gate** from its creation. -/
def drainSystem : Labelled.System DrainState DrainLabel :=
  Labelled.System.ofStep (fun s => s = DrainState.new) drainStep

/-! ### The counter -/

section Counter

variable {s t : DrainState}

theorem DrainState.advance_eq_some {k : ℕ} {phase : AdmitPhase} {next : DrainState}
    (h : s.advance k phase next = some t) : s.calls[k]? = some phase ∧ t = next := by
  unfold DrainState.advance at h
  obtain ⟨hphase, heq⟩ := Option.ite_none_right_eq_some.mp h
  exact ⟨hphase, (Option.some.inj heq).symm⟩

theorem DrainState.drainLoad_eq_some (h : s.drainLoad = some t) :
    ∃ notified closed, s.drain = .armed notified closed ∧
      t = { s with
        drain := if s.active = 0 then .returned closed else .waiting notified closed } := by
  unfold DrainState.drainLoad at h
  split at h
  · next notified closed hdrain => exact ⟨notified, closed, hdrain, (Option.some.inj h).symm⟩
  · cases h

theorem DrainState.drainWake_eq_some (h : s.drainWake = some t) :
    ∃ closed, s.drain = .waiting true closed ∧ t = { s with drain := .armed false closed } := by
  unfold DrainState.drainWake at h
  split at h
  · next closed hdrain => exact ⟨closed, hdrain, (Option.some.inj h).symm⟩
  · cases h

/-- **Moving one call** changes a count by what the call counts before and after. -/
theorem countP_set_of_getElem? {calls : List AdmitPhase} {k : ℕ} {phase : AdmitPhase}
    (p : AdmitPhase → Bool) (next : AdmitPhase) (h : calls[k]? = some phase) :
    (calls.set k next).countP p + (if p phase then 1 else 0) =
      calls.countP p + (if p next then 1 else 0) := by
  obtain ⟨hk, rfl⟩ := List.getElem?_eq_some_iff.mp h
  have hpos : (if p calls[k] then 1 else 0) ≤ calls.countP p := by
    by_cases hp : p calls[k] = true
    · rw [if_pos hp]
      exact List.countP_pos_iff.mpr ⟨_, List.getElem_mem hk, hp⟩
    · rw [if_neg hp]
      exact Nat.zero_le _
  rw [List.countP_set hk]
  omega

/-- Live permits and undecided admissions are the counted calls. -/
theorem countP_counted (calls : List AdmitPhase) :
    calls.countP AdmitPhase.counted =
      calls.countP (· == .live) + calls.countP AdmitPhase.undecided := by
  induction calls with
  | nil => rfl
  | cons phase calls ih =>
      rw [List.countP_cons, List.countP_cons, List.countP_cons, ih]
      cases phase <;> simp [AdmitPhase.counted, AdmitPhase.undecided] <;> omega

/-- **The counter** counts the calls that it should. -/
def Counted (s : DrainState) : Prop := s.active = s.calls.countP AdmitPhase.counted

theorem Counted.move {k : ℕ} {phase next : AdmitPhase} (hs : Counted s)
    (hphase : s.calls[k]? = some phase) (hsame : next.counted = phase.counted) :
    Counted (s.move k next) := by
  have hset := countP_set_of_getElem? AdmitPhase.counted next hphase
  rw [hsame] at hset
  have hs : s.active = s.calls.countP AdmitPhase.counted := hs
  change s.active = (s.calls.set k next).countP AdmitPhase.counted
  omega

theorem Counted.notifyWaiters (hs : Counted s) : Counted s.notifyWaiters := hs

/-- A counted call leaves the counter. -/
theorem Counted.releaseOne {k : ℕ} {phase : AdmitPhase} (hs : Counted s)
    (hphase : s.calls[k]? = some phase) (hcounted : phase.counted = true) :
    Counted (s.releaseOne k) := by
  have hs : s.active = s.calls.countP AdmitPhase.counted := hs
  have hleft : ∀ next : AdmitPhase, next.counted = false →
      s.active - 1 = (s.calls.set k next).countP AdmitPhase.counted := by
    intro next hnext
    have hset := countP_set_of_getElem? AdmitPhase.counted next hphase
    rw [hcounted, hnext, if_pos rfl, if_neg Bool.false_ne_true] at hset
    omega
  change s.active - 1 = (s.calls.set k _).countP AdmitPhase.counted
  by_cases hone : s.active = 1
  · rw [if_pos hone]
    exact hleft _ rfl
  · rw [if_neg hone]
    exact hleft _ rfl

/-- **Every atomic operation keeps the count.** -/
theorem Counted.step {l : DrainLabel} (hs : Counted s) (hst : drainStep s l = some t) :
    Counted t := by
  cases l with
  | begin =>
      obtain rfl := Option.some.inj hst
      change s.active = (s.calls ++ [AdmitPhase.begun]).countP AdmitPhase.counted
      rw [List.countP_append]
      exact hs
  | load k =>
      obtain ⟨hphase, rfl⟩ := DrainState.advance_eq_some hst
      cases s.accepting with
      | true => exact hs.move hphase rfl
      | false => exact hs.move hphase rfl
  | increment k =>
      obtain ⟨hphase, rfl⟩ := DrainState.advance_eq_some hst
      have hset := countP_set_of_getElem? AdmitPhase.counted .tentative hphase
      have hs : s.active = s.calls.countP AdmitPhase.counted := hs
      change s.active + 1 = (s.calls.set k .tentative).countP AdmitPhase.counted
      change _ + 0 = _ + 1 at hset
      omega
  | recheck k =>
      obtain ⟨hphase, rfl⟩ := DrainState.advance_eq_some hst
      cases s.accepting with
      | true => exact hs.move hphase rfl
      | false => exact hs.move hphase rfl
  | reject k =>
      obtain ⟨hphase, rfl⟩ := DrainState.advance_eq_some hst
      exact hs.releaseOne hphase rfl
  | drop k =>
      obtain ⟨hphase, rfl⟩ := DrainState.advance_eq_some hst
      exact hs.releaseOne hphase rfl
  | notify k =>
      obtain ⟨hphase, rfl⟩ := DrainState.advance_eq_some hst
      have hmoved : Counted (s.move k .finished) := hs.move hphase rfl
      exact hmoved.notifyWaiters
  | closeStore | closeLoad | closeNotify | drainCall =>
      obtain ⟨-, heq⟩ := Option.ite_none_right_eq_some.mp hst
      obtain rfl := Option.some.inj heq
      exact hs
  | drainLoad =>
      obtain ⟨_, _, -, rfl⟩ := DrainState.drainLoad_eq_some hst
      exact hs
  | drainWake =>
      obtain ⟨_, -, rfl⟩ := DrainState.drainWake_eq_some hst
      exact hs
  | drainStop =>
      obtain rfl := Option.some.inj hst
      exact hs

theorem counted_of_reachable (h : drainSystem.Reachable s) : Counted s :=
  h.invariant (fun _ hs => hs ▸ rfl) fun _ _ _ _ hs hst => hs.step hst

/-! ### The drained gate -/

/-- The gate is closed and no permit is live. -/
structure Drained (s : DrainState) : Prop where
  shut : s.accepting = false
  none_live : AdmitPhase.live ∉ s.calls

/-- A call that moves to another phase than `live` leaves no permit live where none was. -/
theorem not_mem_set {calls : List AdmitPhase} {k : ℕ} {next : AdmitPhase}
    (h : AdmitPhase.live ∉ calls) (hnext : next ≠ .live) : AdmitPhase.live ∉ calls.set k next :=
  fun hmem => (List.mem_or_eq_of_mem_set hmem).elim h fun heq => hnext heq.symm

/-- **A drained gate stays drained**: no admission returns a permit again. -/
theorem Drained.step {l : DrainLabel} (hs : Drained s) (hst : drainStep s l = some t) :
    Drained t := by
  obtain ⟨hshut, hnone⟩ := hs
  cases l with
  | begin =>
      obtain rfl := Option.some.inj hst
      refine ⟨hshut, fun hmem => ?_⟩
      rcases List.mem_append.mp hmem with hold | hnew
      · exact hnone hold
      · cases List.mem_singleton.mp hnew
  | load k =>
      obtain ⟨-, rfl⟩ := DrainState.advance_eq_some hst
      rw [hshut]
      exact ⟨hshut, not_mem_set hnone (by nofun)⟩
  | increment k =>
      obtain ⟨-, rfl⟩ := DrainState.advance_eq_some hst
      exact ⟨hshut, not_mem_set hnone (by nofun)⟩
  | recheck k =>
      -- the second load sees the closed gate
      obtain ⟨-, rfl⟩ := DrainState.advance_eq_some hst
      rw [hshut]
      exact ⟨hshut, not_mem_set hnone (by nofun)⟩
  | reject k | drop k =>
      obtain ⟨-, rfl⟩ := DrainState.advance_eq_some hst
      refine ⟨hshut, not_mem_set hnone ?_⟩
      by_cases hone : s.active = 1
      · rw [if_pos hone]
        nofun
      · rw [if_neg hone]
        nofun
  | notify k =>
      obtain ⟨-, rfl⟩ := DrainState.advance_eq_some hst
      exact ⟨hshut, not_mem_set hnone (by nofun)⟩
  | closeStore =>
      obtain ⟨-, heq⟩ := Option.ite_none_right_eq_some.mp hst
      obtain rfl := Option.some.inj heq
      exact ⟨rfl, hnone⟩
  | closeLoad | closeNotify | drainCall =>
      obtain ⟨-, heq⟩ := Option.ite_none_right_eq_some.mp hst
      obtain rfl := Option.some.inj heq
      exact ⟨hshut, hnone⟩
  | drainLoad =>
      obtain ⟨_, _, -, rfl⟩ := DrainState.drainLoad_eq_some hst
      exact ⟨hshut, hnone⟩
  | drainWake =>
      obtain ⟨_, -, rfl⟩ := DrainState.drainWake_eq_some hst
      exact ⟨hshut, hnone⟩
  | drainStop =>
      obtain rfl := Option.some.inj hst
      exact ⟨hshut, hnone⟩

/-- The wait began on a closed gate. -/
def DrainPhase.onClosed : DrainPhase → Bool
  | .armed _ closed | .waiting _ closed | .returned closed => closed
  | .idle => false

/-- **The invariant of the wait**: it began on a closed gate only if the gate is closed, and it has
returned from such a gate only if the gate is drained. -/
structure WaitInv (s : DrainState) : Prop where
  closed : s.drain.onClosed = true → s.accepting = false
  returned : s.drain = .returned true → Drained s

theorem onClosed_notifyWaiters (s : DrainState) :
    s.notifyWaiters.drain.onClosed = s.drain.onClosed := by
  unfold DrainState.notifyWaiters
  cases s.drain <;> rfl

theorem returned_notifyWaiters {closed : Bool} (h : s.notifyWaiters.drain = .returned closed) :
    s.drain = .returned closed := by
  unfold DrainState.notifyWaiters at h
  cases hdrain : s.drain with
  | returned c =>
      rw [hdrain] at h
      exact h
  | idle | armed | waiting =>
      rw [hdrain] at h
      cases h

/-- No step opens the gate. -/
theorem accepting_step {l : DrainLabel} (hst : drainStep s l = some t)
    (h : s.accepting = false) : t.accepting = false := by
  cases l with
  | begin | drainStop =>
      obtain rfl := Option.some.inj hst
      exact h
  | load k | increment k | recheck k | reject k | drop k | notify k =>
      obtain ⟨-, rfl⟩ := DrainState.advance_eq_some hst
      exact h
  | closeStore | closeLoad | closeNotify | drainCall =>
      obtain ⟨-, heq⟩ := Option.ite_none_right_eq_some.mp hst
      obtain rfl := Option.some.inj heq
      first | exact h | rfl
  | drainLoad =>
      obtain ⟨_, _, -, rfl⟩ := DrainState.drainLoad_eq_some hst
      exact h
  | drainWake =>
      obtain ⟨_, -, rfl⟩ := DrainState.drainWake_eq_some hst
      exact h

/-- Steps that leave the wait as it is. -/
theorem WaitInv.of_drain_eq {l : DrainLabel} (hs : WaitInv s) (hst : drainStep s l = some t)
    (hclosed : t.drain.onClosed = s.drain.onClosed)
    (hreturned : t.drain = .returned true → s.drain = .returned true) : WaitInv t where
  closed h := accepting_step hst (hs.closed (hclosed ▸ h))
  returned h := (hs.returned (hreturned h)).step hst

/-- **Every atomic operation keeps the invariant of the wait.** -/
theorem WaitInv.step {l : DrainLabel} (hs : WaitInv s) (hcounted : Counted s)
    (hst : drainStep s l = some t) : WaitInv t := by
  have hsame := hs.of_drain_eq hst
  cases l with
  | begin =>
      obtain rfl := Option.some.inj hst
      exact hsame rfl id
  | load k | increment k | recheck k | reject k | drop k =>
      obtain ⟨-, rfl⟩ := DrainState.advance_eq_some hst
      exact hsame rfl id
  | notify k =>
      obtain ⟨-, rfl⟩ := DrainState.advance_eq_some hst
      exact hsame (onClosed_notifyWaiters _) returned_notifyWaiters
  | closeStore | closeLoad =>
      obtain ⟨-, heq⟩ := Option.ite_none_right_eq_some.mp hst
      obtain rfl := Option.some.inj heq
      exact hsame rfl id
  | closeNotify =>
      obtain ⟨-, heq⟩ := Option.ite_none_right_eq_some.mp hst
      obtain rfl := Option.some.inj heq
      exact hsame (onClosed_notifyWaiters { s with close := .closed }) returned_notifyWaiters
  | drainCall =>
      obtain ⟨-, heq⟩ := Option.ite_none_right_eq_some.mp hst
      obtain rfl := Option.some.inj heq
      refine ⟨fun h => ?_, nofun⟩
      simpa [DrainPhase.onClosed] using h
  | drainLoad =>
      obtain ⟨notified, closed, hdrain, rfl⟩ := DrainState.drainLoad_eq_some hst
      have hclosed : closed = true → s.accepting = false := fun h =>
        hs.closed (by rw [hdrain]; exact h)
      by_cases hzero : s.active = 0
      · rw [if_pos hzero]
        refine ⟨hclosed, fun h => ⟨hclosed (DrainPhase.returned.inj h), fun hmem => ?_⟩⟩
        -- a live permit would be counted
        have hpos : 0 < s.calls.countP AdmitPhase.counted :=
          List.countP_pos_iff.mpr ⟨_, hmem, rfl⟩
        have hcounted : s.active = s.calls.countP AdmitPhase.counted := hcounted
        omega
      · rw [if_neg hzero]
        exact ⟨hclosed, nofun⟩
  | drainWake =>
      obtain ⟨closed, hdrain, rfl⟩ := DrainState.drainWake_eq_some hst
      exact ⟨fun h => hs.closed (by rw [hdrain]; exact h), nofun⟩
  | drainStop =>
      obtain rfl := Option.some.inj hst
      exact ⟨nofun, nofun⟩

theorem waitInv_of_reachable (h : drainSystem.Reachable s) : WaitInv s := by
  refine h.invariant (fun _ hs => ?_) fun _ _ _ hreach hs hst =>
    hs.step (counted_of_reachable hreach) hst
  subst hs
  exact ⟨nofun, nofun⟩

/-- **The shutdown drain.** In every interleaving: the counter is the number of live permits and of
admissions that were counted and not decided; it is positive whenever a call is about to decrement
it; and once a wait that was called on a closed gate has returned, no permit is live, and no later
state has a live permit. -/
theorem shutdown_drain (h : drainSystem.Reachable s) :
    s.active = s.calls.countP (· == .live) + s.calls.countP AdmitPhase.undecided ∧
    (∀ phase ∈ s.calls, phase = .live ∨ phase = .rejecting → 0 < s.active) ∧
    (s.drain = .returned true → ∀ t ls, drainSystem.Run s ls t → AdmitPhase.live ∉ t.calls) := by
  have hcounted : s.active = s.calls.countP AdmitPhase.counted := counted_of_reachable h
  refine ⟨?_, fun phase hphase hdecrements => ?_, fun hreturned t ls hrun => ?_⟩
  · rw [hcounted, countP_counted]
  · have hpos : 0 < s.calls.countP AdmitPhase.counted := by
      refine List.countP_pos_iff.mpr ⟨phase, hphase, ?_⟩
      rcases hdecrements with rfl | rfl <;> rfl
    omega
  · have hdrained := (waitInv_of_reachable h).returned hreturned
    exact (hrun.invariant hdrained fun _ _ _ hs hst => hs.step hst).none_live

/-! ### Wake-ups -/

/-- A wait that was not notified has work to wait for, or a notification is due. -/
def Wakes (s : DrainState) : Prop :=
  ∀ closed, s.drain = .waiting false closed →
    0 < s.active ∨ AdmitPhase.notifying ∈ s.calls ∨ s.close = .notifying

theorem not_waiting_notifyWaiters {closed : Bool} :
    s.notifyWaiters.drain ≠ .waiting false closed := by
  unfold DrainState.notifyWaiters
  cases s.drain <;> simp

/-- A call that leaves another phase than `notifying` takes no due notification away. -/
theorem mem_set_of_mem {calls : List AdmitPhase} {k : ℕ} {phase next : AdmitPhase}
    (hphase : calls[k]? = some phase) (hne : phase ≠ .notifying)
    (h : AdmitPhase.notifying ∈ calls) : AdmitPhase.notifying ∈ calls.set k next := by
  obtain ⟨i, hi⟩ := List.mem_iff_getElem?.mp h
  have hik : k ≠ i := by
    rintro rfl
    exact hne (Option.some.inj (hphase.symm.trans hi))
  exact List.mem_of_getElem? ((List.getElem?_set_ne hik).trans hi)

theorem Wakes.move {k : ℕ} {phase next : AdmitPhase} (hs : Wakes s)
    (hphase : s.calls[k]? = some phase) (hne : phase ≠ .notifying) : Wakes (s.move k next) :=
  fun closed hdrain => (hs closed hdrain).imp_right fun h =>
    h.imp_left (mem_set_of_mem hphase hne)

/-- The last call to leave the counter owes a notification. -/
theorem Wakes.releaseOne {k : ℕ} {phase : AdmitPhase} (hs : Wakes s)
    (hphase : s.calls[k]? = some phase) (hne : phase ≠ .notifying) : Wakes (s.releaseOne k) := by
  intro closed hdrain
  obtain ⟨hk, -⟩ := List.getElem?_eq_some_iff.mp hphase
  by_cases hone : s.active = 1
  · refine .inr (.inl ?_)
    change AdmitPhase.notifying ∈ s.calls.set k (if s.active = 1 then .notifying else .finished)
    rw [if_pos hone]
    exact List.mem_set hk _
  · rcases hs closed hdrain with hactive | hcalls | hclose
    · refine .inl ?_
      change 0 < s.active - 1
      omega
    · exact .inr (.inl (mem_set_of_mem hphase hne hcalls))
    · exact .inr (.inr hclose)

/-- **No wake-up is lost.** -/
theorem Wakes.step {l : DrainLabel} (hs : Wakes s) (hst : drainStep s l = some t) : Wakes t := by
  cases l with
  | begin =>
      obtain rfl := Option.some.inj hst
      exact fun closed hdrain => (hs closed hdrain).imp_right fun h =>
        h.imp_left (List.mem_append_left _)
  | load k | recheck k =>
      obtain ⟨hphase, rfl⟩ := DrainState.advance_eq_some hst
      exact hs.move hphase (by nofun)
  | increment k =>
      obtain ⟨-, rfl⟩ := DrainState.advance_eq_some hst
      exact fun _ _ => .inl (Nat.succ_pos _)
  | reject k | drop k =>
      obtain ⟨hphase, rfl⟩ := DrainState.advance_eq_some hst
      exact hs.releaseOne hphase (by nofun)
  | notify k =>
      obtain ⟨-, rfl⟩ := DrainState.advance_eq_some hst
      exact fun _ hdrain => absurd hdrain not_waiting_notifyWaiters
  | closeStore | closeLoad =>
      obtain ⟨hclose, heq⟩ := Option.ite_none_right_eq_some.mp hst
      obtain rfl := Option.some.inj heq
      intro closed hdrain
      rcases hs closed hdrain with hactive | hcalls | hdue
      · exact .inl hactive
      · exact .inr (.inl hcalls)
      · rw [hclose] at hdue
        cases hdue
  | closeNotify =>
      obtain ⟨-, heq⟩ := Option.ite_none_right_eq_some.mp hst
      obtain rfl := Option.some.inj heq
      exact fun _ hdrain => absurd hdrain not_waiting_notifyWaiters
  | drainCall =>
      obtain ⟨-, heq⟩ := Option.ite_none_right_eq_some.mp hst
      obtain rfl := Option.some.inj heq
      nofun
  | drainLoad =>
      obtain ⟨notified, closed, -, rfl⟩ := DrainState.drainLoad_eq_some hst
      intro closed' hdrain
      by_cases hzero : s.active = 0
      · change (if s.active = 0 then DrainPhase.returned closed else .waiting notified closed) =
          .waiting false closed' at hdrain
        rw [if_pos hzero] at hdrain
        cases hdrain
      · exact .inl (Nat.pos_of_ne_zero hzero)
  | drainWake =>
      obtain ⟨closed, -, rfl⟩ := DrainState.drainWake_eq_some hst
      nofun
  | drainStop =>
      obtain rfl := Option.some.inj hst
      nofun

/-- **A wait that was not notified** has work to wait for, or a notification is due. -/
theorem drained_wakes (h : drainSystem.Reachable s) : Wakes s :=
  h.invariant (fun _ hs => hs ▸ nofun) fun _ _ _ _ hs hst => hs.step hst

end Counter

/-! ### A permit and two refused admissions -/

/-- A permit is live and an admission has passed the first check when the gate closes. That
admission and one made after closing are refused, and the wait returns after the permit is
dropped. -/
def lastPermit : List DrainLabel :=
  [.begin, .load 0, .increment 0, .recheck 0, .begin, .load 1, .closeStore, .begin, .load 2,
    .increment 1, .closeLoad, .drainCall, .drainLoad, .recheck 1, .reject 1, .drop 0, .notify 0,
    .drainWake, .drainLoad]

theorem lastPermit_exec : Labelled.System.exec drainStep DrainState.new lastPermit =
    some ⟨false, 0, [.finished, .finished, .finished], .closed, .returned true⟩ := by
  decide

theorem shutdown_drain_last : ∃ s, drainSystem.Reachable s ∧ s.calls.length = 3 ∧
    s.drain = .returned true ∧ ∀ t ls, drainSystem.Run s ls t → AdmitPhase.live ∉ t.calls := by
  have hreach : drainSystem.Reachable
      ⟨false, 0, [.finished, .finished, .finished], .closed, .returned true⟩ :=
    (Labelled.System.Reachable.init rfl).run (Labelled.System.Run.of_exec lastPermit_exec)
  exact ⟨_, hreach, rfl, rfl, (shutdown_drain hreach).2.2 rfl⟩

end Extractor
