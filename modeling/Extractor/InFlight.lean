import Extractor.Admission
import Extractor.Lib.System
import Extractor.Lib.Tally

/-!
# Requests in flight

Any number of callers share one `Admission`. Each call of `try_enter` and each drop of a guard holds
the mutex for its whole duration, so an execution is a sequence of such calls, at times that do not
decrease, with the guards dropped in any order.

The table of counts is a tally of the live guards: this one invariant gives the sums, the absence of
zero entries, and that no subtraction of a drop saturates. The slots are monotone: whatever was
returned for a host, a later call for it is reserved a start at least an interval later.

## Main definitions

* `InFlight`, `inFlight`: the shared state with the live guards, and its steps.

## Main results

* `in_flight_admission`: counts, limits, refusals and spacing, in every reachable state.
-/

namespace Extractor

open Labelled

/-- A call of `try_enter` that was admitted. -/
structure Admitted where
  host : String
  calledAt : Instant
  startAt : Instant

/-- The shared state, the hosts of the live guards, and the admitted calls in order. -/
structure InFlight where
  /-- The time of the last call. -/
  now : Instant
  state : AdmissionState
  guards : List String
  admitted : List Admitted

/-- What a caller does. -/
inductive InFlightLabel
  | tryEnter (now : Instant) (host : String)
  /-- One of the live guards is dropped. -/
  | drop (i : ℕ)

/-- After `Admission::new`. -/
def InFlight.initial : InFlight := ⟨0, .initial, [], []⟩

/-- One call. -/
def inFlightStep (a : Admission) (s : InFlight) : InFlightLabel → Option InFlight
  | .tryEnter now host =>
      if now < s.now then none
      else
        match a.tryEnter now host s.state with
        | (none, state) => some { s with now := now, state := state }
        | (some startAt, state) =>
            some {
              now := now
              state := state
              guards := host :: s.guards
              admitted := s.admitted ++ [⟨host, now, startAt⟩] }
  | .drop i =>
      match s.guards[i]? with
      | none => none
      | some host => some { s with state := s.state.leave host, guards := s.guards.eraseIdx i }

/-- **The calls on one admission**, from a new one. -/
def inFlight (a : Admission) : System InFlight InFlightLabel :=
  System.ofStep (· = InFlight.initial) (inFlightStep a)

/-! ### One call -/

section Calls

variable {a : Admission} {now now' : Instant} {host host' : String} {s : AdmissionState}
  {startAt : Instant}

/-- The limits have room for one more request to a host. -/
def Admission.HasRoom (a : Admission) (s : AdmissionState) (host : String) : Prop :=
  s.global < a.globalLimit ∧ s.hostCount host < a.perHostLimit

/-- The reservation does not change the counts. -/
theorem Admission.reserve_counts :
    (a.reserve now host s).global = s.global ∧ (a.reserve now host s).perHost = s.perHost := by
  rw [Admission.reserve]
  split
  · exact ⟨rfl, rfl⟩
  · exact ⟨rfl, rfl⟩

/-- **A call that is admitted** had room, and counts one more request to its host. -/
theorem Admission.tryEnter_some (h : (a.tryEnter now host s).1 = some startAt) :
    a.HasRoom s host ∧ startAt = a.reserved now host s ∧
      (a.tryEnter now host s).2.global = s.global + 1 ∧
      (a.tryEnter now host s).2.perHost = Tally.add host s.perHost := by
  have hcounts : (a.reserve now host s).global = s.global ∧ (a.reserve now host s).perHost = s.perHost :=
    reserve_counts
  obtain ⟨hglobal, hperHost⟩ := hcounts
  have hcount : (a.reserve now host s).hostCount host = s.hostCount host := by
    rw [AdmissionState.hostCount, hperHost, AdmissionState.hostCount]
  refine ⟨?_, eq_reserved_of_tryEnter h, ?_⟩
  · rw [tryEnter] at h
    split at h
    · cases h
    · next hroom =>
        rw [hglobal, hcount, not_or, Nat.not_le, Nat.not_le] at hroom
        exact hroom
  · rw [tryEnter] at h ⊢
    split at h
    · cases h
    · next hroom =>
        rw [if_neg hroom, hcount, hglobal, hperHost]
        exact ⟨rfl, rfl⟩

/-- **A call that is refused** leaves the counts as they are. -/
theorem Admission.tryEnter_none (h : (a.tryEnter now host s).1 = none) :
    (a.tryEnter now host s).2.global = s.global ∧
      (a.tryEnter now host s).2.perHost = s.perHost := by
  rw [tryEnter] at h ⊢
  split at h
  · next hfull =>
      rw [if_pos hfull]
      exact reserve_counts
  · cases h

/-- After a call, what is reserved for its host is an interval later. -/
theorem Admission.reserved_add_le (hnow : now ≤ now') :
    a.reserved now host s + a.minInterval ≤ a.reserved now' host (a.tryEnter now host s).2 := by
  by_cases ha : a.minInterval = 0
  · rw [reserved, if_pos ha, reserved, if_pos ha, ha]
    exact hnow
  · exact nextAllowed_le_reserved (Nat.pos_of_ne_zero ha) (by
      rw [nextAllowed_tryEnter (Nat.pos_of_ne_zero ha), AList.lookup_insert])

/-- A call does not bring any later reservation forward. -/
theorem Admission.reserved_le_reserved_tryEnter (hnow : now ≤ now') :
    a.reserved now' host' s ≤ a.reserved now' host' (a.tryEnter now host s).2 := by
  by_cases ha : a.minInterval = 0
  · rw [reserved, if_pos ha, reserved, if_pos ha]
  · have hpos : 0 < a.minInterval := Nat.pos_of_ne_zero ha
    by_cases hhost : host' = host
    · subst hhost
      have hlater : a.reserved now host' s + a.minInterval ≤
          a.reserved now' host' (a.tryEnter now host' s).2 := reserved_add_le hnow
      cases hslot : s.nextAllowed.lookup host' with
      | none =>
          rw [reserved, if_neg ha, hslot, Option.getD_none, max_self]
          exact le_reserved
      | some slot =>
          have hslot' : slot ≤ a.reserved now host' s := nextAllowed_le_reserved hpos hslot
          rw [reserved, if_neg ha, hslot, Option.getD_some]
          exact max_le ((hslot'.trans (Nat.le_add_right _ _)).trans hlater) le_reserved
    · rw [reserved, if_neg ha, reserved, if_neg ha, nextAllowed_tryEnter hpos,
        AList.lookup_insert_ne hhost]

end Calls

/-! ### Every execution -/

/-- **What holds between any two calls.** -/
structure InFlightInv (a : Admission) (s : InFlight) : Prop where
  global : s.state.global = s.guards.length
  counts : Tally.Counts s.state.perHost s.guards
  globalLimit : s.guards.length ≤ a.globalLimit
  perHostLimit : ∀ host, s.guards.count host ≤ a.perHostLimit
  /-- A later call for the host of an admitted one starts an interval later. -/
  later : ∀ x ∈ s.admitted, ∀ now, s.now ≤ now →
    x.startAt + a.minInterval ≤ a.reserved now x.host s.state
  started : ∀ x ∈ s.admitted, x.calledAt ≤ x.startAt
  spaced : s.admitted.Pairwise fun x y => x.host = y.host → x.startAt + a.minInterval ≤ y.startAt

section Steps

variable {a : Admission} {s t : InFlight}

theorem InFlightInv.initial : InFlightInv a InFlight.initial where
  global := rfl
  counts := Tally.counts_empty
  globalLimit := Nat.zero_le _
  perHostLimit _ := Nat.zero_le _
  later _ hx := absurd hx List.not_mem_nil
  started _ hx := absurd hx List.not_mem_nil
  spaced := List.Pairwise.nil

/-- A refused call advances the slot of its host, and nothing else. -/
theorem InFlightInv.refused (hinv : InFlightInv a s) {now : Instant} {host : String}
    (hnow : s.now ≤ now) (h : (a.tryEnter now host s.state).1 = none) :
    InFlightInv a { s with now := now, state := (a.tryEnter now host s.state).2 } := by
  obtain ⟨hglobal, hperHost⟩ := Admission.tryEnter_none h
  exact {
    global := hglobal.trans hinv.global
    counts := hperHost ▸ hinv.counts
    globalLimit := hinv.globalLimit
    perHostLimit := hinv.perHostLimit
    later := fun x hx now' hnow' => (hinv.later x hx now' (hnow.trans hnow')).trans
      (Admission.reserved_le_reserved_tryEnter hnow')
    started := hinv.started
    spaced := hinv.spaced }

/-- An admitted call adds a guard for its host, and starts an interval after the earlier ones. -/
theorem InFlightInv.admit (hinv : InFlightInv a s) {now startAt : Instant} {host : String}
    (hnow : s.now ≤ now) (h : (a.tryEnter now host s.state).1 = some startAt) :
    InFlightInv a ⟨now, (a.tryEnter now host s.state).2, host :: s.guards,
      s.admitted ++ [⟨host, now, startAt⟩]⟩ := by
  obtain ⟨⟨hroom, hroomHost⟩, rfl, hglobal, hperHost⟩ := Admission.tryEnter_some h
  have hcount : s.state.hostCount host = s.guards.count host := hinv.counts.count host
  refine {
    global := hglobal.trans (congrArg (· + 1) hinv.global)
    counts := hperHost ▸ hinv.counts.add host
    globalLimit := ?_
    perHostLimit := fun host' => ?_
    later := fun x hx now' hnow' => ?_
    started := fun x hx => ?_
    spaced := ?_ }
  · rw [hinv.global] at hroom
    exact hroom
  · by_cases hhost : host = host'
    · subst hhost
      rw [List.count_cons_self, ← hcount]
      exact hroomHost
    · rw [List.count_cons_of_ne hhost]
      exact hinv.perHostLimit host'
  · rcases List.mem_append.mp hx with hx | hx
    · exact (hinv.later x hx now' (hnow.trans hnow')).trans
        (Admission.reserved_le_reserved_tryEnter hnow')
    · obtain rfl := List.mem_singleton.mp hx
      exact Admission.reserved_add_le hnow'
  · rcases List.mem_append.mp hx with hx | hx
    · exact hinv.started x hx
    · obtain rfl := List.mem_singleton.mp hx
      exact Admission.le_reserved
  · rw [List.pairwise_append]
    refine ⟨hinv.spaced, List.pairwise_singleton _ _, fun x hx y hy hhost => ?_⟩
    obtain rfl := List.mem_singleton.mp hy
    have hlater := hinv.later x hx now hnow
    rw [show x.host = host from hhost] at hlater
    exact hlater

/-- A drop takes one guard away, and saturates no subtraction. -/
theorem InFlightInv.drop (hinv : InFlightInv a s) {i : ℕ} {host : String}
    (h : s.guards[i]? = some host) :
    InFlightInv a { s with state := s.state.leave host, guards := s.guards.eraseIdx i } := by
  obtain ⟨hi, hhost⟩ := List.getElem?_eq_some_iff.mp h
  have hperm : s.guards.Perm (host :: s.guards.eraseIdx i) :=
    hhost ▸ (List.getElem_cons_eraseIdx_perm hi).symm
  have hlength : s.guards.length = (s.guards.eraseIdx i).length + 1 := hperm.length_eq
  have hcounts : Tally.Counts (Tally.remove host s.state.perHost) (s.guards.eraseIdx i) :=
    (hinv.counts.perm hperm).remove
  refine {
    global := ?_
    counts := hcounts
    globalLimit := ?_
    perHostLimit := fun host' => ?_
    later := hinv.later
    started := hinv.started
    spaced := hinv.spaced }
  · change s.state.global - 1 = _
    rw [hinv.global, hlength, Nat.add_sub_cancel]
  · have hfewer : (s.guards.eraseIdx i).length ≤ s.guards.length := hlength ▸ Nat.le_succ _
    exact hfewer.trans hinv.globalLimit
  · exact ((List.eraseIdx_sublist _ _).count_le host').trans (hinv.perHostLimit host')

/-- **Every call keeps the invariant.** -/
theorem InFlightInv.step (hinv : InFlightInv a s) {label : InFlightLabel}
    (hst : inFlightStep a s label = some t) : InFlightInv a t := by
  cases label with
  | tryEnter now host =>
      obtain ⟨hnow, hst⟩ := Option.ite_none_left_eq_some.mp hst
      have hnow : s.now ≤ now := Nat.not_lt.mp hnow
      split at hst
      · next state hcall =>
          obtain rfl := Option.some.inj hst
          have hrefused := hinv.refused hnow (congrArg Prod.fst hcall)
          rw [hcall] at hrefused
          exact hrefused
      · next startAt state hcall =>
          obtain rfl := Option.some.inj hst
          have hadmit := hinv.admit hnow (congrArg Prod.fst hcall)
          rw [hcall] at hadmit
          exact hadmit
  | drop i =>
      rw [inFlightStep] at hst
      split at hst
      · cases hst
      · next host hguard =>
          obtain rfl := Option.some.inj hst
          exact hinv.drop hguard

/-- Every reachable state has the invariant. -/
theorem inFlightInv_of_reachable (h : (inFlight a).Reachable s) : InFlightInv a s :=
  h.invariant (fun _ hs => hs ▸ InFlightInv.initial) fun _ _ _ _ hinv hst => hinv.step hst

end Steps

/-- **In-flight admission.** Whatever is called, and in whatever order guards are dropped: the
global count is the sum of the counts of the hosts and the number of live guards; the count of a
host is the number of its live guards, with no entry where there is none; neither exceeds its limit;
a drop subtracts from a positive global count and a positive entry; a refused call leaves the counts
as they are; and the starts returned for one host are an interval apart in the order of the calls,
none before its call. -/
theorem in_flight_admission {a : Admission} {s : InFlight} (h : (inFlight a).Reachable s) :
    (s.state.global = Tally.total s.state.perHost ∧ s.state.global = s.guards.length) ∧
    (∀ host, s.state.hostCount host = s.guards.count host) ∧
    (∀ host n, s.state.perHost.lookup host = some n → 0 < n) ∧
    (s.state.global ≤ a.globalLimit ∧ ∀ host, s.state.hostCount host ≤ a.perHostLimit) ∧
    (∀ host ∈ s.guards, 0 < s.state.global ∧ ∃ n, s.state.perHost.lookup host = some (n + 1)) ∧
    (∀ now host, (a.tryEnter now host s.state).1 = none →
      (a.tryEnter now host s.state).2.global = s.state.global ∧
        (a.tryEnter now host s.state).2.perHost = s.state.perHost) ∧
    (∀ x ∈ s.admitted, x.calledAt ≤ x.startAt) ∧
    s.admitted.Pairwise fun x y => x.host = y.host → x.startAt + a.minInterval ≤ y.startAt := by
  have hinv := inFlightInv_of_reachable h
  have hcount : ∀ host, s.state.hostCount host = s.guards.count host := hinv.counts.count
  refine ⟨⟨hinv.global.trans hinv.counts.total.symm, hinv.global⟩, hcount,
    fun _ _ => hinv.counts.positive, ⟨hinv.global ▸ hinv.globalLimit, fun host => ?_⟩,
    fun host hhost => ⟨?_, hinv.counts.lookup_of_mem hhost⟩,
    fun _ _ => Admission.tryEnter_none, hinv.started, hinv.spaced⟩
  · exact hcount host ▸ hinv.perHostLimit host
  · exact hinv.global ▸ List.length_pos_of_mem hhost

/-- Two hosts under a global limit of two: the third call is refused, and is admitted after a drop
at a start that the refused one has pushed back. -/
theorem in_flight_admission_two : ∃ s,
    (inFlight ⟨2, 1, 5⟩).Reachable s ∧ s.guards = ["b", "a"] ∧
      s.admitted.map Admitted.startAt = [0, 10, 1] ∧
      s.state.global = Tally.total s.state.perHost := by
  have hexec : ∃ s, System.exec (inFlightStep ⟨2, 1, 5⟩) InFlight.initial
      [.tryEnter 0 "a", .tryEnter 0 "a", .drop 0, .tryEnter 0 "a", .tryEnter 1 "b"] = some s ∧
        s.guards = ["b", "a"] ∧ s.admitted.map Admitted.startAt = [0, 10, 1] :=
    ⟨_, rfl, rfl, rfl⟩
  obtain ⟨s, hexec, hguards, hstarts⟩ := hexec
  have hreach : (inFlight ⟨2, 1, 5⟩).Reachable s := (System.Reachable.init rfl).run (.of_exec hexec)
  exact ⟨s, hreach, hguards, hstarts, (in_flight_admission hreach).1.1⟩

end Extractor
