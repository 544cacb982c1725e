import Mathlib.Data.List.AList
import Extractor.SafeFetch

/-!
# Admission

`crates/safe-fetch/src/admission.rs`: the global and the per-host concurrency limit, and the
slots that space the requests to one host. A slot is reserved before the limits are looked at,
so a refused caller uses one up as well.

## Main definitions

* `Admission.tryEnter`: a reserved start for a host, under the limits.
* `AdmissionState.leave`: the drop of a guard.

## Main results

* `Admission.le_reserved`, `Admission.nextAllowed_tryEnter`: a reserved start is not before the
  call, and the next one of the host is an interval later.
-/

namespace Extractor

/-- `Admission`: the limits, and the least distance of two starts toward one host. -/
structure Admission where
  globalLimit : ℕ
  perHostLimit : ℕ
  minInterval : ℕ

/-- `AdmissionState`. -/
structure AdmissionState where
  global : ℕ
  perHost : AList fun _ : String => ℕ
  nextAllowed : AList fun _ : String => Instant

/-- The state of `Admission::new`. -/
def AdmissionState.initial : AdmissionState := ⟨0, ∅, ∅⟩

/-- The number of admitted requests to a host. -/
def AdmissionState.hostCount (s : AdmissionState) (host : String) : ℕ :=
  (s.perHost.lookup host).getD 0

/-- The drop of an `AdmissionGuard`: a count that reaches zero is removed. -/
def AdmissionState.leave (host : String) (s : AdmissionState) : AdmissionState :=
  { s with
    global := s.global - 1
    perHost := match s.perHost.lookup host with
      | none => s.perHost
      | some count =>
          if count - 1 = 0 then s.perHost.erase host else s.perHost.insert host (count - 1) }

namespace Admission

variable (a : Admission)

/-- The admission of a configuration. -/
def ofConfig (config : FetchConfig) : Admission :=
  ⟨config.globalConcurrency, config.perHostConcurrency, config.perHostMinIntervalMs⟩

/-- The start that `try_enter` reserves. -/
def reserved (now : Instant) (host : String) (s : AdmissionState) : Instant :=
  if a.minInterval = 0 then now else max ((s.nextAllowed.lookup host).getD now) now

/-- The state after the reservation. -/
def reserve (now : Instant) (host : String) (s : AdmissionState) : AdmissionState :=
  if a.minInterval = 0 then s
  else { s with nextAllowed := s.nextAllowed.insert host (a.reserved now host s + a.minInterval) }

/-- `Admission::try_enter` at the instant `now`: the reserved start, or none when a limit is
reached. -/
def tryEnter (now : Instant) (host : String) (s : AdmissionState) :
    Option Instant × AdmissionState :=
  let startAt := a.reserved now host s
  let s := a.reserve now host s
  if a.globalLimit ≤ s.global ∨ a.perHostLimit ≤ s.hostCount host then (none, s)
  else
    (some startAt,
      { s with
        global := s.global + 1
        perHost := s.perHost.insert host (s.hostCount host + 1) })

/-! ### Slots -/

variable {a} {now : Instant} {host : String} {s : AdmissionState}

/-- A reserved start is not before the call. -/
theorem le_reserved : now ≤ a.reserved now host s := by
  rw [reserved]
  split
  · exact Nat.le_refl _
  · exact Nat.le_max_right _ _

/-- Nor is it before the slot that the last reservation left. -/
theorem nextAllowed_le_reserved (ha : 0 < a.minInterval) {slot : Instant}
    (hslot : s.nextAllowed.lookup host = some slot) : slot ≤ a.reserved now host s := by
  rw [reserved, if_neg (Nat.pos_iff_ne_zero.mp ha), hslot, Option.getD_some]
  exact Nat.le_max_left _ _

/-- The next slot of the host is an interval later, and those of the other hosts stay. -/
theorem nextAllowed_tryEnter (ha : 0 < a.minInterval) :
    (a.tryEnter now host s).2.nextAllowed =
      s.nextAllowed.insert host (a.reserved now host s + a.minInterval) := by
  have hreserve : (a.reserve now host s).nextAllowed =
      s.nextAllowed.insert host (a.reserved now host s + a.minInterval) := by
    rw [reserve, if_neg (Nat.pos_iff_ne_zero.mp ha)]
  rw [tryEnter]
  split
  · exact hreserve
  · exact hreserve

/-- The start that is returned is the reserved one. -/
theorem eq_reserved_of_tryEnter {startAt : Instant} (h : (a.tryEnter now host s).1 = some startAt) :
    startAt = a.reserved now host s := by
  rw [tryEnter] at h
  split at h
  · cases h
  · exact (Option.some.inj h).symm

end Admission

end Extractor
