import Extractor.OutboxLifecycle

/-!
# The verdict on the outbox publisher

`OutboxHealth` of `crates/eventing/src/outbox.rs`, observed after every pass of the relay loop of
`main.rs`. The verdict folds the counters of the pass with the oldest row of the retry set, and
between the pass and the query other relays run, rows are enqueued, and time passes.

A verdict should turn from unhealthy to healthy on evidence only: the pass published a row and left
none that it attempted to be retried, or the retry set is empty. `OutboxHealth::observe` meets this
exactly at the observations of `Observation.Conclusive`. It does not look at how many rows were
published: a pass whose rows were all dead-lettered, or whose failures leave a younger row at the
head of the retry set, clears the verdict as well.

## Main results

* `passInv_of_reachable`: the counters of a pass are those of the outcomes it recorded.
* `outbox_recovers_on_evidence_iff`: at which observations the verdict recovers on evidence only.
-/

namespace Extractor

variable {J : Type}

/-! ### The verdict -/

/-- `UNHEALTHY_ATTEMPTS`. -/
def unhealthyAttempts : ℕ := 3

/-- `UNHEALTHY_AGE_SECONDS`. -/
def unhealthyAgeSeconds : ℕ := 300

namespace OutboxRow

/-- The `stuck` column of the query for the oldest row. -/
def stuck (now : Timestamp) (r : OutboxRow J) : Bool :=
  decide (unhealthyAttempts ≤ r.attempts) ||
    decide (r.enqueuedAt + seconds unhealthyAgeSeconds < now)

/-- `order by enqueued_at, outbox_id`. -/
def enqueuedBefore (a b : OutboxRow J) : Prop :=
  a.enqueuedAt < b.enqueuedAt ∨ a.enqueuedAt = b.enqueuedAt ∧ a.outboxId ≤ b.outboxId

instance : DecidableRel (enqueuedBefore (J := J)) := fun a b => by
  unfold enqueuedBefore; infer_instance

end OutboxRow

/-- `oldest_unpublished`: the oldest row of the retry set. -/
def oldestUnpublished (rows : List (OutboxRow J)) : Option (OutboxRow J) :=
  ((rows.filter fun r => !r.settled).insertionSort OutboxRow.enqueuedBefore).head?

/-- `OutboxHealth::observe`: the verdict after a pass, from the one before it. -/
def observe (healthy : Bool) (report : OutboxReport) (now : Timestamp)
    (rows : List (OutboxRow J)) : Bool :=
  let head := oldestUnpublished rows
  if 0 < report.failed then !head.any (OutboxRow.stuck now)
  else if report.claimed = 0 then head.isNone || healthy
  else true

/-- There is no oldest row exactly when every row is settled. -/
theorem oldestUnpublished_eq_none_iff {rows : List (OutboxRow J)} :
    oldestUnpublished rows = none ↔ ∀ r ∈ rows, r.settled = true := by
  rw [oldestUnpublished, List.head?_eq_none_iff, List.eq_nil_iff_forall_not_mem]
  simp [List.mem_insertionSort]

/-! ### Passes and their observation -/

/-- The outcome is a publication. -/
def Verdict.published : Verdict → Bool
  | .returned (.ok ()) => true
  | _ => false

/-- The outcome leaves the row unpublished and in the retry set. -/
def Verdict.retryable : Verdict → Bool
  | .returned (.error e) => !e.isPermanent
  | _ => false

/-- One observation: the outcomes that the pass recorded, the table and the clock of the query,
and the verdict before and after it. -/
structure Observation (J : Type) where
  outcomes : List Verdict
  rows : List (OutboxRow J)
  now : Timestamp
  before : Bool
  after : Bool

/-- The outbox, the verdict of each relay, the outcomes that its pass has recorded so far, and the
observations. -/
structure HealthState (J : Type) where
  outbox : OutboxState J
  healthy : ℕ → Bool
  outcomes : ℕ → List Verdict
  observations : List (Observation J)

/-- What may happen next. -/
inductive HealthLabel (J : Type)
  /-- A step of the outbox. -/
  | outbox (a : OutboxLabel J)
  /-- A relay observes the pass that it finished. -/
  | observe (relay : ℕ)

/-- The outcomes recorded by the running passes after a step of the outbox. -/
def HealthState.outcomesAfter (s : HealthState J) : OutboxLabel J → ℕ → List Verdict
  | .claim relay _ _ _ _ => Function.update s.outcomes relay []
  | .settle relay =>
      match s.outbox.relays relay with
      | .settling _ verdict _ _ =>
          Function.update s.outcomes relay (s.outcomes relay ++ [verdict])
      | _ => s.outcomes
  | _ => s.outcomes

/-- The verdicts after a step of the outbox; a process that starts again has not failed yet. -/
def HealthState.healthyAfter (s : HealthState J) : OutboxLabel J → ℕ → Bool
  | .crash relay => Function.update s.healthy relay true
  | _ => s.healthy

/-- The observation of a finished pass. -/
def HealthState.observation (s : HealthState J) (relay : ℕ) (report : OutboxReport) :
    Observation J where
  outcomes := s.outcomes relay
  rows := s.outbox.rows
  now := s.outbox.now
  before := s.healthy relay
  after := observe (s.healthy relay) report s.outbox.now s.outbox.rows

section System

variable (serialize : J → Option (List UInt8))

/-- One step; `none` when the label is not enabled. -/
def healthStep (s : HealthState J) : HealthLabel J → Option (HealthState J)
  | .outbox a =>
      (outboxStep serialize s.outbox a).map fun t =>
        { s with outbox := t, outcomes := s.outcomesAfter a, healthy := s.healthyAfter a }
  | .observe relay =>
      match s.outbox.relays relay with
      | .working [] report =>
          let o := s.observation relay report
          some { s with
            outbox := { s.outbox with relays := Function.update s.outbox.relays relay .idle }
            healthy := Function.update s.healthy relay o.after
            observations := s.observations ++ [o] }
      | _ => none

/-- No relay has run yet. -/
def HealthState.Initial (s : HealthState J) : Prop :=
  s.outbox.Initial ∧ (∀ relay, s.healthy relay = true) ∧ s.observations = []

/-- **The outbox with its observers.** -/
def healthSystem : Labelled.System (HealthState J) (HealthLabel J) :=
  Labelled.System.ofStep HealthState.Initial (healthStep serialize)

end System

/-! ### The counters of a pass -/

/-- A report counts these outcomes. -/
structure OutboxReport.Counts (report : OutboxReport) (outcomes : List Verdict) : Prop where
  published : report.published = outcomes.countP Verdict.published
  failed : report.failed = outcomes.countP Verdict.retryable

/-- What holds of a relay and the outcomes of its pass. -/
def Relay.Counted (outcomes : List Verdict) : Relay J → Prop
  | .working rest report =>
      report.claimed = outcomes.length + rest.length ∧ report.Counts outcomes
  | .settling _ _ rest report =>
      report.claimed = outcomes.length + 1 + rest.length ∧ report.Counts outcomes
  | .idle | .errored => True

/-- What holds of an observation: its verdict is the one on a report of its outcomes. -/
def Observation.Counted (o : Observation J) : Prop :=
  ∃ report : OutboxReport, report.claimed = o.outcomes.length ∧ report.Counts o.outcomes ∧
    o.after = observe o.before report o.now o.rows

/-- **The invariant of the passes.** -/
structure PassInv (s : HealthState J) : Prop where
  relay : ∀ relay, (s.outbox.relays relay).Counted (s.outcomes relay)
  observed : ∀ o ∈ s.observations, o.Counted

/-- A report that has recorded nothing yet. -/
theorem OutboxReport.counts_nil {claimed : ℕ} : ({ claimed := claimed } : OutboxReport).Counts [] :=
  ⟨rfl, rfl⟩

/-- The counters follow the outcomes. -/
theorem OutboxReport.Counts.tally {report : OutboxReport} {outcomes : List Verdict}
    (h : report.Counts outcomes) (verdict : Verdict) :
    (report.tally verdict).Counts (outcomes ++ [verdict]) := by
  obtain ⟨hpublished, hfailed⟩ := h
  cases verdict with
  | unserializable =>
      constructor
      · simp [OutboxReport.tally, Verdict.published, hpublished]
      · simp [OutboxReport.tally, Verdict.retryable, hfailed]
  | returned result =>
      cases result with
      | ok u =>
          constructor
          · simp [OutboxReport.tally, Verdict.published, hpublished]
          · simp [OutboxReport.tally, Verdict.retryable, hfailed]
      | error e =>
          cases e with
          | transient =>
              constructor
              · simp [OutboxReport.tally, PublishError.isPermanent, Verdict.published, hpublished]
              · simp [OutboxReport.tally, PublishError.isPermanent, Verdict.retryable, hfailed]
          | tooLarge =>
              constructor
              · simp [OutboxReport.tally, PublishError.isPermanent, Verdict.published, hpublished]
              · simp [OutboxReport.tally, PublishError.isPermanent, Verdict.retryable, hfailed]

/-- Recording an outcome claims nothing. -/
theorem OutboxReport.tally_claimed (report : OutboxReport) (verdict : Verdict) :
    (report.tally verdict).claimed = report.claimed := by
  rw [OutboxReport.tally.eq_def]
  split
  · rfl
  · rfl
  · split <;> rfl

section Invariant

variable {serialize : J → Option (List UInt8)} {s t : HealthState J}

/-- A relay that another one's step leaves alone. -/
theorem counted_update {relays : ℕ → Relay J} {outcomes : ℕ → List Verdict} {relay : ℕ}
    {r : Relay J} {vs : List Verdict} (h : ∀ i, (relays i).Counted (outcomes i))
    (hr : r.Counted vs) (i : ℕ) :
    (Function.update relays relay r i).Counted (Function.update outcomes relay vs i) := by
  by_cases hi : i = relay
  · subst hi
    rw [Function.update_self, Function.update_self]
    exact hr
  · rw [Function.update_of_ne hi, Function.update_of_ne hi]
    exact h i

/-- A relay whose outcomes stay the same. -/
theorem counted_update_relay {relays : ℕ → Relay J} {outcomes : ℕ → List Verdict} {relay : ℕ}
    {r : Relay J} (h : ∀ i, (relays i).Counted (outcomes i)) (hr : r.Counted (outcomes relay))
    (i : ℕ) : (Function.update relays relay r i).Counted (outcomes i) := by
  by_cases hi : i = relay
  · subst hi
    rw [Function.update_self]
    exact hr
  · rw [Function.update_of_ne hi]
    exact h i

/-- **A step of the outbox keeps the counters right.** -/
theorem PassInv.outbox_step (h : PassInv s) {a : OutboxLabel J} {u : OutboxState J}
    (hst : outboxStep serialize s.outbox a = some u) (i : ℕ) :
    (u.relays i).Counted (s.outcomesAfter a i) := by
  cases a with
  | tick elapsed =>
      obtain rfl := Option.some.inj hst
      exact h.relay i
  | enqueue outboxId messageId causationCommandId operationId subject payload at_ =>
      simp only [outboxStep] at hst
      split at hst
      · obtain ⟨rows, -, rfl⟩ := Option.map_eq_some_iff.mp hst
        exact h.relay i
      · cases hst
  | claim relay claimedBy limit locked order =>
      have hclaim : ∀ u, stepClaim s.outbox relay claimedBy limit locked order = u →
          (u.relays i).Counted (s.outcomesAfter (.claim relay claimedBy limit locked order) i) := by
        rintro _ rfl
        rw [stepClaim]
        split
        · refine counted_update h.relay ?_ i
          exact trivial
        · next rows claimed hdue =>
            refine counted_update h.relay ?_ i
            refine ⟨?_, OutboxReport.counts_nil⟩
            simp [(order claimed).2.length_eq]
      simp only [outboxStep] at hst
      split at hst
      · exact hclaim u (Option.some.inj hst)
      · exact hclaim u (Option.some.inj hst)
      · cases hst
  | publish relay result =>
      simp only [outboxStep] at hst
      split at hst
      · next row rest report hrelay =>
          have hcounted := h.relay relay
          rw [hrelay] at hcounted
          obtain ⟨hclaimed, hcounts⟩ := hcounted
          have hnext : report.claimed = (s.outcomes relay).length + 1 + rest.length := by
            rw [hclaimed, List.length_cons]
            omega
          obtain rfl := Option.some.inj hst
          rw [stepPublish]
          split
          · refine counted_update_relay h.relay ?_ i
            exact ⟨hnext, hcounts⟩
          · refine counted_update_relay h.relay ?_ i
            exact ⟨hnext, hcounts⟩
      · cases hst
  | settle relay =>
      simp only [outboxStep] at hst
      split at hst
      · next row verdict rest report hrelay =>
          have hcounted := h.relay relay
          rw [hrelay] at hcounted
          obtain ⟨hclaimed, hcounts⟩ := hcounted
          obtain rfl := Option.some.inj hst
          simp only [HealthState.outcomesAfter, hrelay]
          rw [stepSettle]
          split
          · refine counted_update h.relay ?_ i
            exact trivial
          · refine counted_update h.relay ?_ i
            refine ⟨?_, hcounts.tally verdict⟩
            rw [OutboxReport.tally_claimed, hclaimed, List.length_append, List.length_singleton]
      · cases hst
  | crash relay =>
      obtain rfl := Option.some.inj hst
      refine counted_update_relay h.relay ?_ i
      exact trivial

/-- **A step keeps the invariant.** -/
theorem PassInv.step (h : PassInv s) {a : HealthLabel J}
    (hst : healthStep serialize s a = some t) : PassInv t := by
  cases a with
  | outbox a =>
      obtain ⟨u, hu, rfl⟩ := Option.map_eq_some_iff.mp hst
      exact ⟨h.outbox_step hu, h.observed⟩
  | observe relay =>
      simp only [healthStep] at hst
      split at hst
      · next report hrelay =>
          have hcounted := h.relay relay
          rw [hrelay] at hcounted
          obtain ⟨hclaimed, hcounts⟩ := hcounted
          obtain rfl := Option.some.inj hst
          have hidle : (Relay.idle : Relay J).Counted (s.outcomes relay) := trivial
          refine ⟨counted_update_relay h.relay hidle, fun o ho => ?_⟩
          rcases List.mem_append.mp ho with ho | ho
          · exact h.observed o ho
          · obtain rfl := List.mem_singleton.mp ho
            exact ⟨report, hclaimed, hcounts, rfl⟩
      · cases hst

/-- The invariant holds in every reachable state. -/
theorem passInv_of_reachable (h : (healthSystem serialize).Reachable s) : PassInv s := by
  refine h.invariant ?_ fun _ _ _ _ hinv hst => hinv.step hst
  rintro s ⟨⟨-, -, hidle⟩, -, hnone⟩
  refine ⟨fun relay => ?_, fun o ho => ?_⟩
  · rw [hidle relay]
    exact trivial
  · rw [hnone] at ho
    exact absurd ho List.not_mem_nil

end Invariant

/-! ### Evidence -/

namespace Observation

/-- The verdict turns from unhealthy to healthy. -/
def Recovers (o : Observation J) : Prop :=
  o.before = false ∧ o.after = true

/-- **The evidence of health**: the pass published a row and left none that it attempted to be
retried, or no row is left in the retry set. -/
def Evident (o : Observation J) : Prop :=
  ((∃ v ∈ o.outcomes, v.published = true) ∧ ∀ v ∈ o.outcomes, v.retryable = false) ∨
    ∀ r ∈ o.rows, r.settled = true

/-- The verdict recovers on evidence only; in particular not after a pass that published nothing
while a row is waiting out its backoff. -/
def OnEvidence (o : Observation J) : Prop :=
  (o.Recovers → o.Evident) ∧
    ((∀ v ∈ o.outcomes, v.published = false) →
      (∃ r ∈ o.rows, r.settled = false ∧ o.now < r.nextAttemptAt) → ¬ o.Recovers)

/-- **The condition**, at an unhealthy verdict and with a row left in the retry set: where the pass
left a row to be retried, the oldest row is stuck; and a pass that attempted rows and left none of
them to be retried published one. -/
def Conclusive (o : Observation J) : Prop :=
  o.before = false → (∃ r ∈ o.rows, r.settled = false) →
    ((∃ v ∈ o.outcomes, v.retryable = true) →
      (oldestUnpublished o.rows).any (OutboxRow.stuck o.now) = true) ∧
    ((∀ v ∈ o.outcomes, v.retryable = false) → o.outcomes ≠ [] →
      ∃ v ∈ o.outcomes, v.published = true)

end Observation

/-- A pass failed a row exactly when one of its outcomes is to be retried. -/
theorem OutboxReport.Counts.failed_pos_iff {report : OutboxReport} {outcomes : List Verdict}
    (h : report.Counts outcomes) : 0 < report.failed ↔ ∃ v ∈ outcomes, v.retryable = true := by
  rw [h.failed, List.countP_pos_iff]

/-- The verdict after an observation with an unhealthy one before it. -/
theorem Observation.Counted.after_iff {o : Observation J} (h : o.Counted)
    (hbefore : o.before = false) :
    o.after = true ↔
      ((∃ v ∈ o.outcomes, v.retryable = true) ∧
        (oldestUnpublished o.rows).any (OutboxRow.stuck o.now) = false) ∨
      ((∀ v ∈ o.outcomes, v.retryable = false) ∧
        (o.outcomes ≠ [] ∨ ∀ r ∈ o.rows, r.settled = true)) := by
  obtain ⟨report, hclaimed, hcounts, hafter⟩ := h
  have hlength : report.claimed = 0 ↔ o.outcomes = [] := by
    rw [hclaimed, List.length_eq_zero_iff]
  rw [hafter, hbefore, observe]
  by_cases hfailed : 0 < report.failed
  · have hsome := hcounts.failed_pos_iff.mp hfailed
    have hnot : ¬ ∀ v ∈ o.outcomes, v.retryable = false := by
      rintro hall
      obtain ⟨v, hv, hretry⟩ := hsome
      rw [hall v hv] at hretry
      cases hretry
    simp [hfailed, hsome, hnot]
  · have hall : ∀ v ∈ o.outcomes, v.retryable = false := by
      intro v hv
      by_contra hretry
      exact hfailed (hcounts.failed_pos_iff.mpr ⟨v, hv, by simpa using hretry⟩)
    have hnot : ¬ ∃ v ∈ o.outcomes, v.retryable = true := by
      rintro ⟨v, hv, hretry⟩
      rw [hall v hv] at hretry
      cases hretry
    simp only [hfailed, if_false, hnot, false_and, false_or, hlength, Bool.or_false]
    by_cases hempty : o.outcomes = []
    · simp [hempty, oldestUnpublished_eq_none_iff]
    · simp only [hempty, if_false, true_iff]
      exact ⟨hall, Or.inl hempty⟩

/-- A row in the retry set, or none. -/
theorem exists_unsettled_or (rows : List (OutboxRow J)) :
    (∃ r ∈ rows, r.settled = false) ∨ ∀ r ∈ rows, r.settled = true := by
  by_cases h : ∀ r ∈ rows, r.settled = true
  · exact Or.inr h
  · left
    push Not at h
    simpa using h

theorem Observation.Counted.onEvidence_iff {o : Observation J} (h : o.Counted) :
    o.OnEvidence ↔ o.Conclusive := by
  constructor
  · rintro ⟨hevident, -⟩ hbefore ⟨r, hr, hunsettled⟩
    have hnotAll : ¬ ∀ r ∈ o.rows, r.settled = true := by
      intro hall
      rw [hall r hr] at hunsettled
      cases hunsettled
    refine ⟨fun hretry => ?_, fun hall hne => ?_⟩
    · by_contra hstuck
      have hafter := (h.after_iff hbefore).mpr (Or.inl ⟨hretry, by simpa using hstuck⟩)
      rcases hevident ⟨hbefore, hafter⟩ with ⟨-, hnone⟩ | hsettled
      · obtain ⟨v, hv, hv'⟩ := hretry
        rw [hnone v hv] at hv'
        cases hv'
      · exact hnotAll hsettled
    · have hafter := (h.after_iff hbefore).mpr (Or.inr ⟨hall, Or.inl hne⟩)
      rcases hevident ⟨hbefore, hafter⟩ with ⟨hpublished, -⟩ | hsettled
      · exact hpublished
      · exact absurd hsettled hnotAll
  · intro hconclusive
    have hevident : o.Recovers → o.Evident := by
      rintro ⟨hbefore, hafter⟩
      rcases exists_unsettled_or o.rows with hsome | hall
      · obtain ⟨hstuck, hpublished⟩ := hconclusive hbefore hsome
        rcases (h.after_iff hbefore).mp hafter with ⟨hretry, hnot⟩ | ⟨hnone, hne | hsettled⟩
        · rw [hstuck hretry] at hnot
          cases hnot
        · exact Or.inl ⟨hpublished hnone hne, hnone⟩
        · exact Or.inr hsettled
      · exact Or.inr hall
    refine ⟨hevident, ?_⟩
    rintro hnothing ⟨r, hr, hunsettled, -⟩ hrecovers
    rcases hevident hrecovers with ⟨⟨v, hv, hpublished⟩, -⟩ | hsettled
    · rw [hnothing v hv] at hpublished
      cases hpublished
    · rw [hsettled r hr] at hunsettled
      cases hunsettled

/-- **Outbox health recovers on evidence**: in every run, at exactly the observations that meet the
condition. -/
theorem outbox_recovers_on_evidence_iff {serialize : J → Option (List UInt8)}
    {s : HealthState J} (h : (healthSystem serialize).Reachable s) :
    ∀ o ∈ s.observations, o.OnEvidence ↔ o.Conclusive :=
  fun o ho => ((passInv_of_reachable h).observed o ho).onEvidence_iff

/-! ### Two runs -/

/-- No relay has run. -/
def healthStart : HealthState RawPayload :=
  ⟨outboxStart, fun _ => true, fun _ => [], []⟩

theorem health_reachable_of_exec {as : List (HealthLabel RawPayload)}
    {s : HealthState RawPayload}
    (h : Labelled.System.exec (healthStep some) healthStart as = some s) :
    (healthSystem some).Reachable s :=
  ⟨healthStart, as, ⟨⟨rfl, rfl, fun _ => rfl⟩, fun _ => rfl, rfl⟩, Labelled.System.Run.of_exec h⟩

/-- A report that is refused when it is five minutes old: the verdict is unhealthy. -/
def refusedReport : List (HealthLabel RawPayload) :=
  [.outbox (.enqueue 1 2 3 4 reportSubject [123, 125] 0), .outbox (.tick (seconds 301)),
    .outbox (.claim 0 "relay-0" 10 [] asClaimed), .outbox (.publish 0 (.error .transient)),
    .outbox (.settle 0), .observe 0]

/-- The row of that report, waiting out its backoff. -/
def waitingRow : OutboxRow RawPayload := reportRow.backOff (seconds 301) "publish_failed"

/-- Once it is published, the verdict recovers on evidence. -/
theorem outbox_recovers_published : ∃ s, (healthSystem some).Reachable s ∧
    ∃ o ∈ s.observations, o.Recovers ∧ o.OnEvidence := by
  have hexec : ∃ s, Labelled.System.exec (healthStep some) healthStart (refusedReport ++
      [.outbox (.tick (seconds 1)), .outbox (.claim 0 "relay-0" 10 [] asClaimed),
        .outbox (.publish 0 (.ok ())), .outbox (.settle 0), .observe 0]) = some s ∧
      s.observations.getLast? = some
        ⟨[.returned (.ok ())], [waitingRow.publish (seconds 302)], seconds 302, false, true⟩ :=
    ⟨_, rfl, rfl⟩
  obtain ⟨s, hs, hlast⟩ := hexec
  have hmem := List.mem_of_getLast? hlast
  refine ⟨s, health_reachable_of_exec hs, _, hmem, ⟨rfl, rfl⟩, ?_⟩
  refine (outbox_recovers_on_evidence_iff (health_reachable_of_exec hs) _ hmem).mpr ?_
  rintro - ⟨r, hr, hunsettled⟩
  obtain rfl := List.mem_singleton.mp hr
  cases hunsettled

/-- While that report waits out its backoff, a document that is too large is dead-lettered: the
pass published nothing, and the verdict is healthy again. -/
theorem dead_letter_clears_verdict : ∃ s, (healthSystem some).Reachable s ∧
    ∃ o ∈ s.observations, o.Recovers ∧ ¬ o.Evident ∧
      (∀ v ∈ o.outcomes, v.published = false) ∧
      ∃ r ∈ o.rows, r.settled = false ∧ o.now < r.nextAttemptAt := by
  have hexec : ∃ s rows, Labelled.System.exec (healthStep some) healthStart (refusedReport ++
      [.outbox (.enqueue 5 6 7 8 documentSubject [123, 125] (seconds 301)),
        .outbox (.claim 0 "relay-0" 10 [] asClaimed),
        .outbox (.publish 0 (.error .tooLarge)), .outbox (.settle 0), .observe 0]) = some s ∧
      s.observations.getLast? = some
        ⟨[.returned (.error .tooLarge)], waitingRow :: rows, seconds 301, false, true⟩ :=
    ⟨_, _, rfl, rfl⟩
  obtain ⟨s, rows, hs, hlast⟩ := hexec
  have hwaiting : waitingRow ∈ waitingRow :: rows := List.mem_cons_self
  refine ⟨s, health_reachable_of_exec hs, _, List.mem_of_getLast? hlast, ⟨rfl, rfl⟩, ?_, ?_,
    waitingRow, hwaiting, rfl, (by decide : seconds 301 < waitingRow.nextAttemptAt)⟩
  · rintro (⟨⟨v, hv, hpublished⟩, -⟩ | hsettled)
    · obtain rfl := List.mem_singleton.mp hv
      cases hpublished
    · exact absurd (hsettled _ hwaiting) (by decide)
  · intro v hv
    obtain rfl := List.mem_singleton.mp hv
    rfl

end Extractor
