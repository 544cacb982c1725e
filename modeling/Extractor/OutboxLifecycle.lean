import Extractor.OutboxRelay

/-!
# The life of an outbox row

What holds of every row of `extractor.outbox_events` in every reachable state of the
outbox system, and what happens to rows that are already settled.

The settling statements address a row by its identifier alone, so two relays whose leases
overlap may both record an outcome of one row. The invariant `OutboxInv` survives every
such order: the evidence for a recorded outcome is in the history of publisher calls, and
the table's exclusivity constraint refuses the second kind of settlement. What does not
survive is the settled row itself: it stays unchanged exactly in the runs in which no
settling statement finds its row settled (`SettlesUnsettled`).

## Main results

* `outboxInv_of_reachable`: the invariant of the outbox system.
* `outbox_row_lifecycle`: why a row is published or dead-lettered, that it is never both,
  that it never stops being so, and that every other row stays in the retry set.
* `settled_rows_frozen`: rows stay frozen, and no pass ends in `Err` over a settled row, in
  runs that never settle a settled row.
-/

namespace Extractor

variable {J : Type} {serialize : J → Option (List UInt8)}

/-! ### What the statements change -/

/-- A guarded update goes through exactly when every changed row meets the constraints. -/
theorem updateChecked_eq_some_iff {p : OutboxRow J → Bool} {f : OutboxRow J → OutboxRow J}
    {rows rows' : List (OutboxRow J)} :
    updateChecked p f rows = some rows' ↔
      (∀ r ∈ rows, p r = true → (f r).checked = true) ∧ rows' = Rows.updateWhere p f rows := by
  unfold updateChecked
  by_cases h : (rows.all fun r => !p r || (f r).checked) = true
  · have hall : ∀ r ∈ rows, p r = true → (f r).checked = true := by
      intro r hr hp
      have := List.all_eq_true.mp h r hr
      simpa [hp] using this
    simp only [h, if_true, Option.some.injEq]
    exact ⟨fun e => ⟨hall, e.symm⟩, fun e => e.2.symm⟩
  · simp only [h]
    refine ⟨fun e => by simp at e, fun e => absurd ?_ h⟩
    refine List.all_eq_true.mpr fun r hr => ?_
    cases hp : p r with
    | false => rfl
    | true => simpa using e.1 r hr hp

/-- A guarded update is refused because of a changed row that violates a constraint. -/
theorem exists_of_updateChecked_eq_none {p : OutboxRow J → Bool}
    {f : OutboxRow J → OutboxRow J} {rows : List (OutboxRow J)}
    (h : updateChecked p f rows = none) :
    ∃ r ∈ rows, p r = true ∧ (f r).checked = false := by
  by_contra hno
  have hall : ∀ r ∈ rows, p r = true → (f r).checked = true := by
    intro r hr hp
    cases hc : (f r).checked with
    | true => rfl
    | false => exact absurd ⟨r, hr, hp, hc⟩ hno
  rw [updateChecked_eq_some_iff.mpr ⟨hall, rfl⟩] at h
  exact Option.some_ne_none _ h

/-- The column change that records a verdict. -/
def OutboxRow.settle (now : Timestamp) (r : OutboxRow J) : Verdict → OutboxRow J
  | .unserializable => r.deadLetter now payloadUnserializable
  | .returned (.ok ()) => r.publish now
  | .returned (.error e) =>
      if e.isPermanent then r.deadLetter now e.errorClass else r.backOff now e.errorClass

/-- Recording a verdict is one guarded update of the row with that identifier. -/
theorem recordVerdict_eq {now : Timestamp} {outboxId : Uuid} {rows : List (OutboxRow J)}
    {verdict : Verdict} :
    recordVerdict now outboxId rows verdict =
      updateChecked (fun r => r.outboxId == outboxId) (fun r => r.settle now verdict) rows := by
  cases verdict with
  | unserializable => rfl
  | returned result =>
      cases result with
      | ok u => rfl
      | error e => cases e <;> rfl

/-- A settling statement keeps the columns that the claiming statement returns. -/
theorem OutboxRow.settle_claimed {now : Timestamp} {r : OutboxRow J} {verdict : Verdict} :
    (r.settle now verdict).claimed = r.claimed := by
  unfold OutboxRow.settle
  split
  · rfl
  · rfl
  · split <;> rfl

/-- A settling statement never clears `published_at`. -/
theorem OutboxRow.settle_publishedAt {now : Timestamp} {r : OutboxRow J} {verdict : Verdict}
    (h : r.publishedAt.isSome = true) : (r.settle now verdict).publishedAt.isSome = true := by
  unfold OutboxRow.settle
  split
  · exact h
  · rfl
  · split <;> exact h

/-- A settling statement never clears `dead_lettered_at`. -/
theorem OutboxRow.settle_deadLetteredAt {now : Timestamp} {r : OutboxRow J}
    {verdict : Verdict} (h : r.deadLetteredAt.isSome = true) :
    (r.settle now verdict).deadLetteredAt.isSome = true := by
  unfold OutboxRow.settle
  split
  · rfl
  · exact h
  · split
    · rfl
    · exact h

/-- The claiming statement leases due rows only, and returns columns of the table. -/
theorem claimDue_eq_some {now : Timestamp} {claimedBy : String} {limit : ℤ}
    {locked : List Uuid} {rows rows' : List (OutboxRow J)} {claimed : List (ClaimedRow J)}
    (h : claimDue now claimedBy limit locked rows = some (rows', claimed)) :
    ∃ ids : List Uuid,
      (∀ i ∈ ids, ∃ r ∈ rows, r.due now = true ∧ r.outboxId = i) ∧
      (∀ r ∈ rows, ids.contains r.outboxId = true → (r.lease now claimedBy).checked = true) ∧
      rows' = Rows.updateWhere (fun r => ids.contains r.outboxId)
        (OutboxRow.lease now claimedBy) rows ∧
      ∀ c ∈ claimed, ∃ r ∈ rows, r.claimed = c := by
  obtain ⟨rows₁, hup, heq⟩ := Option.map_eq_some_iff.mp h
  obtain ⟨rfl, rfl⟩ := Prod.mk.inj heq
  obtain ⟨hchecked, hrows⟩ := updateChecked_eq_some_iff.mp hup
  have hnext : ∀ r ∈ ((rows.filter fun r => r.due now && !locked.contains r.outboxId).insertionSort
      OutboxRow.dueBefore).take (clampLimit limit), r ∈ rows ∧ r.due now = true := by
    intro r hr
    have hmem := List.mem_filter.mp ((List.mem_insertionSort _).mp (List.mem_of_mem_take hr))
    exact ⟨hmem.1, (Bool.and_eq_true_iff.mp hmem.2).1⟩
  refine ⟨_, ?_, hchecked, hrows, ?_⟩
  · intro i hi
    obtain ⟨r, hr, rfl⟩ := List.mem_map.mp hi
    exact ⟨r, (hnext r hr).1, (hnext r hr).2, rfl⟩
  · intro c hc
    obtain ⟨r, hr, rfl⟩ := List.mem_map.mp hc
    exact ⟨r, (hnext r hr).1, rfl⟩

/-! ### The invariant -/

/-- The rows a relay still works on, the one it is about to settle included. -/
def Relay.held : Relay J → List (ClaimedRow J)
  | .idle => []
  | .working rows _ => rows
  | .settling row _ rest _ => row :: rest
  | .errored => []

/-- The call was made for exactly this row: its subject, its serialized payload and its
message identifier. -/
def PublishCall.isFor (serialize : J → Option (List UInt8)) (c : PublishCall)
    (row : ClaimedRow J) : Prop :=
  serialize row.payload = some c.body ∧ c.subject = row.subject ∧ c.messageId = row.messageId

/-- The publisher returned success for exactly this row, at `t` or before. -/
def Delivered (serialize : J → Option (List UInt8)) (calls : List PublishCall)
    (row : ClaimedRow J) (t : Timestamp) : Prop :=
  ∃ c ∈ calls, c.isFor serialize row ∧ c.result = .ok () ∧ c.returnedAt ≤ t

/-- A failure classed permanent happened to this row, at `t` or before: its payload does not
serialize, or the publisher returned a permanent error for exactly this row. -/
def Undeliverable (serialize : J → Option (List UInt8)) (calls : List PublishCall)
    (row : ClaimedRow J) (t : Timestamp) : Prop :=
  serialize row.payload = none ∨
    ∃ c ∈ calls, ∃ e : PublishError, c.isFor serialize row ∧ c.result = .error e ∧
      e.isPermanent = true ∧ c.returnedAt ≤ t

/-- What the relay knows about a row when it is about to record a verdict. -/
def Verdict.Evidence (serialize : J → Option (List UInt8)) (calls : List PublishCall)
    (row : ClaimedRow J) (now : Timestamp) : Verdict → Prop
  | .unserializable => serialize row.payload = none
  | .returned result =>
      ∃ c ∈ calls, c.isFor serialize row ∧ c.result = result ∧ c.returnedAt ≤ now

/-- What is known about one row of the table. -/
structure RowInv (serialize : J → Option (List UInt8)) (calls : List PublishCall)
    (now : Timestamp) (r : OutboxRow J) : Prop where
  checked : r.checked = true
  published : ∀ t, r.publishedAt = some t → Delivered serialize calls r.claimed t
  deadLettered : ∀ t, r.deadLetteredAt = some t → Undeliverable serialize calls r.claimed t
  nextAttempt : r.nextAttemptAt ≤ now + seconds 300
  lease : ∀ u, r.claimedUntil = some u → u ≤ now + seconds 30

/-- What is known about one relay: the rows it holds are rows of the table, and it settles on
evidence. -/
structure RelayInv (serialize : J → Option (List UInt8)) (rows : List (OutboxRow J))
    (calls : List PublishCall) (now : Timestamp) (x : Relay J) : Prop where
  held : ∀ c ∈ x.held, ∃ r ∈ rows, r.claimed = c
  evidence : ∀ row verdict rest report, x = .settling row verdict rest report →
    verdict.Evidence serialize calls row now

/-- **The invariant of the outbox system.** -/
structure OutboxInv (serialize : J → Option (List UInt8)) (s : OutboxState J) : Prop where
  keys : (s.rows.map OutboxRow.outboxId).Nodup
  row : ∀ r ∈ s.rows, RowInv serialize s.calls s.now r
  relay : ∀ i, RelayInv serialize s.rows s.calls s.now (s.relays i)

/-- Evidence stays available as calls are added and time passes. -/
theorem Verdict.Evidence.mono {calls calls' : List PublishCall} {row : ClaimedRow J}
    {now now' : Timestamp} {verdict : Verdict}
    (h : verdict.Evidence serialize calls row now) (hcalls : calls ⊆ calls')
    (hnow : now ≤ now') : verdict.Evidence serialize calls' row now' := by
  cases verdict with
  | unserializable => exact h
  | returned result =>
      obtain ⟨c, hc, hfor, hres, ht⟩ := h
      exact ⟨c, hcalls hc, hfor, hres, ht.trans hnow⟩

/-- What is known about a row stays true as calls are added and time passes. -/
theorem RowInv.mono {calls calls' : List PublishCall} {r : OutboxRow J} {now now' : Timestamp}
    (h : RowInv serialize calls now r) (hcalls : calls ⊆ calls') (hnow : now ≤ now') :
    RowInv serialize calls' now' r where
  checked := h.checked
  published t ht := by
    obtain ⟨c, hc, hrest⟩ := h.published t ht
    exact ⟨c, hcalls hc, hrest⟩
  deadLettered t ht := by
    rcases h.deadLettered t ht with hnone | ⟨c, hc, hrest⟩
    · exact Or.inl hnone
    · exact Or.inr ⟨c, hcalls hc, hrest⟩
  nextAttempt := h.nextAttempt.trans (Nat.add_le_add_right hnow _)
  lease u hu := (h.lease u hu).trans (Nat.add_le_add_right hnow _)

/-- A fresh lease keeps what is known about a row. -/
theorem RowInv.lease_row {calls : List PublishCall} {r : OutboxRow J} {now : Timestamp}
    {claimedBy : String} (h : RowInv serialize calls now r)
    (hchecked : (r.lease now claimedBy).checked = true) :
    RowInv serialize calls now (r.lease now claimedBy) where
  checked := hchecked
  published := h.published
  deadLettered := h.deadLettered
  nextAttempt := h.nextAttempt
  lease u hu := by
    obtain rfl : now + seconds 30 = u := Option.some.inj hu
    exact le_rfl

/-- The backoff is at most three hundred seconds. -/
theorem backoff_le {attempts : ℕ} : backoff attempts ≤ seconds 300 :=
  Nat.mul_le_mul_left _ (Nat.min_le_left _ _)

/-- Recording a verdict on evidence for the row keeps what is known about it. -/
theorem RowInv.settle_row {calls : List PublishCall} {r : OutboxRow J} {now : Timestamp}
    {verdict : Verdict} (h : RowInv serialize calls now r)
    (hev : verdict.Evidence serialize calls r.claimed now)
    (hchecked : (r.settle now verdict).checked = true) :
    RowInv serialize calls now (r.settle now verdict) := by
  cases verdict with
  | unserializable =>
      exact ⟨hchecked, h.published, fun t _ => Or.inl hev, h.nextAttempt, fun u hu => by cases hu⟩
  | returned result =>
      obtain ⟨c, hc, hfor, hres, ht⟩ := hev
      cases result with
      | ok _ =>
          refine ⟨hchecked, fun t hpub => ?_, h.deadLettered, h.nextAttempt, fun u hu => by cases hu⟩
          obtain rfl : now = t := Option.some.inj hpub
          exact ⟨c, hc, hfor, hres, ht⟩
      | error e =>
          cases hp : e.isPermanent with
          | true =>
              have hset : r.settle now (.returned (.error e)) = r.deadLetter now e.errorClass := by
                simp only [OutboxRow.settle, hp, if_true]
              rw [hset] at hchecked ⊢
              refine ⟨hchecked, h.published, fun t hdead => ?_, h.nextAttempt,
                fun u hu => by cases hu⟩
              obtain rfl : now = t := Option.some.inj hdead
              exact Or.inr ⟨c, hc, e, hfor, hres, hp, ht⟩
          | false =>
              have hset : r.settle now (.returned (.error e)) = r.backOff now e.errorClass := by
                simp [OutboxRow.settle, hp]
              rw [hset] at hchecked ⊢
              exact ⟨hchecked, h.published, h.deadLettered, Nat.add_le_add_left backoff_le _,
                fun u hu => by cases hu⟩

/-! ### The steps keep the invariant -/

/-- The rows a relay holds are still rows of the table after an update that keeps the
claimed columns. -/
theorem exists_claimed_of_update {rows : List (OutboxRow J)} {p : OutboxRow J → Bool}
    {f : OutboxRow J → OutboxRow J} (hf : ∀ r, (f r).claimed = r.claimed) {c : ClaimedRow J}
    (h : ∃ r ∈ rows, r.claimed = c) : ∃ r ∈ Rows.updateWhere p f rows, r.claimed = c := by
  obtain ⟨r, hr, rfl⟩ := h
  by_cases hp : p r = true
  · exact ⟨f r, Rows.mem_updateWhere_of_pos hr hp, hf r⟩
  · exact ⟨r, Rows.mem_updateWhere_of_not hr (Bool.not_eq_true _ ▸ hp), rfl⟩

/-- An update that keeps the claimed columns keeps the key. -/
theorem keys_updateWhere {rows : List (OutboxRow J)} {p : OutboxRow J → Bool}
    {f : OutboxRow J → OutboxRow J} (hf : ∀ r, (f r).claimed = r.claimed) :
    (Rows.updateWhere p f rows).map OutboxRow.outboxId = rows.map OutboxRow.outboxId :=
  Rows.map_updateWhere _ fun r _ _ => congrArg ClaimedRow.outboxId (hf r)

/-- A relay that is idle, or that errored, holds nothing. -/
theorem RelayInv.of_held_nil {rows : List (OutboxRow J)} {calls : List PublishCall}
    {now : Timestamp} {x : Relay J} (h : x.held = []) : RelayInv serialize rows calls now x where
  held c hc := by simp [h] at hc
  evidence row verdict rest report hx := by simp [hx, Relay.held] at h

/-- What is known about a relay stays true as calls are added and time passes, as long as
the rows it holds stay in the table. -/
theorem RelayInv.mono {rows rows' : List (OutboxRow J)} {calls calls' : List PublishCall}
    {now now' : Timestamp} {x : Relay J} (h : RelayInv serialize rows calls now x)
    (hrows : ∀ c, (∃ r ∈ rows, r.claimed = c) → ∃ r ∈ rows', r.claimed = c)
    (hcalls : calls ⊆ calls') (hnow : now ≤ now') :
    RelayInv serialize rows' calls' now' x where
  held c hc := hrows c (h.held c hc)
  evidence row verdict rest report hx :=
    (h.evidence row verdict rest report hx).mono hcalls hnow

/-- Replacing one relay keeps a property of all relays that the new one has. -/
theorem forall_update_relays {relays : ℕ → Relay J} {relay : ℕ} {new : Relay J}
    {P : Relay J → Prop} (hnew : P new) (hold : ∀ i, P (relays i)) (i : ℕ) :
    P (Function.update relays relay new i) := by
  by_cases hi : i = relay
  · subst hi
    rw [Function.update_self]
    exact hnew
  · rw [Function.update_of_ne hi]
    exact hold i

namespace OutboxInv

variable {s : OutboxState J}

/-- The passage of time keeps the invariant. -/
theorem tick (h : OutboxInv serialize s) (elapsed : ℕ) :
    OutboxInv serialize { s with now := s.now + elapsed } where
  keys := h.keys
  row r hr := (h.row r hr).mono (List.Subset.refl _) (Nat.le_add_right _ _)
  relay i := (h.relay i).mono (fun _ hc => hc) (List.Subset.refl _) (Nat.le_add_right _ _)

/-- A relay that stops holding rows keeps the invariant. -/
theorem drop (h : OutboxInv serialize s) (relay : ℕ) {new : Relay J} (hnew : new.held = []) :
    OutboxInv serialize { s with relays := Function.update s.relays relay new } where
  keys := h.keys
  row := h.row
  relay := forall_update_relays (RelayInv.of_held_nil hnew) h.relay

/-- An enqueued row keeps the invariant. -/
theorem enqueue (h : OutboxInv serialize s)
    {outboxId messageId causationCommandId operationId : Uuid} {subject : String} {payload : J}
    {at_ : Timestamp} {rows : List (OutboxRow J)}
    (hchecked : (OutboxRow.enqueued outboxId messageId causationCommandId operationId subject
      payload at_).checked = true)
    (hat : at_ ≤ s.now)
    (hins : insertOutbox (OutboxRow.enqueued outboxId messageId causationCommandId operationId
      subject payload at_) s.rows = some rows) :
    OutboxInv serialize { s with rows := rows } := by
  unfold insertOutbox at hins
  split at hins
  · exact absurd hins (Option.some_ne_none _).symm
  · have hkeys := Rows.nodup_of_insertKeyed h.keys hins
    obtain ⟨-, rfl⟩ := Rows.insertKeyed_eq_some_iff.mp hins
    refine ⟨hkeys, fun r hr => ?_, fun i => (h.relay i).mono (fun c hc => ?_)
      (List.Subset.refl _) le_rfl⟩
    · rcases List.mem_append.mp hr with hr | hr
      · exact h.row r hr
      · obtain rfl := List.mem_singleton.mp hr
        exact ⟨hchecked, fun t ht => (Option.some_ne_none t ht.symm).elim,
          fun t ht => (Option.some_ne_none t ht.symm).elim,
          hat.trans (Nat.le_add_right _ _), fun u hu => (Option.some_ne_none u hu.symm).elim⟩
    · obtain ⟨r, hr, hrc⟩ := hc
      exact ⟨r, List.mem_append_left _ hr, hrc⟩

/-- An update that keeps the claimed columns, and what is known about each row it changes,
keeps the invariant. -/
theorem update (h : OutboxInv serialize s) {p : OutboxRow J → Bool}
    {f : OutboxRow J → OutboxRow J} (hf : ∀ r, (f r).claimed = r.claimed)
    (hrow : ∀ r ∈ s.rows, p r = true → RowInv serialize s.calls s.now (f r)) :
    OutboxInv serialize { s with rows := Rows.updateWhere p f s.rows } where
  keys := (keys_updateWhere hf).symm ▸ h.keys
  row r' hr' := by
    obtain ⟨r, hr, hrr⟩ := Rows.mem_updateWhere.mp hr'
    by_cases hp : p r = true
    · rw [if_pos hp] at hrr
      exact hrr ▸ hrow r hr hp
    · rw [if_neg hp] at hrr
      exact hrr ▸ h.row r hr
  relay i := (h.relay i).mono (fun _ hc => exists_claimed_of_update hf hc)
    (List.Subset.refl _) le_rfl

/-- The claiming statement keeps the invariant. -/
theorem claim (h : OutboxInv serialize s) (relay : ℕ) (claimedBy : String) (limit : ℤ)
    (locked : List Uuid) (order : Reordering (ClaimedRow J)) :
    OutboxInv serialize (stepClaim s relay claimedBy limit locked order) := by
  unfold stepClaim
  split
  · exact h.drop relay rfl
  · rename_i rows claimed hclaim
    obtain ⟨ids, -, hchecked, rfl, hclaimed⟩ := claimDue_eq_some hclaim
    have hinv := h.update (p := fun r => ids.contains r.outboxId)
      (f := OutboxRow.lease s.now claimedBy) (fun _ => rfl)
      fun r hr hp => (h.row r hr).lease_row (hchecked r hr hp)
    refine ⟨hinv.keys, hinv.row, forall_update_relays ⟨fun c hc => ?_, ?_⟩ hinv.relay⟩
    · have hmem : c ∈ claimed := (order claimed).2.mem_iff.mp hc
      exact exists_claimed_of_update (f := OutboxRow.lease s.now claimedBy) (fun _ => rfl)
        (hclaimed c hmem)
    · intro row verdict rest report hx
      cases hx

/-- Handing a row to the publisher keeps the invariant. -/
theorem publish (h : OutboxInv serialize s) {relay : ℕ} {row : ClaimedRow J}
    {rest : List (ClaimedRow J)} {report : OutboxReport}
    (hrelay : s.relays relay = .working (row :: rest) report)
    (result : Except PublishError Unit) :
    OutboxInv serialize (stepPublish serialize s relay row rest report result) := by
  have hheld := (h.relay relay).held
  rw [hrelay] at hheld
  unfold stepPublish
  split
  · rename_i hser
    refine ⟨h.keys, h.row, forall_update_relays ⟨hheld, ?_⟩ h.relay⟩
    intro row' verdict rest' report' hx
    obtain ⟨rfl, rfl, rfl, rfl⟩ := Relay.settling.inj hx
    exact hser
  · rename_i body hser
    have hsub : s.calls ⊆ s.calls ++ [⟨row.subject, body, row.messageId, result, s.now⟩] :=
      List.subset_append_left _ _
    refine ⟨h.keys, fun r hr => (h.row r hr).mono hsub le_rfl,
      forall_update_relays ⟨hheld, ?_⟩ fun i => (h.relay i).mono (fun _ hc => hc) hsub le_rfl⟩
    intro row' verdict rest' report' hx
    obtain ⟨rfl, rfl, rfl, rfl⟩ := Relay.settling.inj hx
    exact ⟨_, List.mem_append_right _ (List.mem_singleton_self _), ⟨hser, rfl, rfl⟩, rfl, le_rfl⟩

/-- The row a settling statement addresses is the row the relay holds. -/
theorem claimed_eq (h : OutboxInv serialize s) {relay : ℕ} {row : ClaimedRow J}
    {verdict : Verdict} {rest : List (ClaimedRow J)} {report : OutboxReport}
    (hrelay : s.relays relay = .settling row verdict rest report) {r : OutboxRow J}
    (hr : r ∈ s.rows) (hid : r.outboxId = row.outboxId) : r.claimed = row := by
  have hheld := (h.relay relay).held
  rw [hrelay] at hheld
  obtain ⟨r', hr', rfl⟩ := hheld row (List.mem_cons_self ..)
  rw [Rows.eq_of_key h.keys hr hr' hid]

/-- Recording an outcome keeps the invariant. -/
theorem settle (h : OutboxInv serialize s) {relay : ℕ} {row : ClaimedRow J} {verdict : Verdict}
    {rest : List (ClaimedRow J)} {report : OutboxReport}
    (hrelay : s.relays relay = .settling row verdict rest report) :
    OutboxInv serialize (stepSettle s relay row verdict rest report) := by
  unfold stepSettle
  split
  · exact h.drop relay rfl
  · rename_i rows hrec
    rw [recordVerdict_eq] at hrec
    obtain ⟨hchecked, rfl⟩ := updateChecked_eq_some_iff.mp hrec
    have hev := (h.relay relay).evidence row verdict rest report hrelay
    have hinv := h.update (p := fun r => r.outboxId == row.outboxId)
      (f := fun r => r.settle s.now verdict) (fun _ => OutboxRow.settle_claimed)
      fun r hr hp => by
        have hid : r.outboxId = row.outboxId := by simpa using hp
        have hrow := h.claimed_eq hrelay hr hid
        exact (h.row r hr).settle_row (hrow.symm ▸ hev) (hchecked r hr hp)
    have hheld := (h.relay relay).held
    rw [hrelay] at hheld
    refine ⟨hinv.keys, hinv.row, forall_update_relays ⟨fun c hc => ?_, ?_⟩ hinv.relay⟩
    · exact exists_claimed_of_update (fun _ => OutboxRow.settle_claimed)
        (hheld c (List.mem_cons_of_mem _ hc))
    · intro row' verdict' rest' report' hx
      cases hx

end OutboxInv

/-- Every step keeps the invariant. -/
theorem OutboxInv.step {s t : OutboxState J} {a : OutboxLabel J} (h : OutboxInv serialize s)
    (hst : outboxStep serialize s a = some t) : OutboxInv serialize t := by
  cases a with
  | tick elapsed =>
      obtain rfl := Option.some.inj hst
      exact h.tick elapsed
  | enqueue outboxId messageId causationCommandId operationId subject payload at_ =>
      simp only [outboxStep] at hst
      split at hst
      · rename_i hok
        obtain ⟨rows, hins, rfl⟩ := Option.map_eq_some_iff.mp hst
        exact h.enqueue hok.1 hok.2 hins
      · exact absurd hst.symm (Option.some_ne_none _)
  | claim relay claimedBy limit locked order =>
      simp only [outboxStep] at hst
      split at hst
      · obtain rfl := Option.some.inj hst
        exact h.claim relay claimedBy limit locked order
      · obtain rfl := Option.some.inj hst
        exact h.claim relay claimedBy limit locked order
      · exact absurd hst.symm (Option.some_ne_none _)
  | publish relay result =>
      simp only [outboxStep] at hst
      split at hst
      · rename_i hrelay
        obtain rfl := Option.some.inj hst
        exact h.publish hrelay result
      · exact absurd hst.symm (Option.some_ne_none _)
  | settle relay =>
      simp only [outboxStep] at hst
      split at hst
      · rename_i hrelay
        obtain rfl := Option.some.inj hst
        exact h.settle hrelay
      · exact absurd hst.symm (Option.some_ne_none _)
  | crash relay =>
      obtain rfl := Option.some.inj hst
      exact h.drop relay rfl

/-- **The invariant holds in every reachable state.** -/
theorem outboxInv_of_reachable {s : OutboxState J} (h : (outboxSystem serialize).Reachable s) :
    OutboxInv serialize s := by
  refine h.invariant ?_ fun s a t _ hinv hst => hinv.step hst
  rintro s ⟨hrows, -, hidle⟩
  refine ⟨?_, ?_, fun i => RelayInv.of_held_nil (by rw [hidle i]; rfl)⟩
  · rw [hrows]
    exact List.nodup_nil
  · intro r hr
    rw [hrows] at hr
    exact absurd hr (List.not_mem_nil)

/-! ### How one row evolves -/

/-- What one step may do to one row: nothing, a lease if the row is due, or the settling
statement of a relay that holds a row with its identifier. -/
inductive RowStep (s : OutboxState J) (a : OutboxLabel J) (r : OutboxRow J) :
    OutboxRow J → Prop
  | kept : RowStep s a r r
  | leased (claimedBy : String) (hdue : r.due s.now = true) :
      RowStep s a r (r.lease s.now claimedBy)
  | settled {relay : ℕ} {row : ClaimedRow J} {verdict : Verdict} {rest : List (ClaimedRow J)}
      {report : OutboxReport} (ha : a = .settle relay)
      (hrelay : s.relays relay = .settling row verdict rest report)
      (hid : r.outboxId = row.outboxId) : RowStep s a r (r.settle s.now verdict)

/-- **No row disappears**, and `RowStep` is all that happens to it. -/
theorem OutboxInv.rowStep {s t : OutboxState J} {a : OutboxLabel J}
    (h : OutboxInv serialize s) (hst : outboxStep serialize s a = some t) {r : OutboxRow J}
    (hr : r ∈ s.rows) : ∃ r' ∈ t.rows, RowStep s a r r' := by
  cases a with
  | tick elapsed =>
      obtain rfl := Option.some.inj hst
      exact ⟨r, hr, .kept⟩
  | crash relay =>
      obtain rfl := Option.some.inj hst
      exact ⟨r, hr, .kept⟩
  | enqueue outboxId messageId causationCommandId operationId subject payload at_ =>
      simp only [outboxStep] at hst
      split at hst
      · obtain ⟨rows, hins, rfl⟩ := Option.map_eq_some_iff.mp hst
        unfold insertOutbox at hins
        split at hins
        · exact absurd hins.symm (Option.some_ne_none _)
        · obtain ⟨-, rfl⟩ := Rows.insertKeyed_eq_some_iff.mp hins
          exact ⟨r, List.mem_append_left _ hr, .kept⟩
      · exact absurd hst.symm (Option.some_ne_none _)
  | publish relay result =>
      simp only [outboxStep] at hst
      split at hst
      · obtain rfl := Option.some.inj hst
        refine ⟨r, ?_, .kept⟩
        unfold stepPublish
        split <;> exact hr
      · exact absurd hst.symm (Option.some_ne_none _)
  | claim relay claimedBy limit locked order =>
      have ht : t = stepClaim s relay claimedBy limit locked order := by
        simp only [outboxStep] at hst
        split at hst
        · exact (Option.some.inj hst).symm
        · exact (Option.some.inj hst).symm
        · exact absurd hst.symm (Option.some_ne_none _)
      subst ht
      unfold stepClaim
      split
      · exact ⟨r, hr, .kept⟩
      · rename_i rows claimed hclaim
        obtain ⟨ids, hdue, -, rfl, -⟩ := claimDue_eq_some hclaim
        by_cases hp : ids.contains r.outboxId = true
        · obtain ⟨r₀, hr₀, hdue₀, hid⟩ := hdue r.outboxId (by simpa using hp)
          obtain rfl := Rows.eq_of_key h.keys hr₀ hr hid
          exact ⟨_, Rows.mem_updateWhere_of_pos hr hp, .leased claimedBy hdue₀⟩
        · exact ⟨r, Rows.mem_updateWhere_of_not hr (Bool.not_eq_true _ ▸ hp), .kept⟩
  | settle relay =>
      simp only [outboxStep] at hst
      split at hst
      · rename_i row verdict rest report hrelay
        obtain rfl := Option.some.inj hst
        unfold stepSettle
        split
        · exact ⟨r, hr, .kept⟩
        · rename_i rows hrec
          rw [recordVerdict_eq] at hrec
          obtain ⟨-, rfl⟩ := updateChecked_eq_some_iff.mp hrec
          by_cases hid : r.outboxId = row.outboxId
          · exact ⟨_, Rows.mem_updateWhere_of_pos hr (by simpa using hid),
              .settled rfl hrelay hid⟩
          · exact ⟨r, Rows.mem_updateWhere_of_not hr (by simpa using hid), .kept⟩
      · exact absurd hst.symm (Option.some_ne_none _)

/-- The row keeps its claimed columns, and neither outcome is cleared. -/
structure RowKept (r r' : OutboxRow J) : Prop where
  claimed : r'.claimed = r.claimed
  published : r.publishedAt.isSome = true → r'.publishedAt.isSome = true
  deadLettered : r.deadLetteredAt.isSome = true → r'.deadLetteredAt.isSome = true

/-- Whatever a step does to a row, it keeps it. -/
theorem RowStep.rowKept {s : OutboxState J} {a : OutboxLabel J} {r r' : OutboxRow J}
    (h : RowStep s a r r') : RowKept r r' := by
  cases h with
  | kept => exact ⟨rfl, fun h => h, fun h => h⟩
  | leased claimedBy hdue => exact ⟨rfl, fun h => h, fun h => h⟩
  | settled ha hrelay hid =>
      exact ⟨OutboxRow.settle_claimed, OutboxRow.settle_publishedAt,
        OutboxRow.settle_deadLetteredAt⟩

/-- Along a run every row is kept. -/
theorem run_keeps_rows {s t : OutboxState J} {as : List (OutboxLabel J)}
    (hs : (outboxSystem serialize).Reachable s) (hrun : (outboxSystem serialize).Run s as t) :
    ∀ r ∈ s.rows, ∃ r' ∈ t.rows, RowKept r r' := by
  refine hrun.preserves (R := fun s t => ∀ r ∈ s.rows, ∃ r' ∈ t.rows, RowKept r r') ?_ ?_ hs ?_
  · exact fun s r hr => ⟨r, hr, rfl, fun h => h, fun h => h⟩
  · intro s t u hst htu r hr
    obtain ⟨r₁, hr₁, h₁⟩ := hst r hr
    obtain ⟨r₂, hr₂, h₂⟩ := htu r₁ hr₁
    exact ⟨r₂, hr₂, h₂.claimed.trans h₁.claimed, fun h => h₂.published (h₁.published h),
      fun h => h₂.deadLettered (h₁.deadLettered h)⟩
  · intro s a t hreach hst r hr
    obtain ⟨r', hr', hstep⟩ := (outboxInv_of_reachable hreach).rowStep hst hr
    exact ⟨r', hr', hstep.rowKept⟩

/-! ### Overlapping leases -/

/-- Payloads that are stored as the bytes they serialize to. -/
abbrev RawPayload := List UInt8

/-- An empty table and idle relays at time zero. -/
def outboxStart : OutboxState RawPayload :=
  { now := 0, rows := [], relays := fun _ => .idle, calls := [] }

/-- Rows come back in the order they were claimed. -/
def asClaimed {α : Type} : Reordering α := fun l => ⟨l, List.Perm.refl l⟩

/-- A queued report as its transaction inserts it. -/
def reportRow : OutboxRow RawPayload :=
  OutboxRow.enqueued 1 2 3 4 reportSubject [123, 125] 0

/-- One report is enqueued, relay 0 claims it, its lease expires, and relay 1 claims it. -/
def overlappingClaims : List (OutboxLabel RawPayload) :=
  [.enqueue 1 2 3 4 reportSubject [123, 125] 0, .claim 0 "relay-0" 10 [] asClaimed,
    .tick (seconds 31), .claim 1 "relay-1" 10 [] asClaimed]

/-- A run from the empty table leads to a reachable state. -/
theorem reachable_of_exec {as : List (OutboxLabel RawPayload)} {s : OutboxState RawPayload}
    (h : Labelled.System.exec (outboxStep some) outboxStart as = some s) :
    (outboxSystem some).Reachable s :=
  ⟨outboxStart, as, ⟨rfl, rfl, fun _ => rfl⟩, Labelled.System.Run.of_exec h⟩

/-- Relay 1 published the row; then the publisher refused relay 0. -/
theorem exec_lateTransient : ∃ s t : OutboxState RawPayload,
    Labelled.System.exec (outboxStep some) outboxStart (overlappingClaims ++
      [.publish 1 (.ok ()), .settle 1, .publish 0 (.error .transient)]) = some s ∧
    outboxStep some s (.settle 0) = some t ∧ s.rows = [reportRow.publish (seconds 31)] ∧
    t.rows = [(reportRow.publish (seconds 31)).backOff (seconds 31) "publish_failed"] :=
  ⟨_, _, rfl, rfl, rfl, rfl⟩

/-- Relay 1 dead-lettered the row; then the publisher accepted it from relay 0. -/
theorem exec_lateSuccess : ∃ s t : OutboxState RawPayload,
    Labelled.System.exec (outboxStep some) outboxStart (overlappingClaims ++
      [.publish 1 (.error .tooLarge), .settle 1, .publish 0 (.ok ())]) = some s ∧
    outboxStep some s (.settle 0) = some t ∧
    s.rows = [reportRow.deadLetter (seconds 31) payloadTooLarge] ∧ s.now = seconds 31 ∧
    s.relays 0 = .settling reportRow.claimed (.returned (.ok ())) [] { claimed := 1 } ∧
    t.relays 0 = .errored :=
  ⟨_, _, rfl, rfl, rfl, rfl, rfl, rfl⟩

/-! ### The lifecycle -/

/-- A row that is neither published nor dead-lettered is due three hundred seconds from now,
if nothing touches it before. -/
theorem RowInv.due_of_unsettled {calls : List PublishCall} {r : OutboxRow J}
    {now t : Timestamp} (h : RowInv serialize calls now r) (hr : r.settled = false)
    (ht : now + seconds 300 ≤ t) : r.due t = true := by
  obtain ⟨hpub, hdead⟩ := Bool.or_eq_false_iff.mp hr
  have hlease : (r.claimedUntil.all fun u => decide (u ≤ t)) = true := by
    cases hu : r.claimedUntil with
    | none => rfl
    | some u =>
        have hle : u ≤ now + seconds 30 := h.lease u hu
        have h30 : now + seconds 30 ≤ now + seconds 300 := Nat.add_le_add_left (by decide) _
        simpa using (hle.trans h30).trans ht
  have hnext : r.nextAttemptAt ≤ t := h.nextAttempt.trans ht
  simp only [OutboxRow.due, hlease, hnext, Option.isSome_eq_false_iff.mp hpub,
    Option.isSome_eq_false_iff.mp hdead, decide_true, Bool.and_self]

/-- The exclusivity constraint of the table. -/
theorem OutboxRow.exclusive_of_checked {r : OutboxRow J} (h : r.checked = true) :
    ¬(r.publishedAt.isSome = true ∧ r.deadLetteredAt.isSome = true) := by
  rintro ⟨hpub, hdead⟩
  simp [OutboxRow.checked, hpub, hdead] at h

/-- A recorded transient failure backs its row off. -/
theorem OutboxInv.backOff_mem {s t : OutboxState J} (h : OutboxInv serialize s) {relay : ℕ}
    {row : ClaimedRow J} {e : PublishError} {rest : List (ClaimedRow J)} {report : OutboxReport}
    (hrelay : s.relays relay = .settling row (.returned (.error e)) rest report)
    (he : e.isPermanent = false) (hst : outboxStep serialize s (.settle relay) = some t)
    (hok : t.relays relay ≠ .errored) :
    ∃ r ∈ s.rows, r.claimed = row ∧ r.backOff s.now e.errorClass ∈ t.rows := by
  have hheld := (h.relay relay).held
  rw [hrelay] at hheld
  obtain ⟨r, hr, hrow⟩ := hheld row (List.mem_cons_self ..)
  have hid : (r.outboxId == row.outboxId) = true := by simp [← hrow, OutboxRow.claimed]
  simp only [outboxStep, hrelay, Option.some.injEq] at hst
  subst hst
  unfold stepSettle at hok ⊢
  split at hok
  · exact absurd (Function.update_self ..) hok
  · rename_i rows hrec
    rw [recordVerdict_eq] at hrec
    obtain ⟨-, rfl⟩ := updateChecked_eq_some_iff.mp hrec
    refine ⟨r, hr, hrow, ?_⟩
    have hmem := Rows.mem_updateWhere_of_pos (p := fun r => r.outboxId == row.outboxId)
      (f := fun r => r.settle s.now (.returned (.error e))) hr hid
    simpa [OutboxRow.settle, he] using hmem

/-- **The lifecycle of an outbox row**, in every reachable state of any number of relays:

* `published_at` is set only after the publisher returned success for exactly this row's
  subject, payload and message identifier;
* `dead_lettered_at` is set only after a failure classed permanent for this row;
* no row is both;
* a row that is neither is due again within three hundred seconds, whatever happened to it;
* along any run the row stays in the table with its claimed columns, and neither outcome is
  cleared;
* a recorded transient failure only backs the row off, by at most three hundred seconds. -/
theorem outbox_row_lifecycle {s : OutboxState J} (h : (outboxSystem serialize).Reachable s) :
    (∀ r ∈ s.rows,
      (∀ t, r.publishedAt = some t → Delivered serialize s.calls r.claimed t) ∧
      (∀ t, r.deadLetteredAt = some t → Undeliverable serialize s.calls r.claimed t) ∧
      ¬(r.publishedAt.isSome = true ∧ r.deadLetteredAt.isSome = true) ∧
      (r.settled = false → ∀ t, s.now + seconds 300 ≤ t → r.due t = true)) ∧
    (∀ as t, (outboxSystem serialize).Run s as t →
      ∀ r ∈ s.rows, ∃ r' ∈ t.rows, RowKept r r') ∧
    (∀ relay row e rest report t,
      s.relays relay = .settling row (.returned (.error e)) rest report →
      e.isPermanent = false → (outboxSystem serialize).step s (.settle relay) t →
      t.relays relay ≠ .errored →
      ∃ r ∈ s.rows, ∃ r' ∈ t.rows, r.claimed = row ∧ r'.claimed = row ∧
        r'.publishedAt = r.publishedAt ∧ r'.deadLetteredAt = r.deadLetteredAt ∧
        r'.nextAttemptAt ≤ s.now + seconds 300) := by
  have hinv := outboxInv_of_reachable h
  refine ⟨fun r hr => ?_, fun as t hrun => run_keeps_rows h hrun, ?_⟩
  · have hrow := hinv.row r hr
    exact ⟨hrow.published, hrow.deadLettered, OutboxRow.exclusive_of_checked hrow.checked,
      fun hset t ht => hrow.due_of_unsettled hset ht⟩
  · intro relay row e rest report t hrelay he hst hok
    obtain ⟨r, hr, hrow, hmem⟩ := hinv.backOff_mem hrelay he hst hok
    exact ⟨r, hr, _, hmem, hrow, hrow, rfl, rfl, Nat.add_le_add_left backoff_le _⟩

/-- A reachable state with a published row, and what the lifecycle says about it. -/
theorem outbox_row_lifecycle_published : ∃ s : OutboxState RawPayload,
    (outboxSystem some).Reachable s ∧ reportRow.publish (seconds 31) ∈ s.rows ∧
    Delivered some s.calls reportRow.claimed (seconds 31) := by
  obtain ⟨s, -, hs, -, hrows, -⟩ := exec_lateTransient
  have hmem : reportRow.publish (seconds 31) ∈ s.rows := by
    rw [hrows]
    exact List.mem_singleton_self _
  exact ⟨s, reachable_of_exec hs, hmem,
    ((outbox_row_lifecycle (reachable_of_exec hs)).1 _ hmem).1 _ rfl⟩

/-! ### Settled rows -/

/-- The condition under which a settled row stays as it is: the settling statement of a relay
finds its row neither published nor dead-lettered. Other steps are free. -/
def SettlesUnsettled (s : OutboxState J) (a : OutboxLabel J) : Prop :=
  ∀ relay row verdict rest report, a = .settle relay →
    s.relays relay = .settling row verdict rest report →
    ∀ r ∈ s.rows, r.outboxId = row.outboxId → r.settled = false

/-- The step ends a pass with `Err`, and the only reason is that the row was settled: the same
statement goes through on the row as it was before it was settled. -/
def ErrBySettled (s : OutboxState J) (a : OutboxLabel J) (t : OutboxState J) : Prop :=
  ∃ relay row verdict rest report, a = .settle relay ∧
    s.relays relay = .settling row verdict rest report ∧ t.relays relay = .errored ∧
    ∀ r ∈ s.rows, r.outboxId = row.outboxId →
      r.settled = true ∧
        (({ r with publishedAt := none, deadLetteredAt := none } : OutboxRow J).settle s.now
          verdict).checked = true

/-- Under the condition a settled row is still in the table, unchanged. -/
theorem OutboxInv.mem_of_settled {s t : OutboxState J} {a : OutboxLabel J}
    (h : OutboxInv serialize s) (hst : outboxStep serialize s a = some t)
    (hC : SettlesUnsettled s a) {r : OutboxRow J} (hr : r ∈ s.rows) (hset : r.settled = true) :
    r ∈ t.rows := by
  obtain ⟨r', hr', hstep⟩ := h.rowStep hst hr
  cases hstep with
  | kept => exact hr'
  | leased claimedBy hdue =>
      simp only [OutboxRow.due, Bool.and_eq_true, Option.isNone_iff_eq_none] at hdue
      simp [OutboxRow.settled, hdue.1.1.1, hdue.1.1.2] at hset
  | settled ha hrelay hid =>
      have := hC _ _ _ _ _ ha hrelay r hr hid
      rw [hset] at this
      exact absurd this (by decide)

/-- The classes recorded in `last_error` meet the column's constraint. -/
theorem lastError_safe {e : String}
    (he : e = payloadUnserializable ∨ ∃ p : PublishError, e = p.errorClass) :
    (decide (e.length ≤ 512) && e.toList.all fun c => c != '\r' && c != '\n') = true := by
  rcases he with rfl | ⟨p, rfl⟩
  · decide
  · cases p <;> decide

/-- A settling statement goes through on an unsettled row whose attempt counter is not full. -/
theorem OutboxRow.settle_checked {r : OutboxRow J} {now : Timestamp} {verdict : Verdict}
    (hr : r.checked = true) (hset : r.settled = false) (hatt : r.attempts < int4Max) :
    (r.settle now verdict).checked = true := by
  obtain ⟨hpub, hdead⟩ := Bool.or_eq_false_iff.mp hset
  simp only [OutboxRow.checked, Bool.and_eq_true] at hr
  obtain ⟨⟨⟨⟨⟨hsubject, -⟩, -⟩, -⟩, -⟩, -⟩ := hr
  have hfail : ∀ e : String, (e = payloadUnserializable ∨ ∃ p : PublishError, e = p.errorClass) →
      (r.deadLetter now e).checked = true ∧ (r.backOff now e).checked = true := by
    intro e he
    have hsafe := lastError_safe he
    have hsucc : r.attempts + 1 ≤ int4Max := hatt
    constructor
    · simp only [OutboxRow.checked, OutboxRow.deadLetter, hsubject, hsucc, hpub, hsafe,
        Option.all_some, Option.all_none, Option.isNone_none, Option.isSome_some, beq_self_eq_true,
        decide_true, Bool.and_self, Bool.false_and, Bool.not_false]
    · simp only [OutboxRow.checked, OutboxRow.backOff, hsubject, hsucc, hpub, hsafe,
        Option.all_some, Option.all_none, Option.isNone_none, beq_self_eq_true,
        decide_true, Bool.and_self, Bool.false_and, Bool.not_false]
  unfold OutboxRow.settle
  split
  · exact (hfail _ (Or.inl rfl)).1
  · have hle : r.attempts ≤ int4Max := hatt.le
    simp only [OutboxRow.checked, OutboxRow.publish, hsubject, hle, hdead, Option.all_none,
      Option.isNone_none, beq_self_eq_true, decide_true, Bool.and_self, Bool.and_false,
      Bool.not_false]
  · rename_i e
    split
    · exact (hfail _ (Or.inr ⟨e, rfl⟩)).1
    · exact (hfail _ (Or.inr ⟨e, rfl⟩)).2

/-- A pass that ends with `Err` while it settles an unsettled row met a full attempt
counter. -/
theorem OutboxInv.attempts_of_errored {s t : OutboxState J} (h : OutboxInv serialize s)
    {relay : ℕ} {row : ClaimedRow J} {verdict : Verdict} {rest : List (ClaimedRow J)}
    {report : OutboxReport} (hrelay : s.relays relay = .settling row verdict rest report)
    (hst : outboxStep serialize s (.settle relay) = some t) (hC : SettlesUnsettled s (.settle relay))
    (herr : t.relays relay = .errored) :
    ∃ r ∈ s.rows, r.claimed = row ∧ r.attempts = int4Max := by
  simp only [outboxStep, hrelay, Option.some.injEq] at hst
  subst hst
  unfold stepSettle at herr
  split at herr
  · rename_i hrec
    rw [recordVerdict_eq] at hrec
    obtain ⟨r, hr, hp, hbad⟩ := exists_of_updateChecked_eq_none hrec
    have hid : r.outboxId = row.outboxId := by simpa using hp
    have hset := hC relay row verdict rest report rfl hrelay r hr hid
    refine ⟨r, hr, h.claimed_eq hrelay hr hid, ?_⟩
    have hle : r.attempts ≤ int4Max := by
      have hchecked := (h.row r hr).checked
      simp only [OutboxRow.checked, Bool.and_eq_true] at hchecked
      simpa using hchecked.1.1.1.1.2
    by_contra hne
    rw [OutboxRow.settle_checked (h.row r hr).checked hset (lt_of_le_of_ne hle hne)] at hbad
    exact absurd hbad (by decide)
  · simp only [Function.update_self] at herr
    cases herr

/-- **Settled rows are frozen and break no relay**, in every run whose settling statements
find their rows unsettled: a settled row is never changed again, no pass ends with `Err`
because a row was settled, and a pass that does end with `Err` while it settles a row met the
full attempt counter of that row. -/
theorem settled_rows_frozen {s : OutboxState J}
    (h : ((outboxSystem serialize).restrict SettlesUnsettled).Reachable s) :
    (∀ as t, ((outboxSystem serialize).restrict SettlesUnsettled).Run s as t →
      ∀ r ∈ s.rows, r.settled = true → r ∈ t.rows) ∧
    (∀ a t, ((outboxSystem serialize).restrict SettlesUnsettled).step s a t →
      ¬ErrBySettled s a t) ∧
    (∀ relay row verdict rest report t,
      ((outboxSystem serialize).restrict SettlesUnsettled).step s (.settle relay) t →
      s.relays relay = .settling row verdict rest report → t.relays relay = .errored →
      ∃ r ∈ s.rows, r.claimed = row ∧ r.attempts = int4Max) := by
  refine ⟨fun as t hrun => ?_, ?_, ?_⟩
  · refine hrun.preserves
      (R := fun s t => ∀ r ∈ s.rows, r.settled = true → r ∈ t.rows)
      (fun _ _ hr _ => hr) ?_ h ?_
    · intro s t u hst htu r hr hset
      exact htu r (hst r hr hset) hset
    · intro s a t hreach hst r hr hset
      exact (outboxInv_of_reachable hreach.of_restrict).mem_of_settled hst.1 hst.2 hr hset
  · rintro a t ⟨-, hC⟩ ⟨relay, row, verdict, rest, report, ha, hrelay, -, hall⟩
    have hheld := ((outboxInv_of_reachable h.of_restrict).relay relay).held
    rw [hrelay] at hheld
    obtain ⟨r, hr, hrow⟩ := hheld row (List.mem_cons_self ..)
    have hid : r.outboxId = row.outboxId := congrArg ClaimedRow.outboxId hrow
    have hun := hC relay row verdict rest report ha hrelay r hr hid
    rw [(hall r hr hid).1] at hun
    exact absurd hun (by decide)
  · intro relay row verdict rest report t hst hrelay herr
    exact (outboxInv_of_reachable h.of_restrict).attempts_of_errored hrelay hst.1 hst.2 herr

/-- Relays 0 and 1 both hold the row and both publish it, and only relay 1 settles it: the run
meets the condition, and the published row stays as it is. -/
theorem settled_rows_frozen_single : ∃ s : OutboxState RawPayload,
    ((outboxSystem some).restrict SettlesUnsettled).Reachable s ∧
    s.relays 0 = .settling reportRow.claimed (.returned (.ok ())) [] { claimed := 1 } ∧
    reportRow.publish (seconds 31) ∈ s.rows ∧
    ∀ as t, ((outboxSystem some).restrict SettlesUnsettled).Run s as t →
      reportRow.publish (seconds 31) ∈ t.rows := by
  have hexec : ∃ s t : OutboxState RawPayload,
      Labelled.System.exec (outboxStep some) outboxStart
        (overlappingClaims ++ [.publish 0 (.ok ()), .publish 1 (.ok ())]) = some s ∧
      outboxStep some s (.settle 1) = some t ∧
      s.rows = [reportRow.lease (seconds 31) "relay-1"] ∧
      t.relays 0 = .settling reportRow.claimed (.returned (.ok ())) [] { claimed := 1 } ∧
      t.rows = [reportRow.publish (seconds 31)] := ⟨_, _, rfl, rfl, rfl, rfl, rfl⟩
  obtain ⟨s, t, hs, hst, hrows, hheld, hrows'⟩ := hexec
  have hrun : ((outboxSystem some).restrict SettlesUnsettled).Run outboxStart _ s :=
    (Labelled.System.Run.of_exec hs).restrict fun a ha s relay row verdict rest report he => by
      subst he
      simp [overlappingClaims] at ha
  have hC : SettlesUnsettled s (.settle 1) := by
    intro relay row verdict rest report _ _ r hr _
    rw [hrows, List.mem_singleton] at hr
    exact hr ▸ rfl
  have hreach : ((outboxSystem some).restrict SettlesUnsettled).Reachable t :=
    Labelled.System.Reachable.step ⟨outboxStart, _, ⟨rfl, rfl, fun _ => rfl⟩, hrun⟩ ⟨hst, hC⟩
  have hmem : reportRow.publish (seconds 31) ∈ t.rows := by
    rw [hrows']
    exact List.mem_singleton_self _
  exact ⟨t, hreach, hheld, hmem,
    fun as u hu => (settled_rows_frozen hreach).1 as u hu _ hmem rfl⟩

/-- The late outcome of relay 0 is recorded over the outcome of relay 1: a transient failure
changes the published row, and a success on the dead-lettered row violates the exclusivity
constraint and ends the pass with `Err`. -/
theorem settled_row_not_frozen :
    (∃ s t : OutboxState RawPayload, (outboxSystem some).Reachable s ∧
      (outboxSystem some).step s (.settle 0) t ∧
      ∃ r ∈ s.rows, r.publishedAt.isSome = true ∧ r ∉ t.rows ∧
        ∃ r' ∈ t.rows, r'.outboxId = r.outboxId ∧ r'.attempts = r.attempts + 1 ∧
          r'.lastError = some "publish_failed" ∧ r'.nextAttemptAt ≠ r.nextAttemptAt) ∧
    (∃ s t : OutboxState RawPayload, (outboxSystem some).Reachable s ∧
      (outboxSystem some).step s (.settle 0) t ∧ ErrBySettled s (.settle 0) t) := by
  constructor
  · obtain ⟨s, t, hs, hst, hrows, hrows'⟩ := exec_lateTransient
    refine ⟨s, t, reachable_of_exec hs, hst, reportRow.publish (seconds 31), ?_, rfl, ?_,
      (reportRow.publish (seconds 31)).backOff (seconds 31) "publish_failed", ?_, rfl, rfl, rfl,
      by decide⟩
    · rw [hrows, List.mem_singleton]
    · rw [hrows', List.mem_singleton]
      decide
    · rw [hrows', List.mem_singleton]
  · obtain ⟨s, t, hs, hst, hrows, hnow, hrelay, herr⟩ := exec_lateSuccess
    refine ⟨s, t, reachable_of_exec hs, hst, 0, _, _, _, _, rfl, hrelay, herr, ?_⟩
    rw [hrows, hnow]
    decide

end Extractor
