import Mathlib.Data.Int.Notation
import Mathlib.Logic.Function.Basic
import Extractor.Lib.System
import Extractor.NetworkWork

/-!
# The daily render budget

`consume_render_budget` of `crates/eventing/src/render.rs`: a transaction seeds the row of the
current day, unless there is one, and then increments it under a guard. The two are separate
statements at read committed, and any number of calls run at the same time: a statement waits
while another transaction holds the row that it would write, and decides on the row as it is
committed then. A call can be cut off at any point, and the answer of its commit can be lost.

## Main definitions

* `Budgets.Step`: one statement of one call.
* `Budgets.Inv`: what holds between the statements of all calls.

## Main results

* `Budgets.inv_step`: every statement preserves the invariant.
* `render_budget`: the counter, the counts that calls return, and the commands that they admit.
-/

namespace Extractor

namespace Budgets

/-- `i32::saturating_sub`. -/
def saturatingSub (a b : ℤ) : ℤ :=
  max (-2147483648) (min 2147483647 (a - b))

/-- The bound of the guarded increment: `i32::try_from`, less one. -/
def budgetCap (maxEscalationsPerDay : ℕ) : Except ConsumeError ℤ :=
  if maxEscalationsPerDay ≤ 2147483647 then .ok (saturatingSub maxEscalationsPerDay 1)
  else .error .invalidRunState

/-- How far a transaction is; after the update it knows the count that it returns, if any. -/
inductive Progress
  | begun
  | seeded
  | counted (consumed : Option ℕ)
  deriving DecidableEq

/-- An open transaction: its `current_date`, its progress, and the version of the row of this day
that it wrote. A written version is locked until the transaction ends. -/
structure Transaction where
  day : ℕ
  progress : Progress
  version : Option ℕ

/-- The committed rows of `render_budgets`, the open transactions, and what calls have returned,
last first. -/
structure State where
  rows : ℕ → Option ℕ
  transactions : ℕ → Option Transaction
  results : List (ℕ × RenderBudget)

/-- The statements, by the transaction that performs them. -/
inductive Label
  | begin (id day : ℕ)
  | insert (id : ℕ)
  | update (id : ℕ)
  /-- The commit; whether its answer arrives. -/
  | commit (id : ℕ) (answered : Bool)
  /-- The transaction is cut off and rolled back. -/
  | abort (id : ℕ)

/-- Another transaction holds the row of a day. -/
def State.Locked (s : State) (id day : ℕ) : Prop :=
  ∃ other t, other ≠ id ∧ s.transactions other = some t ∧ t.day = day ∧ t.version.isSome = true

/-- A transaction goes on. -/
def State.set (s : State) (id : ℕ) (t : Transaction) : State :=
  { s with transactions := Function.update s.transactions id (some t) }

/-- A transaction is over. -/
def State.close (s : State) (id : ℕ) : State :=
  { s with transactions := Function.update s.transactions id none }

/-- The result of a call. -/
def outcome (consumed : Option ℕ) : RenderBudget :=
  match consumed with
  | some count => .consumed count
  | none => .exhausted

/-- The versions of a transaction become the rows. -/
def State.write (s : State) (day : ℕ) (version : Option ℕ) : State :=
  match version with
  | some value => { s with rows := Function.update s.rows day (some value) }
  | none => s

/-- A call returns. -/
def State.answer (s : State) (day : ℕ) (consumed : Option ℕ) (answered : Bool) : State :=
  if answered then { s with results := (day, outcome consumed) :: s.results } else s

/-- One statement, where `cap` is the bound of the guard. -/
inductive Step (cap : ℤ) (s : State) : Label → State → Prop
  | begin {id day : ℕ} (hfree : s.transactions id = none) :
      Step cap s (.begin id day) (s.set id ⟨day, .begun, none⟩)
  /-- `on conflict do nothing`, for a committed row. -/
  | insertConflict {id day : ℕ} {version : Option ℕ}
      (h : s.transactions id = some ⟨day, .begun, version⟩) (hrow : s.rows day ≠ none) :
      Step cap s (.insert id) (s.set id ⟨day, .seeded, version⟩)
  /-- The seed; the uncommitted row of another transaction is waited for. -/
  | insertRow {id day : ℕ} {version : Option ℕ}
      (h : s.transactions id = some ⟨day, .begun, version⟩) (hrow : s.rows day = none)
      (hfree : ¬ s.Locked id day) : Step cap s (.insert id) (s.set id ⟨day, .seeded, some 0⟩)
  /-- The increment; a locked row is waited for, and the guard is evaluated again after that. -/
  | increment {id day count : ℕ} {version : Option ℕ}
      (h : s.transactions id = some ⟨day, .seeded, version⟩)
      (hrow : version.or (s.rows day) = some count) (hguard : (count : ℤ) ≤ cap)
      (hfree : ¬ s.Locked id day) :
      Step cap s (.update id) (s.set id ⟨day, .counted (some (count + 1)), some (count + 1)⟩)
  /-- No row passes the guard, and none is waited for. -/
  | skip {id day : ℕ} {version : Option ℕ} (h : s.transactions id = some ⟨day, .seeded, version⟩)
      (hguard : ∀ count, version.or (s.rows day) = some count → cap < (count : ℤ)) :
      Step cap s (.update id) (s.set id ⟨day, .counted none, version⟩)
  | commit {id day : ℕ} {consumed version : Option ℕ} {answered : Bool}
      (h : s.transactions id = some ⟨day, .counted consumed, version⟩) :
      Step cap s (.commit id answered)
        (((s.write day version).close id).answer day consumed answered)
  | abort {id : ℕ} : Step cap s (.abort id) (s.close id)

/-- **The calls of `consume_render_budget`** with one maximum, on a table that respects it. -/
def budgets (m : ℕ) : Labelled.System State Label where
  init s := (∀ day count, s.rows day = some count → count ≤ m) ∧
    (∀ id, s.transactions id = none) ∧ s.results = []
  step s a t := ∃ cap, budgetCap m = .ok cap ∧ Step cap s a t

/-- The counter of a day. -/
def State.counter (s : State) (day : ℕ) : ℕ := (s.rows day).getD 0

/-- The counts that calls have returned for a day. -/
def State.counts (s : State) (day : ℕ) : List ℕ :=
  s.results.filterMap fun result =>
    match result.2 with
    | .consumed count => if result.1 = day then some count else none
    | .exhausted => none

/-! ### The invariant -/

/-- What an open transaction knows about the committed row of its day. -/
def Transaction.Sound (m : ℕ) (row : Option ℕ) (t : Transaction) : Prop :=
  match t.progress, t.version with
  | .begun, version => version = none
  | .seeded, none => row ≠ none
  | .seeded, some value => row = none ∧ value = 0
  | .counted (some count), version =>
      version = some count ∧ count = row.getD 0 + 1 ∧ count ≤ m
  | .counted none, version => version = none ∧ row = some m

/-- What holds between the statements of all calls. -/
structure Inv (m : ℕ) (s : State) : Prop where
  bounded : ∀ day count, s.rows day = some count → count ≤ m
  alone : ∀ id id' t t', s.transactions id = some t → s.transactions id' = some t' →
    t.day = t'.day → t.version.isSome = true → t'.version.isSome = true → id = id'
  sound : ∀ id t, s.transactions id = some t → t.Sound m (s.rows t.day)
  distinct : ∀ day, (s.counts day).Nodup
  range : ∀ day, ∀ count ∈ s.counts day, 1 ≤ count ∧ count ≤ s.counter day

variable {m : ℕ} {s t : State}

/-- The counter of a day never exceeds the maximum. -/
theorem Inv.counter_le (h : Inv m s) (day : ℕ) : s.counter day ≤ m := by
  cases hrow : s.rows day with
  | none => simp [State.counter, hrow]
  | some count => simpa [State.counter, hrow] using h.bounded day count hrow

/-- A transaction goes on, alone where it holds the row. -/
theorem Inv.set (h : Inv m s) {id : ℕ} {t : Transaction} (hsound : t.Sound m (s.rows t.day))
    (halone : t.version.isSome = true → ¬ s.Locked id t.day) : Inv m (s.set id t) := by
  have hat : ∀ id' t', (s.set id t).transactions id' = some t' →
      id' = id ∧ t' = t ∨ id' ≠ id ∧ s.transactions id' = some t' := by
    intro id' t' hid
    change Function.update s.transactions id (some t) id' = some t' at hid
    by_cases heq : id' = id
    · subst heq
      rw [Function.update_self] at hid
      exact Or.inl ⟨rfl, (Option.some.inj hid).symm⟩
    · rw [Function.update_of_ne heq] at hid
      exact Or.inr ⟨heq, hid⟩
  refine ⟨h.bounded, ?_, ?_, h.distinct, h.range⟩
  · intro id₁ id₂ t₁ t₂ h₁ h₂ hday hver₁ hver₂
    rcases hat id₁ t₁ h₁ with ⟨rfl, rfl⟩ | ⟨hne₁, hold₁⟩
    · rcases hat id₂ t₂ h₂ with ⟨rfl, rfl⟩ | ⟨hne₂, hold₂⟩
      · rfl
      · exact absurd ⟨id₂, t₂, hne₂, hold₂, hday.symm, hver₂⟩ (halone hver₁)
    · rcases hat id₂ t₂ h₂ with ⟨rfl, rfl⟩ | ⟨hne₂, hold₂⟩
      · exact absurd ⟨id₁, t₁, hne₁, hold₁, hday, hver₁⟩ (halone hver₂)
      · exact h.alone id₁ id₂ t₁ t₂ hold₁ hold₂ hday hver₁ hver₂
  · intro id' t' hid
    rcases hat id' t' hid with ⟨rfl, rfl⟩ | ⟨-, hid⟩
    · exact hsound
    · exact h.sound id' t' hid

/-- Closing a transaction leaves the others open. -/
theorem transactions_close {id id' : ℕ} {t' : Transaction}
    (h : (s.close id).transactions id' = some t') : id' ≠ id ∧ s.transactions id' = some t' := by
  change Function.update s.transactions id none id' = some t' at h
  by_cases heq : id' = id
  · subst heq
    rw [Function.update_self] at h
    cases h
  · rw [Function.update_of_ne heq] at h
    exact ⟨heq, h⟩

/-- A transaction is rolled back. -/
theorem Inv.close (h : Inv m s) (id : ℕ) : Inv m (s.close id) := by
  refine ⟨h.bounded, ?_, ?_, h.distinct, h.range⟩
  · intro id₁ id₂ t₁ t₂ h₁ h₂
    exact h.alone id₁ id₂ t₁ t₂ (transactions_close h₁).2 (transactions_close h₂).2
  · intro id' t' hid
    exact h.sound id' t' (transactions_close hid).2

/-- A row is written: its counter is the new one, the others stay. -/
theorem counter_write (day count day' : ℕ) :
    (s.write day (some count)).counter day' = if day' = day then count else s.counter day' := by
  change (Function.update s.rows day (some count) day').getD 0 = _
  by_cases heq : day' = day
  · subst heq
    rw [Function.update_self, if_pos rfl, Option.getD_some]
  · rw [Function.update_of_ne heq, if_neg heq, State.counter]

/-- A transaction that holds the next count commits it. -/
theorem Inv.write (h : Inv m s) {id day count : ℕ}
    (ht : s.transactions id = some ⟨day, .counted (some count), some count⟩) :
    Inv m ((s.write day (some count)).close id) := by
  obtain ⟨-, hcount, hle⟩ : _ ∧ count = s.counter day + 1 ∧ count ≤ m := h.sound id _ ht
  refine ⟨?_, ?_, ?_, h.distinct, ?_⟩
  · intro day' count' hrow
    have hcounter := counter_write (s := s) day count day'
    rw [State.counter] at hcounter
    change (s.write day (some count)).rows day' = some count' at hrow
    rw [hrow, Option.getD_some] at hcounter
    have hother := h.counter_le day'
    split_ifs at hcounter <;> omega
  · intro id₁ id₂ t₁ t₂ h₁ h₂
    exact h.alone id₁ id₂ t₁ t₂ (transactions_close h₁).2 (transactions_close h₂).2
  · intro id' t' hid
    obtain ⟨hne, hid⟩ := transactions_close hid
    have hsound := h.sound id' t' hid
    change t'.Sound m (Function.update s.rows day (some count) t'.day)
    by_cases heq : t'.day = day
    · -- Another transaction of the day has written nothing, and so has not passed the guard.
      have hversion : t'.version = none := by
        by_contra hsome
        exact hne (h.alone id' id t' _ hid ht heq (Option.isSome_iff_ne_none.mpr hsome) rfl)
      rw [heq, Function.update_self]
      rw [heq] at hsound
      cases hprogress : t'.progress with
      | begun => simp [Transaction.Sound, hprogress, hversion]
      | seeded => simp [Transaction.Sound, hprogress, hversion]
      | counted consumed =>
          cases consumed with
          | some count' => simp [Transaction.Sound, hprogress, hversion] at hsound
          | none =>
              have hrow : s.rows day = some m := by
                simpa [Transaction.Sound, hprogress, hversion] using hsound
              rw [State.counter, hrow, Option.getD_some] at hcount
              omega
    · rwa [Function.update_of_ne heq]
  · intro day' count' hmem
    have hrange := h.range day' count' hmem
    have hcounter := counter_write (s := s) day count day'
    change 1 ≤ count' ∧ count' ≤ (s.write day (some count)).counter day'
    rw [hcounter]
    split_ifs with heq
    · subst heq
      omega
    · exact hrange

/-- The counts that calls have returned, after one more. -/
theorem counts_answer (day : ℕ) (consumed : Option ℕ) (answered : Bool) (day' : ℕ) :
    (s.answer day consumed answered).counts day' = s.counts day' ∨
      day' = day ∧ ∃ count, consumed = some count ∧
        (s.answer day consumed answered).counts day' = count :: s.counts day' := by
  cases answered with
  | false => exact Or.inl rfl
  | true =>
      cases consumed with
      | none => exact Or.inl rfl
      | some count =>
          by_cases heq : day = day'
          · refine Or.inr ⟨heq.symm, count, rfl, ?_⟩
            simp [State.answer, State.counts, outcome, heq]
          · exact Or.inl (by simp [State.answer, State.counts, outcome, heq])

/-- A call returns a count that is new and no more than the counter, or none. -/
theorem Inv.answer (h : Inv m s) {day : ℕ} {consumed : Option ℕ} {answered : Bool}
    (hnew : ∀ count, consumed = some count →
      count ∉ s.counts day ∧ 1 ≤ count ∧ count ≤ s.counter day) :
    Inv m (s.answer day consumed answered) := by
  have hrows : (s.answer day consumed answered).rows = s.rows := by
    cases answered <;> rfl
  have htransactions : (s.answer day consumed answered).transactions = s.transactions := by
    cases answered <;> rfl
  refine ⟨?_, ?_, ?_, ?_, ?_⟩
  · rw [hrows]
    exact h.bounded
  · rw [htransactions]
    exact h.alone
  · rw [hrows, htransactions]
    exact h.sound
  · intro day'
    rcases counts_answer (s := s) day consumed answered day' with heq | ⟨rfl, count, hsome, heq⟩
    · exact heq ▸ h.distinct day'
    · rw [heq]
      exact List.nodup_cons.mpr ⟨(hnew count hsome).1, h.distinct day'⟩
  · intro day' count' hmem
    rw [State.counter, hrows]
    rcases counts_answer (s := s) day consumed answered day' with heq | ⟨rfl, count, hsome, heq⟩
    · exact h.range day' count' (heq ▸ hmem)
    · rw [heq] at hmem
      rcases List.mem_cons.mp hmem with rfl | hmem
      · exact (hnew count' hsome).2
      · exact h.range day' count' hmem

/-- A maximum within the column. -/
theorem cap_eq {cap : ℤ} (h : budgetCap m = .ok cap) : cap = m - 1 := by
  rw [budgetCap] at h
  split_ifs at h with hle
  have hcap := Except.ok.inj h
  rw [saturatingSub] at hcap
  omega

/-- What a transaction finds at its end. -/
theorem Inv.commit (h : Inv m s) {id day : ℕ} {consumed version : Option ℕ} {answered : Bool}
    (ht : s.transactions id = some ⟨day, .counted consumed, version⟩) :
    Inv m (((s.write day version).close id).answer day consumed answered) := by
  cases consumed with
  | none =>
      obtain ⟨rfl, -⟩ : version = none ∧ _ := h.sound id _ ht
      exact (h.close id).answer fun count hsome => nomatch hsome
  | some count =>
      obtain ⟨rfl, hcount, -⟩ : version = some count ∧ count = s.counter day + 1 ∧ _ :=
        h.sound id _ ht
      refine (h.write ht).answer fun count' hsome => ?_
      obtain rfl : count = count' := Option.some.inj hsome
      have hcounter := counter_write (s := s) day count day
      rw [if_pos rfl] at hcounter
      refine ⟨fun hmem => ?_, by omega, hcounter.ge⟩
      have hle := (h.range day count hmem).2
      omega

/-- **Every statement preserves the invariant.** -/
theorem inv_step (hm : 1 ≤ m) {cap : ℤ} (hcap : budgetCap m = .ok cap) {a : Label}
    (h : Inv m s) (hst : Step cap s a t) : Inv m t := by
  have hbound := cap_eq hcap
  cases hst with
  | begin hfree => exact h.set rfl fun hversion => nomatch hversion
  | insertConflict ht hrow =>
      obtain rfl := (h.sound _ _ ht : _ = none)
      exact h.set hrow fun hversion => nomatch hversion
  | insertRow ht hrow hfree => exact h.set ⟨hrow, rfl⟩ fun _ => hfree
  | increment ht hrow hguard hfree =>
      rename_i id day count version
      have hcounter : count = (s.rows day).getD 0 := by
        cases version with
        | none => simp [show s.rows day = some count from hrow]
        | some value =>
            obtain ⟨hnone, rfl⟩ : s.rows day = none ∧ value = 0 := h.sound _ _ ht
            simpa [hnone] using hrow.symm
      refine h.set ⟨rfl, congrArg (· + 1) hcounter, ?_⟩ fun _ => hfree
      omega
  | skip ht hguard =>
      rename_i id day version
      -- The row that the guard refuses is committed, and full.
      cases version with
      | some value =>
          obtain ⟨-, rfl⟩ : _ ∧ value = 0 := h.sound _ _ ht
          have := hguard 0 rfl
          omega
      | none =>
          obtain ⟨count, hrow⟩ := Option.ne_none_iff_exists'.mp (h.sound _ _ ht : s.rows day ≠ none)
          have hlt := hguard count hrow
          have hle := h.bounded day count hrow
          obtain rfl : count = m := by omega
          exact h.set ⟨rfl, hrow⟩ fun hversion => nomatch hversion
  | commit ht => exact h.commit ht
  | abort => exact h.close _

/-- What holds of every reachable state. -/
theorem inv_reachable (hm : 1 ≤ m) (h : (budgets m).Reachable s) : Inv m s := by
  refine h.invariant ?_ fun s a t _ hinv ⟨cap, hcap, hst⟩ => inv_step hm hcap hinv hst
  rintro s ⟨hrows, htransactions, hresults⟩
  have hcounts : ∀ day, s.counts day = [] := fun day => by simp [State.counts, hresults]
  refine ⟨hrows, ?_, ?_, ?_, ?_⟩
  · intro id id' t t' ht
    rw [htransactions id] at ht
    cases ht
  · intro id t ht
    rw [htransactions id] at ht
    cases ht
  · intro day
    rw [hcounts day]
    exact List.nodup_nil
  · intro day count hmem
    rw [hcounts day] at hmem
    cases hmem

/-! ### What a statement does to the counter -/

/-- A call returns without touching the rows. -/
theorem counter_answer (day : ℕ) (consumed : Option ℕ) (answered : Bool) (day' : ℕ) :
    (s.answer day consumed answered).counter day' = s.counter day' := by
  cases answered <;> rfl

/-- The counter of a day never decreases. -/
theorem counter_le_step (h : Inv m s) {cap : ℤ} {a : Label} (hst : Step cap s a t) (day : ℕ) :
    s.counter day ≤ t.counter day := by
  cases hst with
  | commit ht =>
      rename_i id day' consumed version answered
      rw [counter_answer]
      change s.counter day ≤ (s.write day' version).counter day
      cases version with
      | none => exact Nat.le_refl _
      | some value =>
          rw [counter_write]
          split_ifs with heq
          · subst heq
            cases consumed with
            | none =>
                obtain ⟨hnone, -⟩ : some value = none ∧ _ := h.sound _ _ ht
                cases hnone
            | some count =>
                obtain ⟨hsome, hcount, -⟩ :
                  some value = some count ∧ count = s.counter day + 1 ∧ _ := h.sound _ _ ht
                have := Option.some.inj hsome
                omega
          · exact Nat.le_refl _
  | _ => exact Nat.le_refl _

/-- A call that returns `Exhausted` finds the counter at the maximum and leaves it there. -/
theorem counter_of_exhausted (h : Inv m s) {cap : ℤ} {a : Label} (hst : Step cap s a t) {day : ℕ}
    (hresults : t.results = (day, .exhausted) :: s.results) :
    s.counter day = m ∧ t.counter day = m := by
  cases hst with
  | commit ht =>
      rename_i id day' consumed version answered
      rw [counter_answer]
      change s.counter day = m ∧ (s.write day' version).counter day = m
      have hsame : (s.write day' version).results = s.results := by cases version <;> rfl
      cases answered with
      | false =>
          change (s.write day' version).results = _ at hresults
          rw [hsame] at hresults
          exact absurd hresults.symm (List.cons_ne_self _ _)
      | true =>
          change (day', outcome consumed) :: (s.write day' version).results = _ at hresults
          obtain ⟨hhead, -⟩ := List.cons.inj hresults
          cases consumed with
          | some count => cases hhead
          | none =>
              obtain rfl : day' = day := congrArg Prod.fst hhead
              obtain ⟨rfl, hrow⟩ : version = none ∧ s.rows day' = some m := h.sound _ _ ht
              have hcounter : s.counter day' = m := by rw [State.counter, hrow, Option.getD_some]
              exact ⟨hcounter, hcounter⟩
  | _ => exact absurd hresults.symm (List.cons_ne_self _ _)

end Budgets

/-! ### The commands that the budget admits -/

/-- A call of `consume_render_budget` with the configured maximum that returns `Consumed`. -/
def admits (config : ExtractorConfig) : Program.Exchange RunOp → Prop
  | ⟨.renderBudget maxEscalationsPerDay, answer⟩ =>
      maxEscalationsPerDay = config.render.maxEscalationsPerDay ∧
        ∃ count, answer = .ok (.consumed count)
  | _ => False

open Program in
/-- An escalation consumes a slot before it publishes a command. -/
theorem admitted_before_escalation {lib : PipelineLib} {config : ExtractorConfig}
    {run : QueuedRun} {fetched : FetchResult} :
    After (admits config) (fun x => isRender x = true)
      (spendBudgetAndEscalate lib config run fetched) := by
  have hprice : ∀ x : Exchange RunOp, isRender x = true → networkCost 0 1 0 x ≠ 0 := by
    rintro ⟨request, answer⟩ hx
    cases request <;> first | exact Nat.one_ne_zero | cases hx
  refine .call_bind (fun x hx => nomatch hx) fun budget => ?_
  match budget with
  | .ok (.consumed count) => exact Or.inl ⟨rfl, count, rfl⟩
  | .ok .exhausted => exact Or.inr (.of_costs hprice (.done rfl))
  | .error error => exact Or.inr (.of_costs hprice (.done rfl))

/-- Render commands have a price. -/
theorem networkCost_of_isRender {x : Program.Exchange RunOp} (hx : isRender x = true) :
    networkCost 0 1 1 x ≠ 0 := by
  obtain ⟨request, answer⟩ := x
  cases request <;> first | exact Nat.one_ne_zero | cases hx

open Program in
/-- A run consumes a slot before it publishes a command. -/
theorem admitted_before_render {lib : PipelineLib} {config : ExtractorConfig} {run : QueuedRun} :
    After (admits config) (fun x => isRender x = true) (processRun lib config run) :=
  after_processRun (fun _ => networkCost_of_isRender) fun _ => admitted_before_escalation

/-! ### The answers of the budget -/

/-- The answers that `consume_render_budget` can give: a maximum beyond `i32` is refused, and the
counts that it returns lie between one and the maximum. -/
def BudgetAnswer : Program.Exchange RunOp → Prop
  | ⟨.renderBudget maxEscalationsPerDay, answer⟩ => ∀ budget, answer = .ok budget →
      maxEscalationsPerDay < 2 ^ 31 ∧
        ∀ count, budget = .consumed count → 1 ≤ count ∧ count ≤ maxEscalationsPerDay
  | _ => True

/-- The calls on the table give no other answers. -/
theorem budgetAnswer_of_reachable {m day : ℕ} (hm : 1 ≤ m) {s : Budgets.State}
    {budget : RenderBudget} (h : (Budgets.budgets m).Reachable s)
    (hmem : (day, budget) ∈ s.results) : BudgetAnswer ⟨.renderBudget m, .ok budget⟩ := by
  have hinv := Budgets.inv_reachable hm h
  have hcap : s.results = [] ∨ m < 2 ^ 31 := by
    refine h.invariant (I := fun s => s.results = [] ∨ m < 2 ^ 31)
      (fun s hinit => Or.inl hinit.2.2) ?_
    rintro s a t - - ⟨cap, hcap, -⟩
    rw [Budgets.budgetCap] at hcap
    split at hcap
    · next hle => exact Or.inr (by omega)
    · cases hcap
  rintro _ ⟨⟩
  refine ⟨hcap.resolve_left (List.ne_nil_of_mem hmem), ?_⟩
  rintro count rfl
  have hcount : count ∈ s.counts day :=
    List.mem_filterMap.mpr ⟨(day, .consumed count), hmem, if_pos rfl⟩
  have hrange := hinv.range day count hcount
  exact ⟨hrange.1, hrange.2.trans (hinv.counter_le day)⟩

open Program in
/-- Where a slot is consumed before anything is rendered, the maximum can be consumed. -/
theorem spendable_of_render {α : Type} {q : Process α} {config : ExtractorConfig}
    (hq : After (admits config) (fun x => isRender x = true) q) {tr : Trace RunOp}
    {result : Except ProcessError α} (hexec : Exec q.run tr result)
    (hbudget : ∀ x ∈ tr, BudgetAnswer x) (hrenders : renders tr ≠ 0) :
    0 < config.render.maxEscalationsPerDay ∧ config.render.maxEscalationsPerDay < 2 ^ 31 := by
  obtain ⟨x, hx, hrender⟩ := List.countP_pos_iff.mp (Nat.pos_of_ne_zero hrenders)
  obtain ⟨pre, post, rfl⟩ := List.append_of_mem hx
  obtain ⟨⟨request, answer⟩, hmem, hadmits⟩ := hq _ result hexec pre x post rfl hrender
  cases request with
  | renderBudget maxEscalationsPerDay =>
      obtain ⟨rfl, count, hanswer⟩ := hadmits
      obtain ⟨hbound, hcount⟩ := hbudget _ (List.mem_append_left _ hmem) _ hanswer
      have := hcount count rfl
      exact ⟨by omega, hbound⟩
  | _ => cases hadmits

/-- **The daily render budget.** With a fixed maximum, in every interleaving of calls and aborts:
the counter of a day never exceeds the maximum and never decreases, the counts returned for a day
are pairwise distinct and between one and the maximum, and `Exhausted` is returned only where the
counter is at the maximum, which it stays at. Every render command of a run comes after a
`Consumed` of the same execution, and it is the only one. -/
theorem render_budget {m : ℕ} (hm : 1 ≤ m) :
    (∀ s, (Budgets.budgets m).Reachable s →
      (∀ day, s.counter day ≤ m ∧ (s.counts day).Nodup ∧
        ∀ count ∈ s.counts day, 1 ≤ count ∧ count ≤ m) ∧
      ∀ a t, (Budgets.budgets m).step s a t → ∀ day, s.counter day ≤ t.counter day ∧
        (t.results = (day, .exhausted) :: s.results → s.counter day = m ∧ t.counter day = m)) ∧
    ∀ (lib : PipelineLib) (config : ExtractorConfig) (run : QueuedRun)
      (tr : Program.Trace RunOp) (result : Except ProcessError Unit),
      Program.Exec (processRun lib config run).run tr result →
        ∀ pre x post, tr = pre ++ x :: post → isRender x = true →
          (∃ y ∈ pre, admits config y) ∧ renders pre = 0 ∧ renders post = 0 := by
  refine ⟨fun s hs => ?_, fun lib config run tr result hexec pre x post heq hx => ?_⟩
  · have hinv := Budgets.inv_reachable hm hs
    refine ⟨fun day => ⟨hinv.counter_le day, hinv.distinct day, fun count hmem => ?_⟩, ?_⟩
    · have hrange := hinv.range day count hmem
      exact ⟨hrange.1, hrange.2.trans (hinv.counter_le day)⟩
    · rintro a t ⟨cap, hcap, hst⟩ day
      exact ⟨Budgets.counter_le_step hinv hst day, Budgets.counter_of_exhausted hinv hst⟩
  · refine ⟨admitted_before_render tr result hexec pre x post heq hx, ?_⟩
    have hone : renders tr ≤ 1 := renders_le_one hexec
    have hsplit : renders tr = renders pre + (renders post + 1) := by
      rw [heq, renders_append]
      exact congrArg (renders pre + ·) (List.countP_cons_of_pos hx)
    omega

/-! ### The last slot of a day -/

namespace Budgets

/-- The table before the first render. -/
def unused : State := ⟨fun _ => none, fun _ => none, []⟩

/-- A row is free where no other transaction is open. -/
theorem not_locked {s : State} {id day : ℕ}
    (h : ∀ other, other ≠ id → s.transactions other = none) : ¬ s.Locked id day := by
  rintro ⟨other, t, hne, ht, -, -⟩
  rw [h other hne] at ht
  cases ht

/-- Two calls compete for one slot: the second starts while the first holds the row. -/
theorem reachable_lastSlot : ∃ s, (budgets 1).Reachable s ∧
    s.results = [(0, .exhausted), (0, .consumed 1)] := by
  have hcap : budgetCap 1 = .ok 0 := by decide
  have h₀ : (budgets 1).Reachable unused :=
    .init ⟨fun _ _ hrow => (nomatch hrow), fun _ => rfl, rfl⟩
  have h₁ := h₀.step (a := .begin 1 0) ⟨0, hcap, Step.begin rfl⟩
  have h₂ := h₁.step (a := .insert 1)
    ⟨0, hcap, @Step.insertRow 0 _ 1 0 none rfl rfl
      (not_locked fun other hne => Function.update_of_ne hne _ _)⟩
  have h₃ := h₂.step (a := .update 1)
    ⟨0, hcap, @Step.increment 0 _ 1 0 0 (some 0) rfl rfl (Int.le_refl 0)
      (not_locked fun other hne =>
        (Function.update_of_ne hne _ _).trans (Function.update_of_ne hne _ _))⟩
  have h₄ := h₃.step (a := .begin 2 0) ⟨0, hcap, Step.begin rfl⟩
  have h₅ := h₄.step (a := .commit 1 true)
    ⟨0, hcap, @Step.commit 0 _ 1 0 (some 1) (some 1) true rfl⟩
  have h₆ := h₅.step (a := .insert 2)
    ⟨0, hcap, @Step.insertConflict 0 _ 2 0 none rfl (Option.some_ne_none 1)⟩
  have h₇ := h₆.step (a := .update 2)
    ⟨0, hcap, @Step.skip 0 _ 2 0 none rfl fun count hrow => by
      obtain rfl : 1 = count := Option.some.inj hrow
      decide⟩
  have h₈ := h₇.step (a := .commit 2 true)
    ⟨0, hcap, @Step.commit 0 _ 2 0 none none true rfl⟩
  exact ⟨_, h₈, rfl⟩

end Budgets

theorem render_budget_lastSlot : ∃ s, (Budgets.budgets 1).Reachable s ∧
    s.results = [(0, .exhausted), (0, .consumed 1)] ∧ s.counter 0 ≤ 1 ∧ (s.counts 0).Nodup := by
  obtain ⟨s, hs, hresults⟩ := Budgets.reachable_lastSlot
  have hbudget := ((render_budget (Nat.le_refl 1)).1 s hs).1 0
  exact ⟨s, hs, hresults, hbudget.1, hbudget.2.1⟩

end Extractor
