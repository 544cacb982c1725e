import Extractor.RenderRequest

/-!
# Render replies over the shared consumer

What the shared consumer does to the replies. A request that pulls an event of another pending
request throws it away, and that request times out although its reply was published in time. The
design excludes this: one request is in flight at a time, since the worker loop is serial.

In every run whose requests are made one at a time no reply is lost on its way: what answers a
pending request is in the consumer or in the request's own batch, a request that has pulled its
reply returns it, and one that times out has left every reply of its own in the consumer.

## Main results

* `RenderInv`: where the replies of the pending requests are.
* `keepsReplies_of_serial`: requests one at a time take nothing of each other.
* `patience_run`: the steps a request needs at most only go down.
* `replies_kept`: what one request at a time can rely on.
-/

namespace Extractor

variable {lib : RenderLib} {s t : RenderState} {a : RenderLabel}

/-! ### Steps -/

@[simp] theorem RenderState.setCall_self (call : ℕ) (c : RenderCall) :
    (s.setCall call c).calls call = c :=
  Function.update_self ..

@[simp] theorem RenderState.setCall_of_ne {call other : ℕ} (c : RenderCall)
    (h : other ≠ call) : (s.setCall call c).calls other = s.calls other :=
  Function.update_of_ne h ..

/-- Everything that one step can do. -/
inductive RenderMove (lib : RenderLib) (s : RenderState) : RenderLabel → RenderState → Prop
  | tick (elapsed : ℕ) : RenderMove lib s (.tick elapsed) { s with now := s.now + elapsed }
  | request {call : ℕ} {command : RenderCommand} (hcall : s.calls call = .idle)
      (hfresh : command.renderId ∉ s.requested) :
      RenderMove lib s (.request call command)
        { s.setCall call (.connecting command) with
          requested := s.requested ++ [command.renderId] }
  | connect {call : ℕ} {command : RenderCommand} (hcall : s.calls call = .connecting command) :
      RenderMove lib s (.connect call) (s.setCall call
        (.polling command (s.now + command.budgets.totalTimeoutMs) s.now))
  | publish {message : RenderMessage} (hnames : ∀ id ∈ lib.names message, id ∈ s.requested) :
      RenderMove lib s (.publish message)
        { s with
          undelivered := s.undelivered ++ [⟨message, s.now⟩]
          published := s.published ++ [⟨message, s.now⟩] }
  | pull {call deadline wake : ℕ} {command : RenderCommand}
      (hcall : s.calls call = .polling command deadline wake) (hwake : wake ≤ s.now) :
      RenderMove lib s (.pull call)
        { s.setCall call (.reading command deadline (s.undelivered.take renderFetchBatch)) with
          undelivered := s.undelivered.drop renderFetchBatch }
  | found {call deadline : ℕ} {command : RenderCommand} {event : RenderEvent}
      {rest : List RenderEvent} {outcome : RenderOutcome}
      (hcall : s.calls call = .reading command deadline (event :: rest))
      (houtcome : lib.outcome command.renderId event.message = some outcome) :
      RenderMove lib s (.read call) (s.setCall call (.returned command deadline (.ok outcome)))
  | skip {call deadline : ℕ} {command : RenderCommand} {event : RenderEvent}
      {rest : List RenderEvent}
      (hcall : s.calls call = .reading command deadline (event :: rest))
      (houtcome : lib.outcome command.renderId event.message = none) :
      RenderMove lib s (.read call) (s.setCall call (.reading command deadline rest))
  | timeout {call deadline : ℕ} {command : RenderCommand}
      (hcall : s.calls call = .reading command deadline []) (hdeadline : deadline ≤ s.now) :
      RenderMove lib s (.check call)
        (s.setCall call (.returned command deadline (.error .timeout)))
  | retry {call deadline wake : ℕ} {command : RenderCommand}
      (hcall : s.calls call = .reading command deadline []) (hdeadline : s.now < deadline) :
      RenderMove lib s (.check call) (s.setCall call (.polling command deadline wake))

/-- The step function makes no other moves. -/
theorem renderMove_of_step (h : renderStep lib s a = some t) : RenderMove lib s a t := by
  cases a with
  | tick elapsed =>
      obtain rfl := Option.some.inj h
      exact .tick elapsed
  | request call command =>
      simp only [renderStep] at h
      split at h
      · next hcall =>
          split at h
          · cases h
          · next hfresh =>
              obtain rfl := Option.some.inj h
              exact .request hcall hfresh
      · cases h
  | connect call =>
      simp only [renderStep] at h
      split at h
      · next hcall =>
          obtain rfl := Option.some.inj h
          exact .connect hcall
      · cases h
  | publish message =>
      simp only [renderStep] at h
      split at h
      · next hnames =>
          obtain rfl := Option.some.inj h
          exact .publish hnames
      · cases h
  | pull call =>
      simp only [renderStep] at h
      split at h
      · next hcall =>
          split at h
          · next hwake =>
              obtain rfl := Option.some.inj h
              exact .pull hcall hwake
          · cases h
      · cases h
  | read call =>
      simp only [renderStep] at h
      split at h
      · next hcall =>
          obtain rfl := Option.some.inj h
          unfold readEvent
          split
          · next houtcome => exact .found hcall houtcome
          · next houtcome => exact .skip hcall houtcome
      · cases h
  | check call =>
      simp only [renderStep] at h
      split at h
      · next hcall =>
          obtain rfl := Option.some.inj h
          unfold checkDeadline
          split
          · next hdeadline => exact .timeout hcall hdeadline
          · next hdeadline => exact .retry hcall (Nat.not_le.mp hdeadline)
      · cases h

/-! ### The condition -/

/-- The event answers the render. -/
def RenderLib.Answers (lib : RenderLib) (renderId : Uuid) (event : RenderEvent) : Prop :=
  (lib.outcome renderId event.message).isSome = true

/-- No pending call but `call` waits for one of the events. -/
def RenderState.NotAwaited (lib : RenderLib) (s : RenderState) (call : ℕ)
    (events : List RenderEvent) : Prop :=
  ∀ event ∈ events, ∀ other, other ≠ call → ∀ id, (s.calls other).awaits = some id →
    ¬ lib.Answers id event

/-- A pull takes no event that another pending call waits for. -/
def RenderState.KeepsReplies (lib : RenderLib) (s : RenderState) : RenderLabel → Prop
  | .pull call => s.NotAwaited lib call (s.undelivered.take renderFetchBatch)
  | _ => True

/-- A call is made when no other is pending. -/
def RenderState.Serial (s : RenderState) : RenderLabel → Prop
  | .request _ _ => ∀ other, (s.calls other).awaits = none
  | _ => True

/-! ### The invariant -/

/-- Where the replies are. -/
structure RenderInv (lib : RenderLib) (s : RenderState) : Prop where
  /-- Events name renders that were requested. -/
  named : ∀ event ∈ s.published, ∀ id ∈ lib.names event.message, id ∈ s.requested
  /-- What the consumer holds was published. -/
  undelivered : ∀ event ∈ s.undelivered, event ∈ s.published
  /-- What a call has pulled was published. -/
  batch : ∀ call, ∀ event ∈ (s.calls call).batch, event ∈ s.published
  /-- The replies to a pending call are in the consumer or in its own batch. -/
  kept : ∀ call id, (s.calls call).awaits = some id → ∀ event ∈ s.published,
    lib.Answers id event → event ∈ s.undelivered ∨ event ∈ (s.calls call).batch
  /-- No call has pulled what another pending call waits for. -/
  others : ∀ call, s.NotAwaited lib call (s.calls call).batch
  /-- An answer that a call returned was published. -/
  answered : ∀ call command deadline outcome,
    s.calls call = .returned command deadline (.ok outcome) →
      ∃ event ∈ s.published, lib.outcome command.renderId event.message = some outcome

namespace RenderInv

/-- An event that answers a render names it. -/
theorem requested_of_answers (h : RenderInv lib s) {id : Uuid} {event : RenderEvent}
    (hevent : event ∈ s.published) (hanswers : lib.Answers id event) : id ∈ s.requested :=
  h.named event hevent id (lib.mem_names_of_outcome hanswers)

/-- A call moves on, with part of its batch: it keeps its replies while it is pending, and what
it returns is right. -/
theorem setCall (h : RenderInv lib s) {call : ℕ} {c : RenderCall}
    (hbatch : ∀ event ∈ c.batch, event ∈ (s.calls call).batch)
    (hawaits : ∀ id, c.awaits = some id → (s.calls call).awaits = some id ∧
      ∀ event ∈ (s.calls call).batch, lib.Answers id event → event ∈ c.batch)
    (hanswered : ∀ command deadline outcome, c = .returned command deadline (.ok outcome) →
      ∃ event ∈ s.published, lib.outcome command.renderId event.message = some outcome) :
    RenderInv lib (s.setCall call c) where
  named := h.named
  undelivered := h.undelivered
  batch := by
    intro other event hevent
    by_cases hother : other = call
    · subst hother
      rw [RenderState.setCall_self] at hevent
      exact h.batch other event (hbatch event hevent)
    · rw [RenderState.setCall_of_ne c hother] at hevent
      exact h.batch other event hevent
  kept := by
    intro other id hid event hevent hanswers
    by_cases hother : other = call
    · subst hother
      rw [RenderState.setCall_self] at hid ⊢
      obtain ⟨hpending, hrest⟩ := hawaits id hid
      exact (h.kept other id hpending event hevent hanswers).imp_right
        fun hmem => hrest event hmem hanswers
    · rw [RenderState.setCall_of_ne c hother] at hid ⊢
      exact h.kept other id hid event hevent hanswers
  others := by
    intro reader event hevent other hne id hid
    have hevent' : event ∈ (s.calls reader).batch := by
      by_cases hreader : reader = call
      · subst hreader
        rw [RenderState.setCall_self] at hevent
        exact hbatch event hevent
      · rwa [RenderState.setCall_of_ne c hreader] at hevent
    have hid' : (s.calls other).awaits = some id := by
      by_cases hother : other = call
      · subst hother
        rw [RenderState.setCall_self] at hid
        exact (hawaits id hid).1
      · rwa [RenderState.setCall_of_ne c hother] at hid
    exact h.others reader event hevent' other hne id hid'
  answered := by
    intro other command deadline outcome hreturned
    by_cases hother : other = call
    · subst hother
      rw [RenderState.setCall_self] at hreturned
      exact hanswered command deadline outcome hreturned
    · rw [RenderState.setCall_of_ne c hother] at hreturned
      exact h.answered other command deadline outcome hreturned

/-- Time passes. -/
theorem tick (h : RenderInv lib s) (elapsed : ℕ) :
    RenderInv lib { s with now := s.now + elapsed } where
  named := h.named
  undelivered := h.undelivered
  batch := h.batch
  kept := h.kept
  others := h.others
  answered := h.answered

/-- A new call has no reply yet: its identifier is fresh. -/
theorem request (h : RenderInv lib s) {call : ℕ} {command : RenderCommand}
    (hcall : s.calls call = .idle) (hfresh : command.renderId ∉ s.requested) :
    RenderInv lib { s.setCall call (.connecting command) with
      requested := s.requested ++ [command.renderId] } where
  named := fun event hevent id hid => List.mem_append_left _ (h.named event hevent id hid)
  undelivered := h.undelivered
  batch := by
    intro other event hevent
    by_cases hother : other = call
    · subst hother
      simp [RenderCall.batch] at hevent
    · simp only [RenderState.setCall_of_ne _ hother] at hevent
      exact h.batch other event hevent
  kept := by
    intro other id hid event hevent hanswers
    by_cases hother : other = call
    · subst hother
      obtain rfl : command.renderId = id := by simpa [RenderCall.awaits] using hid
      exact absurd (h.requested_of_answers hevent hanswers) hfresh
    · simp only [RenderState.setCall_of_ne _ hother] at hid ⊢
      exact h.kept other id hid event hevent hanswers
  others := by
    intro reader event hevent other hne id hid hanswers
    by_cases hreader : reader = call
    · subst hreader
      simp [RenderCall.batch] at hevent
    · simp only [RenderState.setCall_of_ne _ hreader] at hevent
      by_cases hother : other = call
      · subst hother
        obtain rfl : command.renderId = id := by simpa [RenderCall.awaits] using hid
        exact hfresh (h.requested_of_answers (h.batch reader event hevent) hanswers)
      · simp only [RenderState.setCall_of_ne _ hother] at hid
        exact h.others reader event hevent other hne id hid hanswers
  answered := by
    intro other command' deadline outcome hreturned
    by_cases hother : other = call
    · subst hother
      simp at hreturned
    · simp only [RenderState.setCall_of_ne _ hother] at hreturned
      exact h.answered other command' deadline outcome hreturned

/-- What is published is in the consumer. -/
theorem publish (h : RenderInv lib s) {message : RenderMessage}
    (hnames : ∀ id ∈ lib.names message, id ∈ s.requested) :
    RenderInv lib { s with
      undelivered := s.undelivered ++ [⟨message, s.now⟩]
      published := s.published ++ [⟨message, s.now⟩] } where
  named := by
    intro event hevent id hid
    rcases List.mem_append.mp hevent with hold | hnew
    · exact h.named event hold id hid
    · obtain rfl := List.mem_singleton.mp hnew
      exact hnames id hid
  undelivered := by
    intro event hevent
    rcases List.mem_append.mp hevent with hold | hnew
    · exact List.mem_append_left _ (h.undelivered event hold)
    · exact List.mem_append_right _ hnew
  batch := fun call event hevent => List.mem_append_left _ (h.batch call event hevent)
  kept := by
    intro call id hid event hevent hanswers
    rcases List.mem_append.mp hevent with hold | hnew
    · exact (h.kept call id hid event hold hanswers).imp_left (List.mem_append_left _)
    · exact Or.inl (List.mem_append_right _ hnew)
  others := h.others
  answered := by
    intro call command deadline outcome hreturned
    obtain ⟨event, hevent, houtcome⟩ := h.answered call command deadline outcome hreturned
    exact ⟨event, List.mem_append_left _ hevent, houtcome⟩

/-- A pull that takes no event of another pending call moves replies to the call they are for. -/
theorem pull (h : RenderInv lib s) {call deadline wake : ℕ} {command : RenderCommand}
    (hcall : s.calls call = .polling command deadline wake)
    (hkeeps : s.NotAwaited lib call (s.undelivered.take renderFetchBatch)) :
    RenderInv lib
      { s.setCall call (.reading command deadline (s.undelivered.take renderFetchBatch)) with
        undelivered := s.undelivered.drop renderFetchBatch } where
  named := h.named
  undelivered := fun event hevent => h.undelivered event (List.mem_of_mem_drop hevent)
  batch := by
    intro other event hevent
    by_cases hother : other = call
    · subst hother
      simp only [RenderState.setCall_self, RenderCall.batch] at hevent
      exact h.undelivered event (List.mem_of_mem_take hevent)
    · simp only [RenderState.setCall_of_ne _ hother] at hevent
      exact h.batch other event hevent
  kept := by
    intro other id hid event hevent hanswers
    -- an undelivered event is in the part that was taken or in the part that stays
    have hsplit : event ∈ s.undelivered →
        event ∈ s.undelivered.take renderFetchBatch ∨
          event ∈ s.undelivered.drop renderFetchBatch := by
      intro hmem
      rw [← List.take_append_drop renderFetchBatch s.undelivered] at hmem
      exact List.mem_append.mp hmem
    by_cases hother : other = call
    · subst hother
      simp only [RenderState.setCall_self, RenderCall.awaits, RenderCall.batch] at hid ⊢
      have hpending : (s.calls other).awaits = some id := by rw [hcall]; exact hid
      rcases h.kept other id hpending event hevent hanswers with hmem | hmem
      · exact (hsplit hmem).symm
      · rw [hcall] at hmem
        cases hmem
    · simp only [RenderState.setCall_of_ne _ hother] at hid ⊢
      rcases h.kept other id hid event hevent hanswers with hmem | hmem
      · rcases hsplit hmem with htaken | hleft
        · exact absurd hanswers (hkeeps event htaken other hother id hid)
        · exact Or.inl hleft
      · exact Or.inr hmem
  others := by
    intro reader event hevent other hne id hid
    have hid' : (s.calls other).awaits = some id := by
      by_cases hother : other = call
      · subst hother
        rw [hcall]
        simpa [RenderCall.awaits] using hid
      · simpa [RenderState.setCall_of_ne _ hother] using hid
    by_cases hreader : reader = call
    · subst hreader
      simp only [RenderState.setCall_self, RenderCall.batch] at hevent
      exact hkeeps event hevent other hne id hid'
    · simp only [RenderState.setCall_of_ne _ hreader] at hevent
      exact h.others reader event hevent other hne id hid'
  answered := by
    intro other command' deadline' outcome hreturned
    by_cases hother : other = call
    · subst hother
      simp at hreturned
    · simp only [RenderState.setCall_of_ne _ hother] at hreturned
      exact h.answered other command' deadline' outcome hreturned

/-- Every step that meets the condition preserves the invariant. -/
theorem step (h : RenderInv lib s) (hmove : RenderMove lib s a t)
    (hkeeps : s.KeepsReplies lib a) : RenderInv lib t := by
  cases hmove with
  | tick elapsed => exact h.tick elapsed
  | request hcall hfresh => exact h.request hcall hfresh
  | publish hnames => exact h.publish hnames
  | pull hcall hwake => exact h.pull hcall hkeeps
  | connect hcall =>
      refine h.setCall ?_ ?_ ?_
      · simp [RenderCall.batch]
      · intro id hid
        rw [hcall]
        exact ⟨hid, by simp [RenderCall.batch]⟩
      · simp
  | @found call deadline command event rest outcome hcall houtcome =>
      refine h.setCall ?_ ?_ ?_
      · simp [RenderCall.batch]
      · simp [RenderCall.awaits]
      · rintro _ _ _ ⟨⟩
        refine ⟨event, h.batch call event ?_, houtcome⟩
        simp [hcall, RenderCall.batch]
  | @skip call deadline command event rest hcall houtcome =>
      refine h.setCall ?_ ?_ ?_
      · intro e he
        rw [hcall]
        exact List.mem_cons_of_mem _ he
      · intro id hid
        rw [hcall]
        refine ⟨hid, ?_⟩
        intro e he hanswers
        obtain rfl : command.renderId = id := Option.some.inj hid
        rcases List.mem_cons.mp he with rfl | hrest
        · rw [RenderLib.Answers, houtcome] at hanswers
          cases hanswers
        · exact hrest
      · simp
  | timeout hcall hdeadline =>
      refine h.setCall ?_ ?_ ?_
      · simp [RenderCall.batch]
      · simp [RenderCall.awaits]
      · simp
  | retry hcall hdeadline =>
      refine h.setCall ?_ ?_ ?_
      · simp [RenderCall.batch]
      · intro id hid
        rw [hcall]
        exact ⟨hid, by simp [RenderCall.batch]⟩
      · simp

end RenderInv

/-- The invariant holds in every state that such runs reach. -/
theorem renderInv_of_reachable
    (h : ((renderSystem lib).restrict (RenderState.KeepsReplies lib)).Reachable s) :
    RenderInv lib s := by
  refine h.invariant ?_ ?_
  · rintro s ⟨hrequested, hundelivered, hpublished, hcalls⟩
    constructor <;>
      simp [hundelivered, hpublished, hcalls, RenderCall.batch, RenderState.NotAwaited]
  · intro s a t _ hinv hst
    exact hinv.step (renderMove_of_step hst.1) hst.2

/-! ### One request at a time -/

/-- No other call is pending. -/
def RenderState.Alone (s : RenderState) : Prop :=
  ∀ call id, (s.calls call).awaits = some id → ∀ other, other ≠ call →
    (s.calls other).awaits = none

/-- The consumer takes nothing of a pending call when there is only one. -/
theorem RenderState.Alone.notAwaited (h : s.Alone) {call : ℕ} {id : Uuid}
    (hid : (s.calls call).awaits = some id) (events : List RenderEvent) :
    s.NotAwaited lib call events := by
  intro event _ other hother id' hid'
  rw [h call id hid other hother] at hid'
  cases hid'

/-- A step that makes no call pending leaves a pending call alone. -/
theorem RenderState.Alone.of_pending (h : s.Alone)
    (hpending : ∀ call id, (t.calls call).awaits = some id →
      ∃ id', (s.calls call).awaits = some id') : t.Alone := by
  intro call id hid other hother
  obtain ⟨id', hid'⟩ := hpending call id hid
  cases hwaits : (t.calls other).awaits with
  | none => rfl
  | some own =>
      obtain ⟨own', hown'⟩ := hpending other own hwaits
      rw [h call id' hid' other hother] at hown'
      cases hown'

/-- A call that moves on was pending before. -/
theorem RenderState.awaits_setCall {call : ℕ} {c : RenderCall} {own : Uuid}
    (hown : (s.calls call).awaits = some own) {other : ℕ} {id : Uuid}
    (hid : ((s.setCall call c).calls other).awaits = some id) :
    ∃ id', (s.calls other).awaits = some id' := by
  by_cases hother : other = call
  · subst hother
    exact ⟨own, hown⟩
  · rw [RenderState.setCall_of_ne c hother] at hid
    exact ⟨id, hid⟩

/-- Calls that are made one at a time are pending one at a time. -/
theorem RenderState.Alone.step (h : s.Alone) (hmove : RenderMove lib s a t)
    (hserial : s.Serial a) : t.Alone := by
  cases hmove with
  | tick elapsed => exact h
  | publish hnames => exact h
  | @request caller command hcall hfresh =>
      intro call id hid other hother
      -- nobody was pending, so the pending call is the new one
      have hcaller : call = caller := by
        by_contra hne
        change ((s.setCall caller _).calls call).awaits = some id at hid
        rw [RenderState.setCall_of_ne _ hne, hserial call] at hid
        cases hid
      subst hcaller
      change ((s.setCall call _).calls other).awaits = none
      rw [RenderState.setCall_of_ne _ hother]
      exact hserial other
  | connect hcall | pull hcall | found hcall | skip hcall | timeout hcall | retry hcall =>
      exact h.of_pending fun _ _ hid => RenderState.awaits_setCall (by rw [hcall]; rfl) hid

/-- **Requests one at a time keep the replies**: their runs are runs whose pulls take nothing
that another pending call waits for. -/
theorem keepsReplies_of_serial (h : ((renderSystem lib).restrict RenderState.Serial).Reachable s) :
    ((renderSystem lib).restrict (RenderState.KeepsReplies lib)).Reachable s ∧ s.Alone := by
  refine h.invariant (I := fun s =>
    ((renderSystem lib).restrict (RenderState.KeepsReplies lib)).Reachable s ∧ s.Alone) ?_ ?_
  · rintro s ⟨hrequested, hundelivered, hpublished, hcalls⟩
    refine ⟨.init ⟨hrequested, hundelivered, hpublished, hcalls⟩, ?_⟩
    intro call id hid
    rw [hcalls call] at hid
    cases hid
  · rintro s a t - ⟨hkeeps, halone⟩ ⟨hst, hserial⟩
    have hmove := renderMove_of_step hst
    refine ⟨hkeeps.step ⟨hst, ?_⟩, halone.step hmove hserial⟩
    cases hmove with
    | pull hcall => exact halone.notAwaited (by rw [hcall]; rfl) _
    | tick | request | connect | publish | found | skip | timeout | retry => trivial

/-- The same of the runs that start in such a state. -/
theorem run_keepsReplies_of_serial {as : List RenderLabel}
    (h : ((renderSystem lib).restrict RenderState.Serial).Reachable s)
    (hrun : ((renderSystem lib).restrict RenderState.Serial).Run s as t) :
    ((renderSystem lib).restrict (RenderState.KeepsReplies lib)).Run s as t := by
  induction hrun with
  | nil => exact .nil _
  | @snoc t u as a hrun hst ih =>
      refine .snoc ih ⟨hst.1, ?_⟩
      have halone := (keepsReplies_of_serial (h.run hrun)).2
      cases renderMove_of_step hst.1 with
      | pull hcall => exact halone.notAwaited (by rw [hcall]; rfl) _
      | tick | request | connect | publish | found | skip | timeout | retry => trivial

/-! ### Progress -/

/-- The call that takes a step. -/
def RenderLabel.caller : RenderLabel → Option ℕ
  | .tick _ | .publish _ => none
  | .request call _ => some call
  | .connect call => some call
  | .pull call => some call
  | .read call => some call
  | .check call => some call

/-- How many of the events come before the first that answers the render. -/
def RenderLib.ahead (lib : RenderLib) (id : Uuid) (events : List RenderEvent) : ℕ :=
  events.findIdx fun event => (lib.outcome id event.message).isSome

/-- The steps of one pass of the loop: a pull, the reads and the check. -/
def renderPass : ℕ := renderFetchBatch + 2

/-- How many steps a call takes at most until it returns, once its reply is published. -/
def RenderLib.patience (lib : RenderLib) (undelivered : List RenderEvent) : RenderCall → ℕ
  | .idle | .returned _ _ _ => 0
  | .connecting command => renderPass * (lib.ahead command.renderId undelivered + 1) + 1
  | .polling command _ _ => renderPass * (lib.ahead command.renderId undelivered + 1)
  | .reading command _ batch =>
      if lib.ahead command.renderId batch < batch.length then batch.length
      else batch.length + 1 + renderPass * (lib.ahead command.renderId undelivered + 1)

namespace RenderLib

variable {id : Uuid} {events : List RenderEvent}

/-- The first answer comes within the events exactly when one of them is an answer. -/
theorem ahead_lt_length :
    lib.ahead id events < events.length ↔ ∃ event ∈ events, lib.Answers id event :=
  List.findIdx_lt_length

/-- Publishing more does not delay a reply that is there. -/
theorem ahead_append (h : ∃ event ∈ events, lib.Answers id event) (more : List RenderEvent) :
    lib.ahead id (events ++ more) = lib.ahead id events := by
  rw [ahead, List.findIdx_append]
  exact if_pos (ahead_lt_length.mpr h)

/-- A pull of events that do not answer the render brings its reply closer. -/
theorem ahead_drop {n : ℕ} (h : ¬ ∃ event ∈ events.take n, lib.Answers id event) :
    lib.ahead id events = lib.ahead id (events.drop n) + (events.take n).length := by
  have hnone : ¬ lib.ahead id (events.take n) < (events.take n).length :=
    fun hlt => h (ahead_lt_length.mp hlt)
  conv_lhs => rw [ahead, ← List.take_append_drop n events, List.findIdx_append]
  exact if_neg hnone

/-- A call that has not pulled its reply yet needs no more steps when the reply comes closer. -/
theorem patience_le {c : RenderCall} {undelivered undelivered' : List RenderEvent}
    (h : ∀ id, c.awaits = some id → (¬ ∃ event ∈ c.batch, lib.Answers id event) →
      lib.ahead id undelivered' ≤ lib.ahead id undelivered) :
    lib.patience undelivered' c ≤ lib.patience undelivered c := by
  have hpass : ∀ {m n : ℕ}, m ≤ n → renderPass * (m + 1) ≤ renderPass * (n + 1) :=
    fun hmn => Nat.mul_le_mul_left _ (Nat.succ_le_succ hmn)
  cases c with
  | idle => exact Nat.le_refl _
  | returned => exact Nat.le_refl _
  | connecting command => exact Nat.succ_le_succ (hpass (h _ rfl (by simp [RenderCall.batch])))
  | polling command deadline wake => exact hpass (h _ rfl (by simp [RenderCall.batch]))
  | reading command deadline batch =>
      simp only [patience]
      split
      · exact Nat.le_refl _
      · next hnone =>
          exact Nat.add_le_add_left (hpass (h _ rfl fun hex => hnone (ahead_lt_length.mpr hex))) _

end RenderLib

/-- A step of one call leaves the others where they are. -/
theorem RenderMove.calls_eq (hmove : RenderMove lib s a t) {call : ℕ}
    (hcaller : a.caller ≠ some call) : t.calls call = s.calls call := by
  have hne : ∀ {other : ℕ} {c : RenderCall}, some other ≠ some call →
      (s.setCall other c).calls call = s.calls call :=
    fun hother => RenderState.setCall_of_ne _ fun heq => hother (congrArg some heq.symm)
  cases hmove with
  | tick => rfl
  | publish => rfl
  | request => exact hne hcaller
  | connect => exact hne hcaller
  | pull => exact hne hcaller
  | found => exact hne hcaller
  | skip => exact hne hcaller
  | timeout => exact hne hcaller
  | retry => exact hne hcaller

/-- A step of another call, of the worker or of the clock does not make a pending call whose
reply is published wait longer. -/
theorem RenderInv.patience_other (h : RenderInv lib s) (hmove : RenderMove lib s a t)
    (hkeeps : s.KeepsReplies lib a) {call : ℕ} {id : Uuid}
    (hid : (s.calls call).awaits = some id)
    (hreply : ∃ event ∈ s.published, lib.Answers id event) (hcaller : a.caller ≠ some call) :
    lib.patience t.undelivered (t.calls call) ≤ lib.patience s.undelivered (s.calls call) := by
  rw [hmove.calls_eq hcaller]
  refine RenderLib.patience_le ?_
  intro id' hid' hnone
  obtain rfl : id = id' := Option.some.inj (hid.symm.trans hid')
  cases hmove with
  | publish hnames =>
      obtain ⟨event, hevent, hanswers⟩ := hreply
      -- the reply is not in the batch, so it is in the consumer
      rcases h.kept call id hid event hevent hanswers with hmem | hmem
      · exact Nat.le_of_eq (RenderLib.ahead_append ⟨event, hmem, hanswers⟩ _)
      · exact absurd ⟨event, hmem, hanswers⟩ hnone
  | pull hcall hwake =>
      have htake : ¬ ∃ event ∈ s.undelivered.take renderFetchBatch, lib.Answers id event := by
        rintro ⟨event, hevent, hanswers⟩
        exact hkeeps event hevent call (fun heq => hcaller (congrArg some heq.symm)) id hid
          hanswers
      rw [RenderLib.ahead_drop htake]
      exact Nat.le_add_right _ _
  | tick | request | connect | found | skip | timeout | retry => exact Nat.le_refl _

/-- The call has returned for the render. -/
def RenderState.Returned (s : RenderState) (call : ℕ) (id : Uuid) : Prop :=
  ∃ command deadline result, s.calls call = .returned command deadline result ∧
    command.renderId = id

/-- A pull from a consumer that holds a reply brings the call closer to its end. -/
theorem RenderLib.patience_pull {command : RenderCommand} {deadline wake : ℕ}
    {events : List RenderEvent} (h : ∃ event ∈ events, lib.Answers command.renderId event) :
    lib.patience (events.drop renderFetchBatch)
        (.reading command deadline (events.take renderFetchBatch)) + 1 ≤
      lib.patience events (.polling command deadline wake) := by
  have htaken : (events.take renderFetchBatch).length ≤ renderFetchBatch :=
    List.length_take_le ..
  simp only [RenderLib.patience]
  split
  · calc (events.take renderFetchBatch).length + 1
      _ ≤ renderPass * 1 := by rw [renderPass]; omega
      _ ≤ renderPass * (lib.ahead command.renderId events + 1) :=
          Nat.mul_le_mul_left _ (Nat.le_add_left 1 _)
  · next hnone =>
      have htake := fun hex => hnone (RenderLib.ahead_lt_length.mpr hex)
      -- the reply is beyond the batch, so the batch is a full one
      have hfull : (events.take renderFetchBatch).length = renderFetchBatch := by
        rw [List.length_take, Nat.min_eq_left]
        by_contra hshort
        rw [List.take_of_length_le (by omega)] at htake
        exact htake h
      rw [RenderLib.ahead_drop htake, hfull]
      simp only [renderPass, renderFetchBatch]
      omega

/-- A step of a pending call whose reply is published ends the call or brings it closer to its
end. -/
theorem RenderInv.patience_own (h : RenderInv lib s) (hmove : RenderMove lib s a t) {call : ℕ}
    {id : Uuid} (hid : (s.calls call).awaits = some id)
    (hreply : ∃ event ∈ s.published, lib.Answers id event) (hcaller : a.caller = some call) :
    t.Returned call id ∨ ((t.calls call).awaits = some id ∧
      lib.patience t.undelivered (t.calls call) + 1 ≤
        lib.patience s.undelivered (s.calls call)) := by
  obtain ⟨event, hevent, hanswers⟩ := hreply
  have hkept := h.kept call id hid event hevent hanswers
  cases hmove with
  | tick elapsed => cases hcaller
  | publish hnames => cases hcaller
  | request hcall hfresh =>
      obtain rfl := Option.some.inj hcaller
      rw [hcall] at hid
      cases hid
  | connect hcall =>
      obtain rfl := Option.some.inj hcaller
      rw [hcall] at hid
      refine Or.inr ⟨by rw [RenderState.setCall_self]; exact hid, ?_⟩
      rw [RenderState.setCall_self, hcall]
      exact Nat.le_refl _
  | @pull caller deadline wake command hcall hwake =>
      obtain rfl := Option.some.inj hcaller
      rw [hcall] at hid hkept
      obtain rfl : command.renderId = id := Option.some.inj hid
      refine Or.inr ⟨by simp [RenderCall.awaits], ?_⟩
      rw [RenderState.setCall_self, hcall]
      exact RenderLib.patience_pull ⟨event, hkept.resolve_right List.not_mem_nil, hanswers⟩
  | @found caller deadline command event' rest outcome hcall houtcome =>
      obtain rfl := Option.some.inj hcaller
      rw [hcall] at hid
      exact Or.inl ⟨command, deadline, .ok outcome, RenderState.setCall_self .., Option.some.inj hid⟩
  | @skip caller deadline command event' rest hcall houtcome =>
      obtain rfl := Option.some.inj hcaller
      rw [hcall] at hid
      refine Or.inr ⟨by rw [RenderState.setCall_self]; exact hid, ?_⟩
      rw [RenderState.setCall_self, hcall]
      have hahead : lib.ahead command.renderId (event' :: rest) =
          lib.ahead command.renderId rest + 1 := by
        simp [RenderLib.ahead, List.findIdx_cons, houtcome]
      simp only [RenderLib.patience, hahead, List.length_cons, Nat.add_lt_add_iff_right]
      split
      · exact Nat.le_refl _
      · rw [Nat.add_right_comm rest.length 1 1, Nat.add_right_comm]
        exact Nat.le_refl _
  | @timeout caller deadline command hcall hdeadline =>
      obtain rfl := Option.some.inj hcaller
      rw [hcall] at hid
      exact Or.inl ⟨command, deadline, _, RenderState.setCall_self .., Option.some.inj hid⟩
  | retry hcall hdeadline =>
      obtain rfl := Option.some.inj hcaller
      rw [hcall] at hid
      refine Or.inr ⟨by rw [RenderState.setCall_self]; exact hid, ?_⟩
      rw [RenderState.setCall_self, hcall]
      simp only [RenderLib.patience, List.length_nil, Nat.not_lt_zero, if_false, Nat.zero_add]
      rw [Nat.add_comm]
      exact Nat.le_refl _

/-- A call that has returned makes no more steps. -/
theorem RenderMove.calls_returned (hmove : RenderMove lib s a t) {call deadline : ℕ}
    {command : RenderCommand} {result : Except RenderRequestError RenderOutcome}
    (hcall : s.calls call = .returned command deadline result) :
    t.calls call = .returned command deadline result := by
  by_cases hcaller : a.caller = some call
  · cases hmove with
    | tick => cases hcaller
    | publish => cases hcaller
    | request hcall' | connect hcall' | pull hcall' | found hcall' | skip hcall' | timeout hcall'
    | retry hcall' =>
        obtain rfl := Option.some.inj hcaller
        rw [hcall] at hcall'
        cases hcall'
  · rw [hmove.calls_eq hcaller, hcall]

/-- A call that has returned has returned for good. -/
theorem RenderMove.returned (hmove : RenderMove lib s a t) {call : ℕ} {id : Uuid}
    (h : s.Returned call id) : t.Returned call id := by
  obtain ⟨command, deadline, result, hcall, hid⟩ := h
  exact ⟨command, deadline, result, hmove.calls_returned hcall, hid⟩

/-- What was published stays published. -/
theorem RenderMove.published (hmove : RenderMove lib s a t) {event : RenderEvent}
    (h : event ∈ s.published) : event ∈ t.published := by
  cases hmove with
  | publish => exact List.mem_append_left _ h
  | tick | request | connect | pull | found | skip | timeout | retry => exact h

/-- The steps that a call takes among the labels. -/
def callSteps (call : ℕ) (as : List RenderLabel) : ℕ :=
  as.countP fun a => a.caller = some call

/-- **Progress.** Along a run, a pending call whose reply is published returns, or uses up the
steps it needs at most, one with each step it takes. -/
theorem patience_run {as : List RenderLabel} {call : ℕ} {id : Uuid}
    (hs : ((renderSystem lib).restrict (RenderState.KeepsReplies lib)).Reachable s)
    (hrun : ((renderSystem lib).restrict (RenderState.KeepsReplies lib)).Run s as t)
    (hid : (s.calls call).awaits = some id)
    (hreply : ∃ event ∈ s.published, lib.Answers id event) :
    (∃ event ∈ t.published, lib.Answers id event) ∧
      (t.Returned call id ∨ ((t.calls call).awaits = some id ∧
        lib.patience t.undelivered (t.calls call) + callSteps call as ≤
          lib.patience s.undelivered (s.calls call))) := by
  induction hrun with
  | nil => exact ⟨hreply, Or.inr ⟨hid, Nat.le_refl _⟩⟩
  | @snoc t u as a hrun hst ih =>
      obtain ⟨hreply', hstate⟩ := ih
      have hmove := renderMove_of_step hst.1
      refine ⟨?_, ?_⟩
      · obtain ⟨event, hevent, hanswers⟩ := hreply'
        exact ⟨event, hmove.published hevent, hanswers⟩
      rcases hstate with hreturned | ⟨hid', hle⟩
      · exact Or.inl (hmove.returned hreturned)
      have hinv := renderInv_of_reachable (hs.run hrun)
      rw [callSteps, List.countP_append, ← callSteps]
      by_cases hcaller : a.caller = some call
      · rcases hinv.patience_own hmove hid' hreply' hcaller with hreturned | ⟨hid'', hstep⟩
        · exact Or.inl hreturned
        · refine Or.inr ⟨hid'', ?_⟩
          simp only [hcaller, decide_true, List.countP_singleton, if_true]
          omega
      · have hstep := hinv.patience_other hmove hst.2 hid' hreply' hcaller
        refine Or.inr ⟨by rw [hmove.calls_eq hcaller]; exact hid', ?_⟩
        simp only [hcaller, decide_false, List.countP_singleton, Bool.false_eq_true, if_false]
        omega

/-! ### A call that has its reply -/

/-- The call reads a batch that answers the render. -/
def RenderState.Holds (lib : RenderLib) (s : RenderState) (call : ℕ) (id : Uuid) : Prop :=
  (s.calls call).awaits = some id ∧ ∃ event ∈ (s.calls call).batch, lib.Answers id event

/-- The call has returned an event that answers its render. -/
def RenderState.Answered (lib : RenderLib) (s : RenderState) (call : ℕ) (id : Uuid) : Prop :=
  ∃ command deadline outcome, s.calls call = .returned command deadline (.ok outcome) ∧
    command.renderId = id ∧
      ∃ event ∈ s.published, lib.outcome id event.message = some outcome

/-- What a call has returned stays. -/
theorem RenderState.Answered.step {call : ℕ} {id : Uuid} (h : s.Answered lib call id)
    (hmove : RenderMove lib s a t) : t.Answered lib call id := by
  obtain ⟨command, deadline, outcome, hcall, hid, event, hevent, houtcome⟩ := h
  exact ⟨command, deadline, outcome, hmove.calls_returned hcall, hid, event,
    hmove.published hevent, houtcome⟩

/-- A step of a call that has its reply returns it or brings it closer. -/
theorem RenderInv.holds_own (h : RenderInv lib s) (hmove : RenderMove lib s a t) {call : ℕ}
    {id : Uuid} (hholds : s.Holds lib call id) (hcaller : a.caller = some call) :
    t.Answered lib call id ∨
      (t.Holds lib call id ∧ (t.calls call).batch.length + 1 = (s.calls call).batch.length) := by
  obtain ⟨hid, event, hevent, hanswers⟩ := hholds
  cases hmove with
  | tick => cases hcaller
  | publish => cases hcaller
  | request hcall | connect hcall | pull hcall | timeout hcall | retry hcall =>
      obtain rfl := Option.some.inj hcaller
      rw [hcall] at hevent
      cases hevent
  | @found caller deadline command head rest outcome hcall houtcome =>
      obtain rfl := Option.some.inj hcaller
      rw [hcall] at hid
      obtain rfl : command.renderId = id := Option.some.inj hid
      refine Or.inl ⟨command, deadline, outcome, RenderState.setCall_self .., rfl, head, ?_,
        houtcome⟩
      exact h.batch caller head (by rw [hcall]; exact List.mem_cons_self)
  | @skip caller deadline command head rest hcall houtcome =>
      obtain rfl := Option.some.inj hcaller
      rw [hcall] at hid hevent
      obtain rfl : command.renderId = id := Option.some.inj hid
      refine Or.inr ⟨⟨by rw [RenderState.setCall_self]; rfl, event, ?_, hanswers⟩, ?_⟩
      · rw [RenderState.setCall_self]
        rcases List.mem_cons.mp hevent with rfl | hrest
        · rw [RenderLib.Answers, houtcome] at hanswers
          cases hanswers
        · exact hrest
      · rw [RenderState.setCall_self, hcall]
        rfl

/-- **A call that has its reply returns it**: along every run it has returned an event of its
own, or reads on, one event with each step. -/
theorem holds_run {as : List RenderLabel} {call : ℕ} {id : Uuid}
    (hs : ((renderSystem lib).restrict (RenderState.KeepsReplies lib)).Reachable s)
    (hrun : ((renderSystem lib).restrict (RenderState.KeepsReplies lib)).Run s as t)
    (hholds : s.Holds lib call id) :
    t.Answered lib call id ∨ (t.Holds lib call id ∧
      (t.calls call).batch.length + callSteps call as = (s.calls call).batch.length) := by
  induction hrun with
  | nil => exact Or.inr ⟨hholds, rfl⟩
  | @snoc t u as a hrun hst ih =>
      have hmove := renderMove_of_step hst.1
      rcases ih with hanswered | ⟨hholds', hlength⟩
      · exact Or.inl (hanswered.step hmove)
      rw [callSteps, List.countP_append, ← callSteps]
      by_cases hcaller : a.caller = some call
      · have hinv := renderInv_of_reachable (hs.run hrun)
        rcases hinv.holds_own hmove hholds' hcaller with hanswered | ⟨hholds'', hstep⟩
        · exact Or.inl hanswered
        · refine Or.inr ⟨hholds'', ?_⟩
          simp only [hcaller, decide_true, List.countP_singleton, if_true]
          omega
      · refine Or.inr ⟨?_, ?_⟩
        · rw [RenderState.Holds, hmove.calls_eq hcaller]
          exact hholds'
        · rw [hmove.calls_eq hcaller]
          simpa only [hcaller, decide_false, List.countP_singleton, Bool.false_eq_true, if_false,
            Nat.add_zero] using hlength

/-- A call that pulls one of its replies has it. -/
theorem RenderMove.holds_pull {call : ℕ} (hmove : RenderMove lib s (.pull call) t) {id : Uuid}
    (hid : (s.calls call).awaits = some id)
    (htake : ∃ event ∈ s.undelivered.take renderFetchBatch, lib.Answers id event) :
    t.Holds lib call id ∧ (t.calls call).batch.length ≤ renderFetchBatch := by
  cases hmove with
  | @pull _ deadline wake command hcall hwake =>
      rw [hcall] at hid
      change (((s.setCall call _).calls call).awaits = some id ∧
        ∃ event ∈ ((s.setCall call _).calls call).batch, _) ∧
          ((s.setCall call _).calls call).batch.length ≤ _
      rw [RenderState.setCall_self]
      exact ⟨⟨hid, htake⟩, List.length_take_le ..⟩

/-- A call that gives up has left its replies in the consumer. -/
theorem RenderInv.left_of_timeout (h : RenderInv lib s) {call deadline : ℕ}
    {command : RenderCommand} {error : RenderRequestError}
    (hmove : RenderMove lib s (.check call) t)
    (hcall : t.calls call = .returned command deadline (.error error)) :
    deadline ≤ s.now ∧ ∀ event ∈ s.published, lib.Answers command.renderId event →
      event ∈ s.undelivered := by
  cases hmove with
  | retry hreading =>
      rw [RenderState.setCall_self] at hcall
      cases hcall
  | timeout hreading hdeadline =>
      rw [RenderState.setCall_self] at hcall
      cases hcall
      refine ⟨hdeadline, ?_⟩
      intro event hevent hanswers
      have hpending : (s.calls call).awaits = some command.renderId := by rw [hreading]; rfl
      rcases h.kept call _ hpending event hevent hanswers with hmem | hmem
      · exact hmem
      · rw [hreading] at hmem
        cases hmem

/-! ### The replies -/

/-- What a step throws away comes from the batch of the call that takes it. -/
theorem mem_batch_of_mem_discards {event : RenderEvent} (h : event ∈ s.discards lib a) :
    ∃ call, a.caller = some call ∧ event ∈ (s.calls call).batch := by
  cases a with
  | read call =>
      refine ⟨call, rfl, ?_⟩
      simp only [RenderState.discards] at h
      split at h
      · next head rest hcall =>
          rw [hcall]
          split at h
          · exact List.mem_cons_of_mem _ h
          · rw [List.mem_singleton.mp h]
            exact List.mem_cons_self
      · cases h
  | tick | request | connect | publish | pull | check => cases h

/-- **Replies are kept.** In every run whose calls are made one at a time, in whatever batches
they pull and in whatever order the events are published: no step throws away what another
pending call waits for; what answers a pending call is in the consumer or in its own batch; what
a call returned was published for it; a call that pulls while a reply of its own is among the
first that the consumer holds has returned one once it has taken as many steps as a batch has
events, and never times out; a call that gives up does so after its deadline, with every reply
of its own still in the consumer; and a pending call whose reply is published has returned once
it has taken more than `patience` steps. -/
theorem replies_kept (h : ((renderSystem lib).restrict RenderState.Serial).Reachable s) :
    (∀ a event, event ∈ s.discards lib a → ∀ call id, a.caller ≠ some call →
      (s.calls call).awaits = some id → ¬ lib.Answers id event) ∧
    (∀ call id, (s.calls call).awaits = some id → ∀ event ∈ s.published,
      lib.Answers id event → event ∈ s.undelivered ∨ event ∈ (s.calls call).batch) ∧
    (∀ call command deadline outcome, s.calls call = .returned command deadline (.ok outcome) →
      ∃ event ∈ s.published, lib.outcome command.renderId event.message = some outcome) ∧
    (∀ call id t, (renderSystem lib).step s (.pull call) t → (s.calls call).awaits = some id →
      (∃ event ∈ s.undelivered.take renderFetchBatch, lib.Answers id event) → ∀ as u,
      ((renderSystem lib).restrict RenderState.Serial).Run t as u →
      u.Answered lib call id ∨
        ((u.calls call).awaits = some id ∧ callSteps call as < renderFetchBatch)) ∧
    (∀ call t command deadline error, (renderSystem lib).step s (.check call) t →
      t.calls call = .returned command deadline (.error error) →
      deadline ≤ s.now ∧ ∀ event ∈ s.published, lib.Answers command.renderId event →
        event ∈ s.undelivered) ∧
    (∀ call id, (s.calls call).awaits = some id →
      (∃ event ∈ s.published, lib.Answers id event) → ∀ as t,
      ((renderSystem lib).restrict RenderState.Serial).Run s as t →
      lib.patience s.undelivered (s.calls call) < callSteps call as → t.Returned call id) := by
  have hkeeps := (keepsReplies_of_serial h).1
  have hinv := renderInv_of_reachable hkeeps
  refine ⟨?_, hinv.kept, hinv.answered, ?_, ?_, ?_⟩
  · intro a event hevent call id hcaller hid
    obtain ⟨reader, hreader, hmem⟩ := mem_batch_of_mem_discards hevent
    refine hinv.others reader event hmem call ?_ id hid
    rintro rfl
    exact hcaller hreader
  · intro call id t hst hid htake as u hrun
    obtain ⟨hholds, hlength⟩ := (renderMove_of_step hst).holds_pull hid htake
    have ht : ((renderSystem lib).restrict RenderState.Serial).Reachable t :=
      h.step (a := .pull call) ⟨hst, trivial⟩
    have hrun' := run_keepsReplies_of_serial ht hrun
    rcases holds_run (keepsReplies_of_serial ht).1 hrun' hholds with hanswered | ⟨hholds', hle⟩
    · exact Or.inl hanswered
    · obtain ⟨hid', event, hevent, -⟩ := hholds'
      have hpos := List.length_pos_of_mem hevent
      exact Or.inr ⟨hid', by omega⟩
  · intro call t command deadline error hst hcall
    exact hinv.left_of_timeout (renderMove_of_step hst) hcall
  · intro call id hid hreply as t hrun hsteps
    rcases (patience_run hkeeps (run_keepsReplies_of_serial h hrun) hid hreply).2 with
      hreturned | ⟨-, hle⟩
    · exact hreturned
    · omega

/-! ### Two requests -/

/-- A failure as the worker publishes it. -/
def exampleRenderFailure (id : String) : RenderMessage where
  subject := renderFailedSubject
  payload := String.toUTF8 ("\x7b\"render_id\":\"00000000-0000-0000-0000-00000000000" ++ id ++
    "\",\"class\":\"size_limit\"\x7d") |>.toList

/-- The failure of render 0. -/
def lateReply : RenderMessage := exampleRenderFailure "0"

/-- The failure of render 1. -/
def exampleReply : RenderMessage := exampleRenderFailure "1"

/-- The decoding of these two messages. -/
def exampleRenderLib : RenderLib where
  completed := fun _ => none
  failed := fun payload =>
    if payload = lateReply.payload then some ⟨0, .sizeLimit⟩
    else if payload = exampleReply.payload then some ⟨1, .sizeLimit⟩
    else none

/-- A request with the default budgets. -/
def exampleRender (id : Uuid) : RenderCommand :=
  ⟨id, 2, "c", 3, "https://a.example/", ⟨30000, 45000, 1048576⟩⟩

/-- Before the first request. -/
def exampleRenderStart : RenderState := ⟨0, [], [], [], fun _ => .idle⟩

theorem exampleRenderLib_failed_late :
    exampleRenderLib.failed lateReply.payload = some ⟨0, .sizeLimit⟩ :=
  if_pos rfl

theorem exampleRenderLib_failed :
    exampleRenderLib.failed exampleReply.payload = some ⟨1, .sizeLimit⟩ := by
  have hne : exampleReply.payload ≠ lateReply.payload := by decide +kernel
  exact (if_neg hne).trans (if_pos rfl)

/-- The render that a failure names. -/
theorem exampleRenderFailure_names {id : String} {own : Uuid}
    (h : exampleRenderLib.failed (exampleRenderFailure id).payload = some ⟨own, .sizeLimit⟩) :
    exampleRenderLib.names (exampleRenderFailure id) = [own] := by
  have hfailure : exampleRenderLib.failure (exampleRenderFailure id) = some ⟨own, .sizeLimit⟩ :=
    (if_pos rfl).trans h
  rw [RenderLib.names, hfailure]
  rfl

/-- Who a failure answers. -/
theorem exampleRenderFailure_outcome {id : String} {own : Uuid}
    (h : exampleRenderLib.failed (exampleRenderFailure id).payload = some ⟨own, .sizeLimit⟩)
    (renderId : Uuid) : exampleRenderLib.outcome renderId (exampleRenderFailure id) =
      if renderId = own then some (.failed ⟨own, .sizeLimit⟩) else none := by
  have hfailure : exampleRenderLib.failure (exampleRenderFailure id) = some ⟨own, .sizeLimit⟩ :=
    (if_pos rfl).trans h
  have hcompletion : exampleRenderLib.completion (exampleRenderFailure id) = none :=
    if_neg (show renderFailedSubject ≠ renderCompletedSubject by decide)
  rw [RenderLib.outcome, hcompletion, hfailure]
  by_cases hid : renderId = own
  · simp [hid]
  · simp [hid, Ne.symm hid]

@[simp] theorem exampleRenderLib_names_late : exampleRenderLib.names lateReply = [0] :=
  exampleRenderFailure_names exampleRenderLib_failed_late

@[simp] theorem exampleRenderLib_names : exampleRenderLib.names exampleReply = [1] :=
  exampleRenderFailure_names exampleRenderLib_failed

@[simp] theorem exampleRenderLib_outcome_late (id : Uuid) :
    exampleRenderLib.outcome id lateReply =
      if id = 0 then some (.failed ⟨0, .sizeLimit⟩) else none :=
  exampleRenderFailure_outcome exampleRenderLib_failed_late id

@[simp] theorem exampleRenderLib_outcome (id : Uuid) :
    exampleRenderLib.outcome id exampleReply =
      if id = 1 then some (.failed ⟨1, .sizeLimit⟩) else none :=
  exampleRenderFailure_outcome exampleRenderLib_failed id

theorem exampleRenderStart_reachable : (renderSystem exampleRenderLib).Reachable
    exampleRenderStart :=
  .init ⟨rfl, rfl, rfl, fun _ => rfl⟩

/-- A request while no other is pending, and what follows until the next. -/
theorem reachable_serial (call : ℕ) (command : RenderCommand) (as : List RenderLabel)
    (h : ((renderSystem lib).restrict RenderState.Serial).Reachable s)
    (hserial : s.Serial (.request call command))
    (hexec : Labelled.System.exec (renderStep lib) s (.request call command :: as) = some t)
    (hrequests : ∀ a ∈ as, ∀ call command, a ≠ .request call command) :
    ((renderSystem lib).restrict RenderState.Serial).Reachable t := by
  obtain ⟨u, hrequest, hexec⟩ := Option.bind_eq_some_iff.mp hexec
  have hu : ((renderSystem lib).restrict RenderState.Serial).Reachable u :=
    h.step (a := .request call command) ⟨hrequest, hserial⟩
  refine hu.run (Labelled.System.Run.restrict (.of_exec hexec) ?_)
  intro a ha s
  cases a with
  | request call command => exact absurd rfl (hrequests _ ha call command)
  | tick | connect | publish | pull | read | check => trivial

/-- Request 0 has timed out, and its reply has come too late: it lies in the consumer. -/
def exampleRenderLate : RenderState where
  now := 45000
  requested := [0]
  undelivered := [⟨lateReply, 45000⟩]
  published := [⟨lateReply, 45000⟩]
  calls := Function.update (fun _ => .idle) 0
    (.returned (exampleRender 0) 45000 (.error .timeout))

/-- Request 1 is made, and its reply comes behind the late one. -/
def exampleRenderBehind : RenderState where
  now := 45000
  requested := [0, 1]
  undelivered := [⟨lateReply, 45000⟩, ⟨exampleReply, 45000⟩]
  published := [⟨lateReply, 45000⟩, ⟨exampleReply, 45000⟩]
  calls := Function.update exampleRenderLate.calls 1 (.polling (exampleRender 1) 90000 45000)

theorem exampleRenderStart_serial : ((renderSystem exampleRenderLib).restrict
    RenderState.Serial).Reachable exampleRenderStart :=
  .init ⟨rfl, rfl, rfl, fun _ => rfl⟩

theorem exampleRenderLate_reachable :
    ((renderSystem exampleRenderLib).restrict RenderState.Serial).Reachable
      exampleRenderLate := by
  refine reachable_serial 0 (exampleRender 0)
    [.connect 0, .pull 0, .tick 45000, .check 0, .publish lateReply] exampleRenderStart_serial
    (fun _ => rfl) ?_ (by simp)
  simp [Labelled.System.exec, renderStep, RenderState.setCall, exampleRenderStart,
    exampleRender, checkDeadline, exampleRenderLate]

theorem exampleRenderBehind_reachable :
    ((renderSystem exampleRenderLib).restrict RenderState.Serial).Reachable
      exampleRenderBehind := by
  refine reachable_serial 1 (exampleRender 1) [.connect 1, .publish exampleReply]
    exampleRenderLate_reachable ?_ ?_ (by simp)
  · intro other
    by_cases hother : other = 0 <;> simp [exampleRenderLate, RenderCall.awaits, hother]
  · simp [Labelled.System.exec, renderStep, RenderState.setCall, exampleRenderLate,
      exampleRender, exampleRenderBehind]

/-- Request 1 pulls the late reply of request 0 with its own, and returns its own. -/
theorem replies_kept_late :
    ∃ u, ((renderSystem exampleRenderLib).restrict RenderState.Serial).Reachable u ∧
      u.calls 0 = .returned (exampleRender 0) 45000 (.error .timeout) ∧
      u.Answered exampleRenderLib 1 1 := by
  let pulled : RenderState :=
    { exampleRenderBehind.setCall 1 (.reading (exampleRender 1) 90000
        [⟨lateReply, 45000⟩, ⟨exampleReply, 45000⟩]) with undelivered := [] }
  let returned := exampleRenderBehind.setCall 1
    (.returned (exampleRender 1) 90000 (.ok (.failed ⟨1, .sizeLimit⟩)))
  have hpull : (renderSystem exampleRenderLib).step exampleRenderBehind (.pull 1) pulled := by
    simp [renderSystem, Labelled.System.ofStep, renderStep, exampleRenderBehind, pulled,
      RenderState.setCall, renderFetchBatch]
  have hread : Labelled.System.exec (renderStep exampleRenderLib) pulled [.read 1, .read 1] =
      some { returned with undelivered := [] } := by
    simp [Labelled.System.exec, renderStep, readEvent, exampleRenderBehind, pulled, returned,
      RenderState.setCall, exampleRender]
  have hrun : ((renderSystem exampleRenderLib).restrict RenderState.Serial).Run pulled
      [.read 1, .read 1] { returned with undelivered := [] } :=
    Labelled.System.Run.restrict (.of_exec hread) (by simp [RenderState.Serial])
  have hkept := (replies_kept exampleRenderBehind_reachable).2.2.2.1 1 1 pulled hpull
    (by simp [exampleRenderBehind, RenderCall.awaits, exampleRender])
    ⟨⟨exampleReply, 45000⟩, by simp [exampleRenderBehind, renderFetchBatch],
      by simp [RenderLib.Answers]⟩ _ _ hrun
  have hpulled : ((renderSystem exampleRenderLib).restrict RenderState.Serial).Reachable pulled :=
    exampleRenderBehind_reachable.step (a := .pull 1) ⟨hpull, trivial⟩
  refine ⟨_, hpulled.run hrun, ?_, hkept.resolve_right ?_⟩
  · simp [returned, exampleRenderBehind, exampleRenderLate, RenderState.setCall]
  · simp [returned, RenderState.setCall, RenderCall.awaits]

/-- Two requests at once, and the reply to the second is published at once. The first request
pulls it and throws it away while the second waits for it, and the second times out 45 seconds
later. A reply that is published 1 ms before the deadline, after the last pull, is missed by a
request that is alone. -/
theorem reply_lost :
    (∃ s, (renderSystem exampleRenderLib).Reachable s ∧
      (s.calls 1).awaits = some 1 ∧
      ∃ event ∈ s.discards exampleRenderLib (.read 0), exampleRenderLib.Answers 1 event) ∧
    (∃ s, (renderSystem exampleRenderLib).Reachable s ∧
      s.calls 1 = .returned (exampleRender 1) 45000 (.error .timeout) ∧
      ∃ event ∈ s.published, exampleRenderLib.Answers 1 event ∧
        event.publishedAt < 45000) ∧
    (∃ s, ((renderSystem exampleRenderLib).restrict RenderState.Serial).Reachable s ∧
      s.calls 1 = .returned (exampleRender 1) 45000 (.error .timeout) ∧
      ∃ event ∈ s.published, exampleRenderLib.Answers 1 event ∧
        event.publishedAt < 45000) := by
  let pulls : List RenderLabel :=
    [.request 0 (exampleRender 0), .request 1 (exampleRender 1), .connect 0, .connect 1,
      .publish exampleReply, .pull 0]
  have hpulled : ∃ s, Labelled.System.exec (renderStep exampleRenderLib) exampleRenderStart
      pulls = some s ∧ (s.calls 1).awaits = some 1 ∧
        s.discards exampleRenderLib (.read 0) = [⟨exampleReply, 0⟩] := by
    simp [pulls, Labelled.System.exec, renderStep, RenderState.setCall, exampleRenderStart,
      exampleRender, renderFetchBatch, RenderState.discards, RenderCall.awaits]
  have hreturned : ∃ s, Labelled.System.exec (renderStep exampleRenderLib) exampleRenderStart
      (pulls ++ [.read 0, .pull 1, .tick 45000, .check 1]) = some s ∧
        s.published = [⟨exampleReply, 0⟩] ∧
        s.calls 1 = .returned (exampleRender 1) 45000 (.error .timeout) := by
    simp [pulls, Labelled.System.exec, renderStep, RenderState.setCall, exampleRenderStart,
      exampleRender, renderFetchBatch, readEvent, checkDeadline]
  have hanswers (published : ℕ) :
      exampleRenderLib.Answers 1 ⟨exampleReply, published⟩ := by
    simp [RenderLib.Answers]
  refine ⟨?_, ?_, ?_⟩
  · obtain ⟨s, hexec, hawaits, hdiscards⟩ := hpulled
    refine ⟨s, exampleRenderStart_reachable.run (.of_exec hexec), hawaits, ?_⟩
    exact ⟨⟨exampleReply, 0⟩, by rw [hdiscards]; exact List.mem_singleton_self _, hanswers 0⟩
  · obtain ⟨s, hexec, hpublished, hcall⟩ := hreturned
    refine ⟨s, exampleRenderStart_reachable.run (.of_exec hexec), hcall, ?_⟩
    exact ⟨⟨exampleReply, 0⟩, by rw [hpublished]; exact List.mem_singleton_self _, hanswers 0,
      by decide⟩
  · have hmissed : ∃ s, Labelled.System.exec (renderStep exampleRenderLib) exampleRenderStart
        [.request 1 (exampleRender 1), .connect 1, .pull 1, .check 1, .tick 44999, .pull 1,
          .publish exampleReply, .tick 1, .check 1] = some s ∧
          s.published = [⟨exampleReply, 44999⟩] ∧
          s.calls 1 = .returned (exampleRender 1) 45000 (.error .timeout) := by
      simp [Labelled.System.exec, renderStep, RenderState.setCall, exampleRenderStart,
        exampleRender, renderPollInterval, checkDeadline]
    obtain ⟨s, hexec, hpublished, hcall⟩ := hmissed
    have hreachable := reachable_serial 1 (exampleRender 1) _ exampleRenderStart_serial
      (fun _ => rfl) hexec (by simp)
    refine ⟨s, hreachable, hcall, ?_⟩
    exact ⟨⟨exampleReply, 44999⟩, by rw [hpublished]; exact List.mem_singleton_self _,
      hanswers 44999, by decide⟩

end Extractor
