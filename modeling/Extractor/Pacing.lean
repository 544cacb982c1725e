import Extractor.Admission
import Extractor.FetchSafety
import Extractor.Lib.Rows
import Extractor.Lib.System

/-!
# Pacing of requests to one host

Any number of retrievals share the admission of one `SafeFetcher`. Each of them reserves a slot
before its first request and waits for it. A redirect reserves a slot of the new host and does not
wait for it, and a retry reserves none, so nothing spaces a retry, or a redirect into a slot that
has not come yet, but the time that it takes to get there.

Time is ideal: computation takes none, a timer fires at its instant, and an answer arrives as long
after its request as it says. A request starts after the lookup of its host, so the starts at two
slots keep the distance of their slots when the lookup of the later one is not the shorter.

## Main definitions

* `Pace`: the clock of a retrieval and the slot it has not used, from its history.
* `PaceKept`: what the retrieval code guarantees about its sleeps and its requests.
* `pacing`: the retrievals of a fetcher, with the requests that have started.
* `Follows`: the condition on a request that starts, against one that started before.

## Main results

* `ensures_paced_fetch`: the code keeps its pace.
* `pacing_waits`: no retrieval waits for a slot past its deadline.
* `slotted_of_reachable`: the slots of a host are spaced, in every run.
* `requests_paced`: requests that follow the earlier ones are spaced.
-/

namespace Extractor

open Program Labelled

variable {lib : UrlLib}

/-! ### The pace of a retrieval -/

/-- A slot that a retrieval holds: when it was reserved and whether a request was sent before,
so that it belongs to a redirect. -/
structure Reservation where
  host : String
  entered : Instant
  slot : Instant
  hop : Bool

/-- The clock of a retrieval, the slot it has not used, how long the last lookup took, and
whether a request was sent. -/
structure Pace where
  clock : Instant
  reservation : Option Reservation
  lookup : ℕ
  sent : Bool

/-- The instant at which the code goes on with a reserved slot: the first one is waited for, the
one of a redirect is not. -/
def Reservation.resumed (r : Reservation) : Instant :=
  if r.hop then r.entered else max r.slot r.entered

/-- The slot, where the code goes on with it when it comes. -/
def Reservation.used (r : Reservation) : Option Instant :=
  if r.resumed = r.slot then some r.slot else none

/-- The pace after one more exchange. -/
def Pace.after (p : Pace) : Exchange FetchOp → Pace
  | ⟨.tryEnter host, answer⟩ =>
      { p with
        reservation := answer.map fun slot => ⟨host, p.clock, slot, p.sent⟩
        lookup := 0 }
  | ⟨.leave _, _⟩ => p
  | ⟨.sleepUntil instant, _⟩ => { p with clock := instant }
  | ⟨.sleepUnder instant timer, _⟩ => { p with clock := min instant timer }
  | ⟨.lookup _ timer, answer⟩ =>
      { p with clock := min (p.clock + answer.delay) timer, lookup := answer.delay }
  | ⟨.send _ _ timer, answer⟩ =>
      { p with
        clock := min (p.clock + answer.delay) timer
        reservation := none
        lookup := 0
        sent := true }
  | ⟨.httpDate _, _⟩ => p
  | ⟨.storeResponse _ _ timer, answer⟩ => { p with clock := min (p.clock + answer.delay) timer }
  | ⟨.reusePrior _ _ _ timer, answer⟩ => { p with clock := min (p.clock + answer.delay) timer }

/-- The pace of a retrieval begun at `started`, after the history `h`. -/
def paceOf (started : Instant) (h : FetchTrace) : Pace :=
  h.foldl Pace.after ⟨started, none, 0, false⟩

/-- A wait that is over by its timer. -/
theorem Pace.min_clock {p : Pace} {delay : ℕ} {now timer : Instant} (hclock : p.clock = now)
    (h : now + delay ≤ timer) : min (p.clock + delay) timer = now + delay := by
  rw [hclock]
  exact Nat.min_eq_left h

theorem paceOf_append (started : Instant) (h : FetchTrace) (x : Exchange FetchOp) :
    paceOf started (h ++ [x]) = (paceOf started h).after x := by
  rw [paceOf, List.foldl_append]
  rfl

/-- What the code guarantees: it waits for a slot only before the deadline, and a request with an
unused slot goes to the host of the slot, right after the code went on and the host was looked
up. -/
def PaceKept (lib : UrlLib) (started deadline : Instant) : Condition FetchOp
  | h, _, .sleepUntil instant => (paceOf started h).reservation.isSome = true → instant < deadline
  | h, _, .send url _ _ => ∀ r, (paceOf started h).reservation = some r →
      url.hostStr lib = some r.host ∧
        (paceOf started h).clock = r.resumed + (paceOf started h).lookup
  | _, _, _ => True

/-- The code stands at an attempt on a host: an unused slot is one of that host, and the code has
just gone on with it. -/
def Ready (lib : UrlLib) (p : Pace) (url : NormalizedUrl) (now : Instant) : Prop :=
  p.clock = now ∧ ∀ r, p.reservation = some r →
    url.normalized.hostStr lib = some r.host ∧ p.clock = r.resumed ∧ p.lookup = 0

/-! ### The state machine -/

section Machine

variable {fetcher : SafeFetcher} {url : NormalizedUrl} {prior : Option CacheRecord}
  {started deadline limit now : Instant} {h : FetchTrace}

/-- A request may be started: an unused slot is one of its host, and the lookup is all that
happened since the code went on. -/
def Due (lib : UrlLib) (p : Pace) (url : NormalizedUrl) (now : Instant) : Prop :=
  p.clock = now ∧ ∀ r, p.reservation = some r →
    url.normalized.hostStr lib = some r.host ∧ p.clock = r.resumed + p.lookup

/-- A lookup comes between. -/
theorem ensures_paced_resolveBeforeSend (hready : Ready lib (paceOf started h) url now) :
    Ensures (PaceKept lib started limit)
      (resolveBeforeSend lib url.normalized deadline now).run h
      fun h' r => ∀ now', r = .ok now' → Due lib (paceOf started h') url now' := by
  obtain ⟨hclock, hslot⟩ := hready
  unfold resolveBeforeSend
  simp only [ensures_bind_except, ensures_okOr, ensures_call, ensures_require]
  cases hhost : url.normalized.hostStr lib with
  | none =>
      intro now' heq
      cases heq
  | some host =>
      refine ⟨trivial, fun answer => ?_⟩
      split
      · next hdelay =>
          cases resolveHost answer.value with
          | ok addresses =>
              intro now' heq
              cases heq
              have hover := Pace.min_clock hclock hdelay
              rw [paceOf_append]
              refine ⟨hover, fun r hr => ?_⟩
              obtain ⟨hrhost, hresumed, -⟩ := hslot r hr
              refine ⟨hrhost, hover.trans ?_⟩
              rw [← hclock, hresumed]
              rfl
          | error e =>
              cases e <;>
              · intro now' heq
                cases heq
      · intro now' heq
        cases heq

/-- Sending keeps the pace and uses the slot up. -/
theorem ensures_paced_send (hdue : Due lib (paceOf started h) url now) :
    Ensures (PaceKept lib started limit)
      (do
        let firstByteDeadline := min deadline (now + fetcher.config.firstByteTimeoutMs)
        let answer ← Program.call (.send url.normalized prior firstByteDeadline)
        require (now + answer.delay ≤ firstByteDeadline)
          (if firstByteDeadline = deadline then SafeFetchError.timeoutTotal else .timeoutFirstByte)
        return (answer.value, now + answer.delay) : FetchM (Option Response × Instant)).run h
      fun h' r => ∀ answer now', r = .ok (answer, now') →
        (paceOf started h').clock = now' ∧ (paceOf started h').reservation = none ∧
          (paceOf started h').sent = true := by
  obtain ⟨hclock, hslot⟩ := hdue
  simp only [ensures_bind_except, ensures_call, ensures_require]
  refine ⟨hslot, fun answer => ?_⟩
  split
  · next hdelay =>
      intro answer' now' heq
      cases heq
      rw [paceOf_append]
      exact ⟨Pace.min_clock hclock hdelay, rfl, rfl⟩
  · intro answer' now' heq
    cases heq

/-- An attempt keeps the pace and uses the slot up. -/
theorem ensures_paced_attempt (hready : Ready lib (paceOf started h) url now) :
    Ensures (PaceKept lib started limit) (attempt lib fetcher url prior deadline now).run h
      fun h' r => ∀ answer now', r = .ok (answer, now') →
        (paceOf started h').clock = now' ∧ (paceOf started h').reservation = none ∧
          (paceOf started h').sent = true := by
  unfold attempt
  dsimp only
  split
  · rw [ensures_bind_except]
    refine (ensures_paced_resolveBeforeSend hready).imp ?_
    rintro h₁ (e | now₁) hdue
    · intro answer now' heq
      cases heq
    · exact ensures_paced_send (hdue now₁ rfl)
  · refine ensures_paced_send ⟨hready.1, fun r hr => ?_⟩
    obtain ⟨hrhost, hresumed, hlookup⟩ := hready.2 r hr
    rw [hlookup]
    exact ⟨hrhost, hresumed⟩

/-- Reading a retry delay takes no time. -/
theorem ensures_paced_retryAfterOf {answer : Option Response} :
    Ensures (PaceKept lib started limit) (retryAfterOf answer).run h
      fun h' _ => paceOf started h' = paceOf started h := by
  unfold retryAfterOf retryAfterAt
  split
  · rfl
  · split
    · rfl
    · split
      · rfl
      · refine ⟨trivial, fun _ => ?_⟩
        exact paceOf_append _ _ _

/-- The wait before a retry is not one for a slot. -/
theorem ensures_paced_sleepBeforeDeadline {delay : Instant}
    (hslot : (paceOf started h).reservation = none) :
    Ensures (PaceKept lib started limit) (sleepBeforeDeadline deadline delay now).run h
      fun h' r => ∀ now', r = .ok now' → (paceOf started h').clock = now' ∧
        (paceOf started h').reservation = none := by
  unfold sleepBeforeDeadline
  simp only [ensures_bind_except, ensures_call, ensures_require]
  refine ⟨trivial, fun _ => ?_⟩
  split
  · next hdelay =>
      intro now' heq
      cases heq
      rw [paceOf_append]
      exact ⟨Nat.min_eq_left hdelay, hslot⟩
  · intro now' heq
    cases heq

/-- The inner loop keeps the pace and leaves no slot. -/
theorem ensures_paced_sendLoop (retriesLeft attempts : ℕ)
    (hready : Ready lib (paceOf started h) url now) :
    Ensures (PaceKept lib started limit)
      (sendLoop lib fetcher url prior deadline retriesLeft attempts now).run h
      fun h' r => ∀ sent : Sent, r = .ok sent → (paceOf started h').clock = sent.now ∧
        (paceOf started h').sent = true := by
  induction retriesLeft generalizing attempts now h with
  | zero =>
      unfold sendLoop
      rw [ensures_bind_except]
      refine (ensures_paced_attempt hready).imp ?_
      rintro h₁ (e | ⟨answer, now₁⟩) hpost
      · intro sent heq
        cases heq
      · obtain ⟨hclock, -, hsent⟩ := hpost answer now₁ rfl
        simp only [ensures_bind_except, ensures_okOr]
        cases answer with
        | none =>
            intro sent heq
            cases heq
        | some response =>
            intro sent heq
            cases heq
            exact ⟨hclock, hsent⟩
  | succ retriesLeft ih =>
      unfold sendLoop
      rw [ensures_bind_except]
      refine (ensures_paced_attempt hready).imp ?_
      rintro h₁ (e | ⟨answer, now₁⟩) hpost
      · intro sent heq
        cases heq
      · obtain ⟨hclock, hslot, hsent⟩ := hpost answer now₁ rfl
        dsimp only
        split
        · rw [ensures_bind_except]
          refine ensures_paced_retryAfterOf.imp ?_
          rintro h₂ (e | retryAfter) hpace
          · intro sent heq
            cases heq
          · dsimp only
            rw [ensures_bind_except]
            have hslot₂ : (paceOf started h₂).reservation = none := by rw [hpace, hslot]
            refine (ensures_paced_sleepBeforeDeadline hslot₂).imp ?_
            rintro h₃ (e | now₂) hpost₃
            · intro sent heq
              cases heq
            · obtain ⟨hclock₃, hslot₃⟩ := hpost₃ now₂ rfl
              refine ih (attempts + 1) ⟨hclock₃, fun r hr => ?_⟩
              rw [hslot₃] at hr
              cases hr
        · simp only [ensures_bind_except, ensures_okOr]
          cases answer with
          | none =>
              intro sent heq
              cases heq
          | some response =>
              intro sent heq
              cases heq
              exact ⟨hclock, hsent⟩

/-- A literal check takes no time. -/
theorem ensures_paced_checkLiteral {enforced : Bool} :
    Ensures (PaceKept lib started limit) (checkLiteral enforced url).run h
      fun h' _ => h' = h := by
  unfold checkLiteral
  split
  · rfl
  · rfl

/-- A redirect reserves a slot of the next host and goes on at once. -/
theorem ensures_paced_followRedirect {context : FetchContext} {s : HopState} {sent : Sent}
    (hclock : (paceOf started h).clock = sent.now) (hsent : (paceOf started h).sent = true) :
    Ensures (PaceKept lib started limit) (followRedirect lib fetcher context s sent).run h
      fun h' r => ∀ s' : HopState, r = .ok s' →
        Ready lib (paceOf started h') s'.normalized s'.now := by
  unfold followRedirect
  simp only [ensures_bind_except, ensures_okOr, ensures_ofExcept]
  cases sent.response.header "location" with
  | none => simp
  | some location =>
      dsimp only
      cases lib.join s.normalized.normalized location with
      | none => simp
      | some next =>
          dsimp only
          cases normalize lib (lib.asStr next) fetcher.config.policy with
          | error e => simp [Except.mapError]
          | ok normalized =>
              simp only [Except.mapError]
              refine ensures_paced_checkLiteral.imp ?_
              rintro h₁ (e | ⟨⟨⟩⟩) rfl
              · simp
              · dsimp only
                cases hhost : normalized.normalized.hostStr lib with
                | none => simp
                | some host =>
                    simp only [ensures_call]
                    refine ⟨trivial, fun left => ⟨trivial, fun entered => ?_⟩⟩
                    cases entered with
                    | none => simp
                    | some slot =>
                        simp only [ensures_require]
                        split
                        · intro s' heq
                          cases heq
                          rw [paceOf_append, paceOf_append]
                          refine ⟨hclock, fun r hr => ?_⟩
                          cases hr
                          refine ⟨hhost, ?_, rfl⟩
                          rw [Reservation.resumed, if_pos]
                          · rfl
                          · exact hsent
                        · intro s' heq
                          cases heq

/-- The end of a retrieval neither waits nor sends. -/
theorem ensures_paced_conclude {context : FetchContext} {s : HopState} {sent : Sent} :
    Ensures (PaceKept lib started limit) (conclude context s sent).run h fun _ _ => True := by
  unfold conclude
  dsimp only
  split
  · simp only [ensures_bind_except, ensures_okOr]
    cases context.prior with
    | none => trivial
    | some prior => exact ⟨trivial, fun _ => trivial⟩
  · simp only [ensures_bind_except, ensures_require]
    split
    · exact ⟨trivial, fun _ => trivial⟩
    · trivial

/-- The outer loop keeps the pace. -/
theorem ensures_paced_hopLoop {context : FetchContext} (redirectsLeft : ℕ) {s : HopState}
    (hready : Ready lib (paceOf started h) s.normalized s.now) :
    Ensures (PaceKept lib started limit) (hopLoop lib fetcher context redirectsLeft s).run h
      fun _ _ => True := by
  induction redirectsLeft generalizing s h with
  | zero =>
      unfold hopLoop
      rw [ensures_bind_except]
      refine (ensures_paced_sendLoop _ _ hready).imp ?_
      rintro h₁ (e | sent) -
      · trivial
      · dsimp only
        split
        · trivial
        · exact ensures_paced_conclude
  | succ redirectsLeft ih =>
      unfold hopLoop
      rw [ensures_bind_except]
      refine (ensures_paced_sendLoop _ _ hready).imp ?_
      rintro h₁ (e | sent) hpost
      · trivial
      · obtain ⟨hclock, hsent⟩ := hpost sent rfl
        dsimp only
        split
        · rw [ensures_bind_except]
          refine (ensures_paced_followRedirect hclock hsent).imp ?_
          rintro h₂ (e | next) hnext
          · trivial
          · exact ih (hnext next rfl)
        · exact ensures_paced_conclude

/-- **The code keeps its pace**, from the reservation of the first slot on. -/
theorem ensures_paced_fetch (request : FetchRequest) (started : Instant) :
    Ensures (PaceKept lib started (started + fetcher.config.totalTimeoutMs))
      (fetch lib fetcher request started).run [] fun _ _ => True := by
  unfold fetch fetchInner
  simp only [ensures_bind_except, ensures_ofExcept]
  cases normalize lib request.url fetcher.config.policy with
  | error e => trivial
  | ok normalized =>
      simp only [Except.mapError, ensures_okOr]
      cases lib.parse normalized.original with
      | none => trivial
      | some originalUrl =>
          dsimp only
          refine ensures_paced_checkLiteral.imp ?_
          rintro h₁ (e | ⟨⟨⟩⟩) rfl
          · trivial
          · dsimp only
            cases hhost : normalized.normalized.hostStr lib with
            | none => trivial
            | some host =>
                simp only [ensures_call]
                refine ⟨trivial, fun entered => ?_⟩
                cases entered with
                | none => trivial
                | some slot =>
                    dsimp only
                    unfold waitForSlot
                    split
                    · next hwait =>
                        simp only [ensures_bind_except, ensures_require]
                        split
                        · next hlimit =>
                            refine ⟨fun _ => hlimit, fun _ => ?_⟩
                            refine ensures_paced_hopLoop _ ⟨rfl, fun r hr => ?_⟩
                            cases hr
                            refine ⟨hhost, ?_, rfl⟩
                            exact (Nat.max_eq_left (Nat.le_of_lt hwait)).symm
                        · trivial
                    · next hwait =>
                        refine ensures_paced_hopLoop _ ⟨rfl, fun r hr => ?_⟩
                        cases hr
                        refine ⟨hhost, ?_, rfl⟩
                        exact (Nat.max_eq_right (Nat.le_of_not_lt hwait)).symm

end Machine

/-! ### Retrievals side by side -/

/-- A retrieval in progress: its beginning, what it has asked and been told, and what is left of
it; `inFlight` once the request that it waits for has been sent. -/
structure Retrieval where
  started : Instant
  history : FetchTrace
  rest : Program FetchOp (Except SafeFetchError FetchResult)
  inFlight : Bool

namespace Retrieval

/-- The pace of a retrieval. -/
def pace (r : Retrieval) : Pace := paceOf r.started r.history

/-- The host whose admission guard is held. -/
def guardHost (r : Retrieval) : Option String :=
  r.history.foldl (fun held x => match x with
    | ⟨.tryEnter host, some _⟩ => some host
    | ⟨.leave _, _⟩ => none
    | _ => held) none

/-- The slot that is reserved and not used. -/
def unused (r : Retrieval) : Option Reservation :=
  if r.inFlight then none else r.pace.reservation

/-- The retrieval after an answer. -/
def receive {β : Type} (r : Retrieval) (e : FetchOp β)
    (k : β → Program FetchOp (Except SafeFetchError FetchResult)) (x : β) : Retrieval :=
  { r with history := r.history ++ [⟨e, x⟩], rest := k x, inFlight := false }

/-- The instant at which an answer is there, or given up. -/
def overAt (r : Retrieval) (delay : ℕ) (timer : Instant) : Instant :=
  min (r.pace.clock + delay) timer

/-- The retrieval waits, with its request sent or not, for something that happens at an
instant. -/
def Awaits (r : Retrieval) (sent : Bool) (instant now : Instant) : Prop :=
  instant = now ∧ r.inFlight = sent

instance (r : Retrieval) (sent : Bool) (instant now : Instant) :
    Decidable (r.Awaits sent instant now) :=
  inferInstanceAs (Decidable (_ ∧ _))

end Retrieval

/-- A request that has started: its host and its instant, the slot at which the code went on with
it, if it went on at one, and how long the lookup between took. -/
structure Start where
  host : Option String
  instant : Instant
  slot : Option Instant
  lookup : ℕ

/-- The request that a retrieval is about to start. -/
def Retrieval.next (lib : UrlLib) (r : Retrieval) : Option Start :=
  match r.rest with
  | .ask (.send url _ _) _ =>
      some ⟨url.hostStr lib, r.pace.clock, r.pace.reservation.bind Reservation.used, r.pace.lookup⟩
  | _ => none

/-- The retrievals of one fetcher, and the requests that have started. -/
structure PacingState where
  now : Instant
  admission : AdmissionState
  retrievals : List Retrieval
  starts : List Start

/-- What can happen next; retrievals are named by their position. -/
inductive PacingAction
  | begin (request : FetchRequest)
  | tick (ms : ℕ)
  | enter (i : ℕ)
  | leave (i : ℕ)
  | wake (i : ℕ)
  | lookup (i : ℕ) (answer : Timed (Option (List SocketAddr)))
  | start (i : ℕ)
  | respond (i : ℕ) (answer : Timed (Option Response))
  | httpDate (i : ℕ) (answer : Option ℕ)
  | body (i : ℕ) (answer : Timed (Except SafeFetchError FetchResult))
  /-- A retrieval has returned, or its caller drops it; its guard is dropped with it. -/
  | drop (i : ℕ)

/-- A retrieval is replaced. -/
def PacingState.put (s : PacingState) (i : ℕ) (r : Retrieval) : PacingState :=
  { s with retrievals := s.retrievals.set i r }

/-- The state in which nothing has begun. -/
def PacingState.initial : PacingState := ⟨0, .initial, [], []⟩

section Steps

variable (lib : UrlLib) (fetcher : SafeFetcher)

/-- One action. -/
def pacingStep (s : PacingState) : PacingAction → Option PacingState
  | .begin request =>
      some { s with
        retrievals := s.retrievals ++ [⟨s.now, [], (fetch lib fetcher request s.now).run, false⟩] }
  | .tick ms => some { s with now := s.now + ms }
  | .enter i => s.retrievals[i]?.bind fun r => match r.rest with
      | .ask (.tryEnter host) k =>
          let entered := (Admission.ofConfig fetcher.config).tryEnter s.now host s.admission
          if r.Awaits false r.pace.clock s.now then
            some { s.put i (r.receive (.tryEnter host) k entered.1) with admission := entered.2 }
          else none
      | _ => none
  | .leave i => s.retrievals[i]?.bind fun r => match r.rest with
      | .ask (.leave host) k =>
          if r.Awaits false r.pace.clock s.now then
            some { s.put i (r.receive (.leave host) k ()) with admission := s.admission.leave host }
          else none
      | _ => none
  | .wake i => s.retrievals[i]?.bind fun r => match r.rest with
      | .ask (.sleepUntil instant) k =>
          if r.Awaits false instant s.now then
            some (s.put i (r.receive (.sleepUntil instant) k ()))
          else none
      | .ask (.sleepUnder instant timer) k =>
          if r.Awaits false (min instant timer) s.now then
            some (s.put i (r.receive (.sleepUnder instant timer) k ()))
          else none
      | _ => none
  | .lookup i answer => s.retrievals[i]?.bind fun r => match r.rest with
      | .ask (.lookup host timer) k =>
          if r.Awaits false (r.overAt answer.delay timer) s.now then
            some (s.put i (r.receive (.lookup host timer) k answer))
          else none
      | _ => none
  | .start i => s.retrievals[i]?.bind fun r => (r.next lib).bind fun start =>
      if r.Awaits false start.instant s.now then
        some { s.put i { r with inFlight := true } with starts := s.starts ++ [start] }
      else none
  | .respond i answer => s.retrievals[i]?.bind fun r => match r.rest with
      | .ask (.send url prior timer) k =>
          if r.Awaits true (r.overAt answer.delay timer) s.now then
            some (s.put i (r.receive (.send url prior timer) k answer))
          else none
      | _ => none
  | .httpDate i answer => s.retrievals[i]?.bind fun r => match r.rest with
      | .ask (.httpDate value) k =>
          if r.Awaits false r.pace.clock s.now then
            some (s.put i (r.receive (.httpDate value) k answer))
          else none
      | _ => none
  | .body i answer => s.retrievals[i]?.bind fun r => match r.rest with
      | .ask (.storeResponse response context timer) k =>
          if r.Awaits false (r.overAt answer.delay timer) s.now then
            some (s.put i (r.receive (.storeResponse response context timer) k answer))
          else none
      | .ask (.reusePrior response context prior timer) k =>
          if r.Awaits false (r.overAt answer.delay timer) s.now then
            some (s.put i (r.receive (.reusePrior response context prior timer) k answer))
          else none
      | _ => none
  | .drop i => s.retrievals[i]?.map fun r =>
      { s with
        retrievals := s.retrievals.eraseIdx i
        admission := match r.guardHost with
          | some host => s.admission.leave host
          | none => s.admission }

/-- **The retrievals of one fetcher.** -/
def pacing : System PacingState PacingAction :=
  System.ofStep (fun s => s = .initial) (pacingStep lib fetcher)

end Steps

/-- What an action can do: beside the beginning of a retrieval, the passing of time and the end of
a retrieval, a retrieval enters, starts its request, or receives an answer that leaves its unused
slot alone or takes it away. -/
inductive PacingMove (lib : UrlLib) (fetcher : SafeFetcher) (s : PacingState) :
    PacingAction → PacingState → Prop
  | begin (request : FetchRequest) :
      PacingMove lib fetcher s (.begin request) { s with retrievals :=
        s.retrievals ++ [⟨s.now, [], (fetch lib fetcher request s.now).run, false⟩] }
  | tick (ms : ℕ) : PacingMove lib fetcher s (.tick ms) { s with now := s.now + ms }
  | enter {i : ℕ} {r : Retrieval} {host : String}
      {k : Option Instant → Program FetchOp (Except SafeFetchError FetchResult)}
      (entered : Option Instant × AdmissionState) :
      s.retrievals[i]? = some r → r.rest = .ask (.tryEnter host) k → r.pace.clock = s.now →
      entered = (Admission.ofConfig fetcher.config).tryEnter s.now host s.admission →
      PacingMove lib fetcher s (.enter i)
        { s.put i (r.receive (.tryEnter host) k entered.1) with admission := entered.2 }
  | start {i : ℕ} {r : Retrieval} {start : Start} :
      s.retrievals[i]? = some r → r.next lib = some start → r.inFlight = false →
      PacingMove lib fetcher s (.start i)
        { s.put i { r with inFlight := true } with starts := s.starts ++ [start] }
  | receive {a : PacingAction} {t : PacingState} {i : ℕ} {r : Retrieval} {β : Type}
      {e : FetchOp β} {k : β → Program FetchOp (Except SafeFetchError FetchResult)} {x : β} :
      s.retrievals[i]? = some r → r.rest = .ask e k →
      ((r.receive e k x).pace.reservation = none ∨
        r.inFlight = false ∧ (r.receive e k x).pace.reservation = r.pace.reservation) →
      t.retrievals = s.retrievals.set i (r.receive e k x) →
      t.admission.nextAllowed = s.admission.nextAllowed → t.starts = s.starts →
      PacingMove lib fetcher s a t
  | drop {t : PacingState} {i : ℕ} {r : Retrieval} :
      s.retrievals[i]? = some r → t.retrievals = s.retrievals.eraseIdx i →
      t.admission.nextAllowed = s.admission.nextAllowed → t.starts = s.starts →
      PacingMove lib fetcher s (.drop i) t

theorem Retrieval.pace_receive {β : Type} (r : Retrieval) (e : FetchOp β)
    (k : β → Program FetchOp (Except SafeFetchError FetchResult)) (x : β) :
    (r.receive e k x).pace = r.pace.after ⟨e, x⟩ :=
  paceOf_append _ _ _

/-- An answer that leaves the unused slot alone. -/
theorem PacingMove.keepsSlot {fetcher : SafeFetcher} {s t : PacingState} {a : PacingAction} {i : ℕ}
    {r : Retrieval} {β : Type} {e : FetchOp β}
    {k : β → Program FetchOp (Except SafeFetchError FetchResult)} {x : β}
    (hr : s.retrievals[i]? = some r) (hrest : r.rest = .ask e k) (hidle : r.inFlight = false)
    (hslot : (r.pace.after ⟨e, x⟩).reservation = r.pace.reservation)
    (hretrievals : t.retrievals = s.retrievals.set i (r.receive e k x))
    (hnext : t.admission.nextAllowed = s.admission.nextAllowed) (hstarts : t.starts = s.starts) :
    PacingMove lib fetcher s a t := by
  refine .receive hr hrest (.inr ⟨hidle, ?_⟩) hretrievals hnext hstarts
  rw [Retrieval.pace_receive]
  exact hslot

/-- Every action is one of these moves. -/
theorem pacingStep_move {fetcher : SafeFetcher} {s t : PacingState} {a : PacingAction}
    (h : pacingStep lib fetcher s a = some t) : PacingMove lib fetcher s a t := by
  cases a with
  | begin request =>
      cases h
      exact .begin request
  | tick ms =>
      cases h
      exact .tick ms
  | enter i =>
      obtain ⟨r, hr, h⟩ := Option.bind_eq_some_iff.mp h
      split at h
      · next host k hrest =>
          obtain ⟨hawaits, h⟩ := Option.ite_none_right_eq_some.mp h
          cases h
          exact .enter _ hr hrest hawaits.1 rfl
      · cases h
  | leave i =>
      obtain ⟨r, hr, h⟩ := Option.bind_eq_some_iff.mp h
      split at h
      · next host k hrest =>
          obtain ⟨hawaits, h⟩ := Option.ite_none_right_eq_some.mp h
          cases h
          exact .keepsSlot hr hrest hawaits.2 rfl rfl rfl rfl
      · cases h
  | wake i =>
      obtain ⟨r, hr, h⟩ := Option.bind_eq_some_iff.mp h
      split at h
      · next instant k hrest =>
          obtain ⟨hawaits, h⟩ := Option.ite_none_right_eq_some.mp h
          cases h
          exact .keepsSlot hr hrest hawaits.2 rfl rfl rfl rfl
      · next instant timer k hrest =>
          obtain ⟨hawaits, h⟩ := Option.ite_none_right_eq_some.mp h
          cases h
          exact .keepsSlot hr hrest hawaits.2 rfl rfl rfl rfl
      · cases h
  | lookup i answer =>
      obtain ⟨r, hr, h⟩ := Option.bind_eq_some_iff.mp h
      split at h
      · next host timer k hrest =>
          obtain ⟨hawaits, h⟩ := Option.ite_none_right_eq_some.mp h
          cases h
          exact .keepsSlot hr hrest hawaits.2 rfl rfl rfl rfl
      · cases h
  | start i =>
      obtain ⟨r, hr, h⟩ := Option.bind_eq_some_iff.mp h
      obtain ⟨start, hstart, h⟩ := Option.bind_eq_some_iff.mp h
      obtain ⟨hawaits, h⟩ := Option.ite_none_right_eq_some.mp h
      cases h
      exact .start hr hstart hawaits.2
  | respond i answer =>
      obtain ⟨r, hr, h⟩ := Option.bind_eq_some_iff.mp h
      split at h
      · next url prior timer k hrest =>
          obtain ⟨hawaits, h⟩ := Option.ite_none_right_eq_some.mp h
          cases h
          refine .receive hr hrest (Or.inl ?_) rfl rfl rfl
          rw [Retrieval.pace_receive]
          rfl
      · cases h
  | httpDate i answer =>
      obtain ⟨r, hr, h⟩ := Option.bind_eq_some_iff.mp h
      split at h
      · next value k hrest =>
          obtain ⟨hawaits, h⟩ := Option.ite_none_right_eq_some.mp h
          cases h
          exact .keepsSlot hr hrest hawaits.2 rfl rfl rfl rfl
      · cases h
  | body i answer =>
      obtain ⟨r, hr, h⟩ := Option.bind_eq_some_iff.mp h
      split at h
      · next response context timer k hrest =>
          obtain ⟨hawaits, h⟩ := Option.ite_none_right_eq_some.mp h
          cases h
          exact .keepsSlot hr hrest hawaits.2 rfl rfl rfl rfl
      · next response context prior timer k hrest =>
          obtain ⟨hawaits, h⟩ := Option.ite_none_right_eq_some.mp h
          cases h
          exact .keepsSlot hr hrest hawaits.2 rfl rfl rfl rfl
      · cases h
  | drop i =>
      obtain ⟨r, hr, h⟩ := Option.map_eq_some_iff.mp h
      cases h
      refine .drop hr rfl ?_ rfl
      dsimp only
      split
      · rfl
      · rfl

/-! ### Waiting -/

/-- Every retrieval keeps its pace in what is left of it. -/
def PacingState.Kept (lib : UrlLib) (fetcher : SafeFetcher) (s : PacingState) : Prop :=
  ∀ r ∈ s.retrievals, Ensures
    (PaceKept lib r.started (r.started + fetcher.config.totalTimeoutMs)) r.rest r.history
    fun _ _ => True

/-- A retrieval is replaced by what it is after an answer. -/
theorem PacingState.Kept.receive {fetcher : SafeFetcher} {s t : PacingState} {i : ℕ}
    {r : Retrieval} {β : Type} {e : FetchOp β}
    {k : β → Program FetchOp (Except SafeFetchError FetchResult)} {x : β} (h : s.Kept lib fetcher)
    (hr : s.retrievals[i]? = some r) (hrest : r.rest = .ask e k)
    (ht : t.retrievals = s.retrievals.set i (r.receive e k x)) : t.Kept lib fetcher := by
  intro r' hr'
  rw [ht] at hr'
  rcases List.mem_or_eq_of_mem_set hr' with hmem | rfl
  · exact h r' hmem
  · have hkept := h r (List.mem_of_getElem? hr)
    rw [hrest] at hkept
    exact hkept.2 x

theorem pacing_kept {fetcher : SafeFetcher} {s : PacingState}
    (hs : (pacing lib fetcher).Reachable s) : s.Kept lib fetcher := by
  refine hs.invariant ?_ ?_
  · rintro s rfl r hr
    cases hr
  · intro s a t _ hkept hstep
    cases pacingStep_move hstep with
    | begin request =>
        intro r hr
        rcases List.mem_append.mp hr with hr | hr
        · exact hkept r hr
        · rw [List.mem_singleton.mp hr]
          exact ensures_paced_fetch request s.now
    | tick ms => exact hkept
    | enter entered hr hrest _ _ => exact hkept.receive hr hrest rfl
    | start hr _ _ =>
        intro r' hr'
        rcases List.mem_or_eq_of_mem_set hr' with hmem | rfl
        · exact hkept r' hmem
        · have hold := hkept _ (List.mem_of_getElem? hr)
          exact hold
    | receive hr hrest _ ht _ _ => exact hkept.receive hr hrest ht
    | drop _ ht _ _ =>
        intro r hr
        rw [ht] at hr
        exact hkept r (List.mem_of_mem_eraseIdx hr)

/-- **No retrieval waits for a slot past its deadline**: where it sleeps with a slot in hand, it
wakes before the deadline. -/
theorem pacing_waits {fetcher : SafeFetcher} {s : PacingState}
    (hs : (pacing lib fetcher).Reachable s) {r : Retrieval} (hr : r ∈ s.retrievals)
    {instant : Instant} {k : Unit → Program FetchOp (Except SafeFetchError FetchResult)}
    (hrest : r.rest = .ask (.sleepUntil instant) k) (hslot : r.pace.reservation.isSome = true) :
    instant < r.started + fetcher.config.totalTimeoutMs := by
  have hkept := pacing_kept hs r hr
  rw [hrest] at hkept
  exact hkept.1 hslot

/-! ### Spacing -/

/-- Two moments toward one host are at least `d` apart. -/
def Apart (d : ℕ) (x y : Option String × Instant) : Prop :=
  x.1 = y.1 → x.2 + d ≤ y.2 ∨ y.2 + d ≤ x.2

theorem Apart.symm {d : ℕ} {x y : Option String × Instant} (h : Apart d x y) : Apart d y x :=
  fun heq => (h heq.symm).symm

/-- When a request started, toward which host. -/
def Start.moment (x : Start) : Option String × Instant := (x.host, x.instant)

/-- The slot that a request used, with its host. -/
def Start.used (x : Start) : Option (Option String × Instant) :=
  x.slot.map fun slot => (x.host, slot)

/-- The slot that a retrieval may still use. -/
def Retrieval.pending (r : Retrieval) : List (Option String × Instant) :=
  (r.unused.map fun slot => (some slot.host, slot.slot)).toList

/-- The slots that were used, and those that still may be. -/
def PacingState.slots (s : PacingState) : List (Option String × Instant) :=
  s.starts.filterMap Start.used ++ s.retrievals.flatMap Retrieval.pending

/-- The invariant of the slots: none is before its reservation, all are apart, the next slot of a
host is an interval after each of them, and a request at its slot starts one lookup after it. -/
structure Slotted (d : ℕ) (s : PacingState) : Prop where
  entered : ∀ r ∈ s.retrievals, ∀ slot, r.pace.reservation = some slot → slot.entered ≤ slot.slot
  apart : s.slots.Pairwise (Apart d)
  next : ∀ x ∈ s.slots, ∃ host slot, x.1 = some host ∧
    s.admission.nextAllowed.lookup host = some slot ∧ x.2 + d ≤ slot
  started : ∀ x ∈ s.starts, ∀ slot ∈ x.slot, x.instant = slot + x.lookup

section Slots

variable {d : ℕ} {s t : PacingState}

/-- A state with fewer slots, up to their order, keeps the invariant. -/
theorem Slotted.of_subperm (h : Slotted d s)
    (hentered : ∀ r ∈ t.retrievals, ∀ slot, r.pace.reservation = some slot →
      slot.entered ≤ slot.slot)
    (hslots : t.slots.Subperm s.slots)
    (hnext : t.admission.nextAllowed = s.admission.nextAllowed)
    (hstarted : ∀ x ∈ t.starts, ∀ slot ∈ x.slot, x.instant = slot + x.lookup) : Slotted d t := by
  refine ⟨hentered, ?_, fun x hx => ?_, hstarted⟩
  · obtain ⟨l, hperm, hsub⟩ := hslots
    exact (List.Pairwise.sublist hsub h.apart).perm hperm Apart.symm
  · rw [hnext]
    exact h.next x (hslots.subset hx)

/-- The slots of a state in which one retrieval is replaced, around that retrieval. -/
theorem slots_set {i : ℕ} {r : Retrieval} (hr : s.retrievals[i]? = some r) :
    ∃ pre post : List (Option String × Instant),
      s.slots = s.starts.filterMap Start.used ++ (pre ++ (r.pending ++ post)) ∧
      s.starts.filterMap Start.used ++ (s.retrievals.eraseIdx i).flatMap Retrieval.pending =
        s.starts.filterMap Start.used ++ (pre ++ post) ∧
      ∀ (t : PacingState) (r' : Retrieval), t.retrievals = s.retrievals.set i r' →
        t.slots = t.starts.filterMap Start.used ++ (pre ++ (r'.pending ++ post)) := by
  obtain ⟨pre, post, hrows, herase, hset⟩ := Rows.exists_around hr
  refine ⟨pre.flatMap Retrieval.pending, post.flatMap Retrieval.pending, ?_, ?_,
    fun t r' ht => ?_⟩
  · rw [PacingState.slots, hrows, List.flatMap_append, List.flatMap_cons]
  · rw [herase, List.flatMap_append]
  · rw [PacingState.slots, ht, hset, List.flatMap_append, List.flatMap_cons]

theorem Retrieval.pending_of_none {r : Retrieval} (h : r.unused = none) : r.pending = [] := by
  rw [pending, h]
  rfl

/-- The answer to a request leaves no slot or the one there was. -/
theorem Retrieval.pending_receive {r : Retrieval} {β : Type} {e : FetchOp β}
    {k : β → Program FetchOp (Except SafeFetchError FetchResult)} {x : β}
    (h : (r.receive e k x).pace.reservation = none ∨
      r.inFlight = false ∧ (r.receive e k x).pace.reservation = r.pace.reservation) :
    (r.receive e k x).pending = [] ∨ (r.receive e k x).pending = r.pending := by
  have hunused : (r.receive e k x).unused = (r.receive e k x).pace.reservation := rfl
  rcases h with hnone | ⟨hidle, hsame⟩
  · exact Or.inl (pending_of_none (hunused.trans hnone))
  · have hold : r.unused = r.pace.reservation := by
      rw [unused, hidle]
      rfl
    right
    rw [pending, pending, hunused, hsame, hold]

/-- A request that starts uses the slot of its retrieval, where it goes on at it: it starts one
lookup after it. -/
theorem Retrieval.used_of_next {r : Retrieval} {x : Start} {limit : Instant}
    (hx : r.next lib = some x) (hidle : r.inFlight = false)
    (hkept : Ensures (PaceKept lib r.started limit) r.rest r.history fun _ _ => True) :
    x.used.toList.Sublist r.pending ∧ ∀ slot ∈ x.slot, x.instant = slot + x.lookup := by
  unfold next at hx
  split at hx
  · next url prior timer k hrest =>
      cases hx
      rw [hrest] at hkept
      rw [pending, unused, hidle]
      cases hreservation : r.pace.reservation with
      | none =>
          refine ⟨List.Sublist.refl _, fun slot hslot => ?_⟩
          cases hslot
      | some slot =>
          obtain ⟨hhost, hclock⟩ := hkept.1 slot hreservation
          have hclock : r.pace.clock = slot.resumed + r.pace.lookup := hclock
          simp only [Start.used, Option.bind_some, Reservation.used]
          split
          · next hresumed =>
              rw [hhost]
              refine ⟨List.Sublist.refl _, fun instant hinstant => ?_⟩
              obtain rfl := Option.some.inj hinstant
              rw [hclock, hresumed]
          · refine ⟨List.nil_sublist _, fun instant hinstant => ?_⟩
            cases hinstant
  · cases hx

theorem Slotted.entered_set (h : Slotted d s) {i : ℕ} {r' : Retrieval}
    (ht : t.retrievals = s.retrievals.set i r')
    (hr' : ∀ slot, r'.pace.reservation = some slot → slot.entered ≤ slot.slot) :
    ∀ r ∈ t.retrievals, ∀ slot, r.pace.reservation = some slot → slot.entered ≤ slot.slot := by
  intro r hr
  rw [ht] at hr
  rcases List.mem_or_eq_of_mem_set hr with hmem | rfl
  · exact h.entered r hmem
  · exact hr'

/-- An answer keeps the invariant. -/
theorem Slotted.receive (h : Slotted d s) {i : ℕ} {r : Retrieval} {β : Type} {e : FetchOp β}
    {k : β → Program FetchOp (Except SafeFetchError FetchResult)} {x : β}
    (hr : s.retrievals[i]? = some r)
    (hslot : (r.receive e k x).pace.reservation = none ∨
      r.inFlight = false ∧ (r.receive e k x).pace.reservation = r.pace.reservation)
    (ht : t.retrievals = s.retrievals.set i (r.receive e k x))
    (hnext : t.admission.nextAllowed = s.admission.nextAllowed) (hstarts : t.starts = s.starts) :
    Slotted d t := by
  obtain ⟨pre, post, hs, -, hset⟩ := slots_set hr
  refine h.of_subperm (h.entered_set ht ?_) ?_ hnext (hstarts ▸ h.started)
  · intro slot hreservation
    rcases hslot with hnone | ⟨-, hsame⟩
    · rw [hnone] at hreservation
      cases hreservation
    · exact h.entered r (List.mem_of_getElem? hr) slot (hsame ▸ hreservation)
  · rw [hset t _ ht, hs, hstarts]
    rcases Retrieval.pending_receive hslot with hnone | hsame
    · rw [hnone, List.nil_append]
      exact (List.Sublist.append_left (List.Sublist.append_left
        (List.sublist_append_right _ _) _) _).subperm
    · rw [hsame]

/-- The end of a retrieval keeps the invariant. -/
theorem Slotted.drop (h : Slotted d s) {i : ℕ} {r : Retrieval}
    (hr : s.retrievals[i]? = some r) (ht : t.retrievals = s.retrievals.eraseIdx i)
    (hnext : t.admission.nextAllowed = s.admission.nextAllowed) (hstarts : t.starts = s.starts) :
    Slotted d t := by
  obtain ⟨pre, post, hs, herase, -⟩ := slots_set hr
  refine h.of_subperm (fun r hr => ?_) ?_ hnext (hstarts ▸ h.started)
  · rw [ht] at hr
    exact h.entered r (List.mem_of_mem_eraseIdx hr)
  · rw [PacingState.slots, ht, hstarts, herase, hs]
    exact (List.Sublist.append_left (List.Sublist.append_left
      (List.sublist_append_right _ _) _) _).subperm

/-- A request that starts takes the slot of its retrieval, or leaves it unused for good. -/
theorem Slotted.start (h : Slotted d s) {i : ℕ} {r : Retrieval} {x : Start}
    (hr : s.retrievals[i]? = some r) (hused : x.used.toList.Sublist r.pending)
    (hstarted : ∀ slot ∈ x.slot, x.instant = slot + x.lookup)
    (ht : t.retrievals = s.retrievals.set i { r with inFlight := true })
    (hnext : t.admission.nextAllowed = s.admission.nextAllowed)
    (hstarts : t.starts = s.starts ++ [x]) : Slotted d t := by
  obtain ⟨pre, post, hs, -, hset⟩ := slots_set hr
  refine h.of_subperm (h.entered_set ht (h.entered r (List.mem_of_getElem? hr))) ?_ hnext ?_
  · have hnone : ({ r with inFlight := true } : Retrieval).pending = [] :=
      Retrieval.pending_of_none rfl
    have hnew : [x].filterMap Start.used = x.used.toList := by
      rw [List.filterMap_cons]
      cases x.used <;> rfl
    rw [hset t _ ht, hs, hstarts, hnone, List.nil_append, List.filterMap_append, hnew,
      List.append_assoc]
    refine ((List.Perm.append_left _ ?_).subperm).trans
      ((List.Sublist.append_left (List.Sublist.append_left
        (List.Sublist.append_right hused post) pre) _).subperm)
    rw [← List.append_assoc, ← List.append_assoc]
    exact List.perm_append_comm.append_right post
  · intro y hy
    rw [hstarts] at hy
    rcases List.mem_append.mp hy with hy | hy
    · exact h.started y hy
    · rw [List.mem_singleton.mp hy]
      exact hstarted

/-- The next slot of a host after a reservation is not before the old one. -/
theorem nextAllowed_mono {a : Admission} (ha : 0 < a.minInterval) (now : Instant)
    (host : String) {host' : String} {state : AdmissionState} {slot : Instant}
    (hslot : state.nextAllowed.lookup host' = some slot) :
    ∃ slot', (a.tryEnter now host state).2.nextAllowed.lookup host' = some slot' ∧
      slot ≤ slot' := by
  rw [Admission.nextAllowed_tryEnter ha]
  by_cases heq : host' = host
  · subst heq
    refine ⟨_, AList.lookup_insert _, ?_⟩
    exact Nat.le_trans (Admission.nextAllowed_le_reserved ha hslot) (Nat.le_add_right _ _)
  · exact ⟨slot, (AList.lookup_insert_ne heq).trans hslot, Nat.le_refl _⟩

/-- A reservation keeps the invariant: the new slot is an interval after all slots of its host. -/
theorem Slotted.enter {a : Admission} (ha : 0 < a.minInterval) (h : Slotted a.minInterval s)
    {i : ℕ} {r : Retrieval} {host : String}
    {k : Option Instant → Program FetchOp (Except SafeFetchError FetchResult)}
    (hr : s.retrievals[i]? = some r) (hclock : r.pace.clock = s.now)
    (ht : t.retrievals =
      s.retrievals.set i (r.receive (.tryEnter host) k (a.tryEnter s.now host s.admission).1))
    (hadmission : t.admission = (a.tryEnter s.now host s.admission).2)
    (hstarts : t.starts = s.starts) : Slotted a.minInterval t := by
  obtain ⟨pre, post, hs, -, hset⟩ := slots_set hr
  -- the retrieval holds the reserved slot, or none where a limit is reached
  have hreservation : ∀ slot, (r.receive (.tryEnter host) k
      (a.tryEnter s.now host s.admission).1).pace.reservation = some slot →
      slot = ⟨host, s.now, a.reserved s.now host s.admission, r.pace.sent⟩ := by
    intro slot hslot
    rw [Retrieval.pace_receive] at hslot
    obtain ⟨startAt, hstart, rfl⟩ := Option.map_eq_some_iff.mp hslot
    rw [Admission.eq_reserved_of_tryEnter hstart, hclock]
  have hsub : (s.starts.filterMap Start.used ++ (pre ++ post)).Sublist s.slots := by
    rw [hs]
    exact List.Sublist.append_left (List.Sublist.append_left (List.sublist_append_right _ _) _) _
  have hnext : ∀ x ∈ s.slots, ∃ host' slot, x.1 = some host' ∧
      t.admission.nextAllowed.lookup host' = some slot ∧ x.2 + a.minInterval ≤ slot := by
    intro x hx
    obtain ⟨host', slot, hhost, hslot, hle⟩ := h.next x hx
    obtain ⟨slot', hslot', hmono⟩ := nextAllowed_mono ha s.now host hslot
    rw [hadmission]
    exact ⟨host', slot', hhost, hslot', Nat.le_trans hle hmono⟩
  have hentered := h.entered_set ht fun slot hslot => by
    rw [hreservation slot hslot]
    exact Admission.le_reserved
  have hall := hset t _ ht
  rw [hstarts, Retrieval.pending] at hall
  cases hunused : (r.receive (.tryEnter host) k
      (a.tryEnter s.now host s.admission).1).unused with
  | none =>
      rw [hunused] at hall
      have hall : t.slots = s.starts.filterMap Start.used ++ (pre ++ post) := hall
      refine ⟨hentered, ?_, ?_, hstarts ▸ h.started⟩
      · rw [hall]
        exact h.apart.sublist hsub
      · intro x hx
        rw [hall] at hx
        exact hnext x (hsub.subset hx)
  | some slot =>
      have hslot := hreservation slot hunused
      rw [hunused] at hall
      have hperm : t.slots.Perm
          ((some slot.host, slot.slot) :: (s.starts.filterMap Start.used ++ (pre ++ post))) := by
        rw [hall, ← List.append_assoc, ← List.append_assoc (s.starts.filterMap Start.used)]
        exact List.perm_middle
      refine ⟨hentered, ?_, ?_, hstarts ▸ h.started⟩
      · refine List.Pairwise.perm (List.pairwise_cons.mpr
          ⟨fun y hy heq => ?_, h.apart.sublist hsub⟩) hperm.symm Apart.symm
        obtain ⟨host', next, hhost, hlookup, hle⟩ := h.next y (hsub.subset hy)
        have hsame : host' = host := by
          rw [hslot, hhost] at heq
          exact (Option.some.inj heq).symm
        subst hsame
        right
        refine Nat.le_trans hle ?_
        rw [hslot]
        exact Admission.nextAllowed_le_reserved ha hlookup
      · intro x hx
        rcases List.mem_cons.mp (hperm.subset hx) with rfl | hx
        · refine ⟨host, a.reserved s.now host s.admission + a.minInterval, ?_, ?_, ?_⟩
          · rw [hslot]
          · rw [hadmission, Admission.nextAllowed_tryEnter ha, AList.lookup_insert]
          · rw [hslot]
        · exact hnext x (hsub.subset hx)

end Slots

/-- Every step keeps the invariant of the slots. -/
theorem slotted_of_step {fetcher : SafeFetcher} {s t : PacingState} {a : PacingAction}
    (hd : 0 < fetcher.config.perHostMinIntervalMs) (hkept : s.Kept lib fetcher)
    (h : Slotted fetcher.config.perHostMinIntervalMs s)
    (hstep : pacingStep lib fetcher s a = some t) :
    Slotted fetcher.config.perHostMinIntervalMs t := by
  cases pacingStep_move hstep with
  | begin request =>
      have hslots : ({ s with retrievals := s.retrievals ++
          [⟨s.now, [], (fetch lib fetcher request s.now).run, false⟩] } : PacingState).slots =
          s.slots := by
        rw [PacingState.slots, PacingState.slots, List.flatMap_append]
        exact congrArg _ (List.append_nil _)
      refine h.of_subperm (fun r hr => ?_) ?_ rfl h.started
      · rcases List.mem_append.mp hr with hr | hr
        · exact h.entered r hr
        · rw [List.mem_singleton.mp hr]
          intro slot hslot
          cases hslot
      · rw [hslots]
  | tick ms => exact ⟨h.entered, h.apart, h.next, h.started⟩
  | enter entered hr hrest hclock hentered =>
      subst hentered
      have hpaced : 0 < (Admission.ofConfig fetcher.config).minInterval := hd
      exact Slotted.enter hpaced h hr hclock rfl rfl rfl
  | start hr hnext hidle =>
      obtain ⟨hused, hstarted⟩ :=
        Retrieval.used_of_next hnext hidle (hkept _ (List.mem_of_getElem? hr))
      exact h.start hr hused hstarted rfl rfl rfl
  | receive hr hrest hslot ht hnext hstarts => exact h.receive hr hslot ht hnext hstarts
  | drop hr ht hnext hstarts => exact h.drop hr ht hnext hstarts

/-- **The slots of a host are spaced**, and a request that uses its slot starts one lookup after it,
in every run. -/
theorem slotted_of_reachable {fetcher : SafeFetcher} {s : PacingState}
    (hd : 0 < fetcher.config.perHostMinIntervalMs) (hs : (pacing lib fetcher).Reachable s) :
    Slotted fetcher.config.perHostMinIntervalMs s := by
  refine hs.invariant ?_ ?_
  · rintro s rfl
    refine ⟨fun r hr => ?_, List.Pairwise.nil, fun x hx => ?_, fun x hx => ?_⟩
    · cases hr
    · cases hx
    · cases hx
  · intro s a t hreach h hstep
    exact slotted_of_step hd (pacing_kept hreach) h hstep

/-! ### Starts -/

/-- A request follows an earlier one: both use their slots, in the order of the slots, and its
lookup was not the shorter one; or the code goes on with it an interval after the earlier one has
started. -/
def Start.Follows (d : ℕ) (y x : Start) : Prop :=
  (∃ slot ∈ y.slot, ∃ earlier ∈ x.slot, earlier ≤ slot ∧ x.lookup ≤ y.lookup) ∨
    x.instant + d + y.lookup ≤ y.instant

instance (d : ℕ) (y x : Start) : Decidable (y.Follows d x) :=
  inferInstanceAs (Decidable (_ ∨ _))

/-- The condition on a step: a request that starts follows every earlier one toward its host. -/
def FollowsAll (lib : UrlLib) (d : ℕ) (s : PacingState) : PacingAction → Prop
  | .start i => ∀ r ∈ s.retrievals[i]?, ∀ y ∈ r.next lib, ∀ x ∈ s.starts, x.host = y.host →
      y.Follows d x
  | _ => True

instance (lib : UrlLib) (d : ℕ) (s : PacingState) (a : PacingAction) :
    Decidable (FollowsAll lib d s a) :=
  match a with
  | .start i => inferInstanceAs (Decidable (∀ r ∈ s.retrievals[i]?, ∀ y ∈ r.next lib,
      ∀ x ∈ s.starts, x.host = y.host → y.Follows d x))
  | .begin _ | .tick _ | .enter _ | .leave _ | .wake _ | .lookup _ _ | .respond _ _
  | .httpDate _ _ | .body _ _ | .drop _ => inferInstanceAs (Decidable True)

section Starts

variable {fetcher : SafeFetcher} {d : ℕ} {s t : PacingState} {x y : Start}

/-- Two requests at their slots, which are spaced and come in this order. -/
theorem Slotted.le_of_slots (h : Slotted d s) (hd : 0 < d) (hx : x ∈ s.starts)
    (hlast : t.starts = s.starts ++ [y]) (ht : Slotted d t) (hhost : x.host = y.host)
    {slot earlier : Instant} (hslot : slot ∈ y.slot) (hearlier : earlier ∈ x.slot)
    (horder : earlier ≤ slot) (hlookup : x.lookup ≤ y.lookup) : x.instant + d ≤ y.instant := by
  have hslots : t.slots = s.starts.filterMap Start.used ++ ((y.host, slot) ::
      t.retrievals.flatMap Retrieval.pending) := by
    have hused : y.used = some (y.host, slot) := by
      rw [Start.used, Option.mem_def.mp hslot]
      rfl
    rw [PacingState.slots, hlast, List.filterMap_append, List.append_assoc,
      List.filterMap_cons_some hused]
    rfl
  have hmem : (x.host, earlier) ∈ s.starts.filterMap Start.used := by
    refine List.mem_filterMap.mpr ⟨x, hx, ?_⟩
    rw [Start.used, Option.mem_def.mp hearlier]
    rfl
  have happart := ht.apart
  rw [hslots, List.pairwise_append] at happart
  have hgap : earlier + d ≤ slot := by
    rcases happart.2.2 _ hmem _ List.mem_cons_self hhost with hle | hle
    · exact hle
    · exact absurd (Nat.le_trans hle horder) (Nat.not_le.mpr (Nat.lt_add_of_pos_right hd))
  have hy : y.instant = slot + y.lookup := by
    refine ht.started y ?_ slot hslot
    rw [hlast]
    exact List.mem_append_right _ (List.mem_singleton_self y)
  calc x.instant + d = earlier + x.lookup + d := by rw [h.started x hx earlier hearlier]
    _ = earlier + d + x.lookup := Nat.add_right_comm _ _ _
    _ ≤ slot + y.lookup := Nat.add_le_add hgap hlookup
    _ = y.instant := hy.symm

/-- Any two starts toward one host are at least `d` apart. -/
def Paced (d : ℕ) (s : PacingState) : Prop :=
  (s.starts.map Start.moment).Pairwise (Apart d)

/-- The steps that meet the condition keep the starts apart. -/
theorem paced_of_step (hd : 0 < fetcher.config.perHostMinIntervalMs)
    (hs : (pacing lib fetcher).Reachable s) (ht : (pacing lib fetcher).Reachable t)
    (h : Paced fetcher.config.perHostMinIntervalMs s)
    {a : PacingAction} (hstep : pacingStep lib fetcher s a = some t)
    (hfollows : FollowsAll lib fetcher.config.perHostMinIntervalMs s a) :
    Paced fetcher.config.perHostMinIntervalMs t := by
  have hslotted := slotted_of_reachable hd hs
  have hslotted' := slotted_of_reachable hd ht
  cases pacingStep_move hstep with
  | begin request => exact h
  | tick ms => exact h
  | enter entered hr hrest hclock hentered => exact h
  | @start i r y hr hnext hidle =>
      have hlater : ∀ x ∈ s.starts, x.host = y.host →
          x.instant + fetcher.config.perHostMinIntervalMs ≤ y.instant := by
        intro x hx hhost
        rcases hfollows r hr y hnext x hx hhost with
          ⟨slot, hslot, earlier, hearlier, horder, hlookup⟩ | hpassed
        · exact hslotted.le_of_slots hd hx rfl hslotted' hhost hslot hearlier horder hlookup
        · exact Nat.le_trans (Nat.le_add_right _ _) hpassed
      rw [Paced, List.map_append, List.pairwise_append]
      refine ⟨h, List.pairwise_singleton _ _, fun m hm n hn heq => ?_⟩
      obtain ⟨x, hx, rfl⟩ := List.mem_map.mp hm
      obtain rfl := List.mem_singleton.mp hn
      exact Or.inl (hlater x hx heq)
  | receive hr hrest hslot ht hnext hstarts =>
      rw [Paced, hstarts]
      exact h
  | drop hr ht hnext hstarts =>
      rw [Paced, hstarts]
      exact h

/-- **Requests that follow the earlier ones are paced.** In every run of any number of retrievals of
one fetcher in which every request that starts follows the earlier ones toward its host: any two
starts toward one host are at least the interval apart, and no retrieval waits for a slot past its
deadline. -/
theorem requests_paced (hd : 0 < fetcher.config.perHostMinIntervalMs)
    (hs : ((pacing lib fetcher).restrict
      (FollowsAll lib fetcher.config.perHostMinIntervalMs)).Reachable s) :
    Paced fetcher.config.perHostMinIntervalMs s ∧
      ∀ r ∈ s.retrievals, r.pace.reservation.isSome = true →
        ∀ (instant : Instant) (k : Unit → Program FetchOp (Except SafeFetchError FetchResult)),
          r.rest = .ask (.sleepUntil instant) k →
            instant < r.started + fetcher.config.totalTimeoutMs := by
  refine ⟨?_, ?_⟩
  · refine hs.invariant ?_ ?_
    · rintro s rfl
      exact List.Pairwise.nil
    · intro s a t hreach h hstep
      exact paced_of_step hd hreach.of_restrict (hreach.step hstep).of_restrict h hstep.1 hstep.2
  · intro r hr hslot instant k hrest
    exact pacing_waits hs.of_restrict hr hrest hslot

end Starts

/-! ### Example runs -/

/-- A fetcher that spaces the requests to a host by a second. -/
def pacedFetcher : SafeFetcher :=
  SafeFetcher.new { (ExtractorConfig.builtIn "").fetch with perHostMinIntervalMs := 1000 }

/-- A name is found at a public address. -/
def exampleAddresses (delay : ℕ) : Timed (Option (List SocketAddr)) :=
  ⟨delay, some [⟨.v4 ⟨93, 184, 216, 34⟩, 0⟩]⟩

/-- A server that asks to be left alone for three seconds. -/
def exampleBusy : Timed (Option Response) :=
  ⟨20, some ⟨503, exampleUrl, fun name => if name = "retry-after" then some "3" else none⟩⟩

/-- Three retrievals of one page. Two begin at once, the lookup of the second takes longer, and the
first one is told to come back; the third begins when that retry is over, and its lookup takes
longer still. -/
def pacedActions : List PacingAction :=
  [.begin ⟨"http://example.org/", none⟩, .begin ⟨"http://example.org/", none⟩, .enter 0, .enter 1,
    .tick 5, .lookup 0 (exampleAddresses 5), .start 0, .tick 20, .respond 0 exampleBusy, .tick 975,
    .wake 1, .tick 40, .lookup 1 (exampleAddresses 40), .start 1, .tick 1985, .wake 0, .tick 5,
    .lookup 0 (exampleAddresses 5), .start 0, .tick 1070, .begin ⟨"http://example.org/", none⟩,
    .enter 2, .tick 50, .lookup 2 (exampleAddresses 50), .start 2]

/-- Each of the four requests starts more than a second after the one before. -/
theorem requests_paced_retried : ∃ s,
    0 < pacedFetcher.config.perHostMinIntervalMs ∧
      ((pacing exampleLib pacedFetcher).restrict
        (FollowsAll exampleLib pacedFetcher.config.perHostMinIntervalMs)).Reachable s ∧
      s.starts = [⟨some "example.org", 5, some 0, 5⟩, ⟨some "example.org", 1040, some 1000, 40⟩,
        ⟨some "example.org", 3030, none, 5⟩, ⟨some "example.org", 4150, some 4100, 50⟩] ∧
      Paced pacedFetcher.config.perHostMinIntervalMs s := by
  have hexec : ((System.exec (fun s a =>
        if FollowsAll exampleLib pacedFetcher.config.perHostMinIntervalMs s a then
          pacingStep exampleLib pacedFetcher s a else none) .initial pacedActions).map
        PacingState.starts) =
      some [⟨some "example.org", 5, some 0, 5⟩, ⟨some "example.org", 1040, some 1000, 40⟩,
        ⟨some "example.org", 3030, none, 5⟩, ⟨some "example.org", 4150, some 4100, 50⟩] := by
    rfl
  obtain ⟨s, hs, hstarts⟩ := Option.map_eq_some_iff.mp hexec
  have hreach : ((pacing exampleLib pacedFetcher).restrict
      (FollowsAll exampleLib pacedFetcher.config.perHostMinIntervalMs)).Reachable s :=
    ⟨_, pacedActions, rfl, System.Run.of_exec_restrict hs⟩
  have hd : 0 < pacedFetcher.config.perHostMinIntervalMs := by decide
  exact ⟨s, hd, hreach, hstarts, (requests_paced hd hreach).1⟩

/-- A redirect: its server answers 20 milliseconds later with the address literal. -/
def exampleRedirect : Timed (Option Response) :=
  ⟨20, some ⟨302, exampleUrl, fun name =>
    if name = "location" then some "http://93.184.216.34/" else none⟩⟩

/-- A retrieval that is redirected to a literal address, and one that begins with it. -/
def redirectActions : List PacingAction :=
  [.begin ⟨"http://example.org/", none⟩, .enter 0, .tick 5, .lookup 0 (exampleAddresses 5),
    .start 0, .tick 15, .begin ⟨"http://93.184.216.34/", none⟩, .enter 1, .tick 5,
    .lookup 1 (exampleAddresses 5), .start 1, .respond 0 exampleRedirect, .leave 0, .enter 0,
    .tick 5, .lookup 0 (exampleAddresses 5), .start 0]

/-- The redirected retrieval requests the literal 5 milliseconds after the other one, though the
slot that it reserved is a second after. -/
theorem redirect_ignores_slot : ∃ s,
    0 < pacedFetcher.config.perHostMinIntervalMs ∧
      (pacing exampleLib pacedFetcher).Reachable s ∧
      s.starts.map Start.moment = [(some "example.org", 5), (some "93.184.216.34", 25),
        (some "93.184.216.34", 30)] ∧
      ¬ Paced pacedFetcher.config.perHostMinIntervalMs s := by
  have hexec : ((System.exec (pacingStep exampleLib pacedFetcher) .initial redirectActions).map
        fun s => s.starts.map Start.moment) =
      some [(some "example.org", 5), (some "93.184.216.34", 25), (some "93.184.216.34", 30)] := by
    rfl
  obtain ⟨s, hs, hstarts⟩ := Option.map_eq_some_iff.mp hexec
  refine ⟨s, by decide, ⟨_, redirectActions, rfl, System.Run.of_exec hs⟩, hstarts, fun h => ?_⟩
  rw [Paced, hstarts, List.pairwise_cons, List.pairwise_cons] at h
  have happart := h.2.1 _ List.mem_cons_self rfl
  rcases happart with h₁ | h₁
  · exact absurd h₁ (by decide)
  · exact absurd h₁ (by decide)

end Extractor
