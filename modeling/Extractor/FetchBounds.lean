import Extractor.FetchSafety
import Extractor.ResponseBody

/-!
# The work of one retrieval

One retrieval shares a counter of retries and a deadline over all of its hops. What it has done is
read off its exchanges alone: the requests it sent, the targets of the redirects it followed, the
time that its waits took, and whether one of them was given up. The loops keep that account within
what is left of the two budgets, and what a successful retrieval reports is that account.

## Main definitions

* `Account`: what a retrieval has done, from its exchanges.
* `reusePrior`, `Genuine`: where the result of a successful retrieval comes from.

## Main results

* `ensures_fetch_spent`: every point of every execution is on time and within the budgets.
* `fetch_bounded`: the same with the report, for every execution.
-/

namespace Extractor

open Program

/-! ### The account of a retrieval -/

/-- What a retrieval has done: when its last wait was over, whether that wait was given up, how many
requests it sent, to which URL the first one, whether the last answer is a redirect, the targets of
redirects that it requested, and how many hosts it left for the target of a redirect. -/
structure Account where
  clock : Instant
  late : Bool
  sends : ℕ
  first : Option Url
  redirected : Bool
  followed : List Url
  left : ℕ

/-- A wait for something that arrives at some instant, with a timer. -/
def Account.waited (a : Account) (arrival timer : Instant) : Account :=
  { a with clock := min arrival timer, late := a.late || decide (timer < arrival) }

/-- The account after one more exchange. -/
def Account.after (a : Account) : Exchange FetchOp → Account
  | ⟨.tryEnter _, _⟩ => a
  | ⟨.leave _, _⟩ => { a with left := a.left + 1 }
  | ⟨.sleepUntil instant, _⟩ => { a with clock := max a.clock instant }
  | ⟨.sleepUnder instant timer, _⟩ => a.waited instant timer
  | ⟨.lookup _ timer, answer⟩ => a.waited (a.clock + answer.delay) timer
  | ⟨.send url _ timer, answer⟩ =>
      { a.waited (a.clock + answer.delay) timer with
        sends := a.sends + 1
        first := some (a.first.getD url)
        redirected := answer.value.any fun response => isRedirect response.status
        followed := if a.redirected then a.followed ++ [url] else a.followed }
  | ⟨.httpDate _, _⟩ => a
  | ⟨.storeResponse _ _ timer, answer⟩ => a.waited (a.clock + answer.delay) timer
  | ⟨.reusePrior _ _ _ timer, answer⟩ => a.waited (a.clock + answer.delay) timer

/-- The account of a retrieval begun at `started`, after the history `h`. -/
def accountOf (started : Instant) (h : FetchTrace) : Account :=
  h.foldl Account.after ⟨started, false, 0, none, false, [], 0⟩

theorem accountOf_append (started : Instant) (h : FetchTrace) (x : Exchange FetchOp) :
    accountOf started (h ++ [x]) = (accountOf started h).after x := by
  rw [accountOf, List.foldl_append]
  rfl

/-- The timers of a retrieval that asks at the instant `now`: the deadline, for an answer also the
one of its first byte, and no sleep without a timer that passes the deadline. -/
def TimerSet (config : FetchConfig) (started now : Instant) {β : Type} : FetchOp β → Prop
  | .sleepUntil instant => instant < started + config.totalTimeoutMs
  | .send _ _ timer =>
      timer = min (started + config.totalTimeoutMs) (now + config.firstByteTimeoutMs)
  | .sleepUnder _ timer | .lookup _ timer | .storeResponse _ _ timer | .reusePrior _ _ _ timer =>
      timer = started + config.totalTimeoutMs
  | .tryEnter _ | .leave _ | .httpDate _ => True

/-- Every request is made by the deadline, with its timer, and none after a wait that was given
up. -/
def OnTime (config : FetchConfig) (started : Instant) : Condition FetchOp
  | h, _, e => (accountOf started h).late = false ∧
      (accountOf started h).clock ≤ started + config.totalTimeoutMs ∧
      TimerSet config started (accountOf started h).clock e

/-- A wait that is over by its timer. -/
theorem Account.waited_of_le {a : Account} {arrival timer : Instant} (h : arrival ≤ timer) :
    a.waited arrival timer = { a with clock := arrival } := by
  rw [waited, Nat.min_eq_left h, decide_eq_false (Nat.not_lt.mpr h), Bool.or_false]

/-- A transient status is not a redirect. -/
theorem isRedirect_of_transientStatus {status : ℕ} (h : transientStatus status = true) :
    isRedirect status = false := by
  simp only [transientStatus, List.contains_cons, List.contains_nil, Bool.or_false,
    Bool.or_eq_true, beq_iff_eq] at h
  rcases h with rfl | rfl | rfl | rfl | rfl | rfl <;> decide

/-! ### What the loops keep -/

/-- The account before an attempt on a URL: the redirects that led there are followed once it is
requested. -/
structure AtHop (config : FetchConfig) (started : Instant) (a : Account) (firstUrl url : Url)
    (redirects : List Url) (attempts : ℕ) (now : Instant) : Prop where
  late : a.late = false
  clock : a.clock = now
  deadline : now ≤ started + config.totalTimeoutMs
  sends : a.sends = attempts
  first : a.first.getD url = firstUrl
  followed : (if a.redirected then a.followed ++ [url] else a.followed) = redirects
  left : a.left = redirects.length

/-- The account after an attempt that was answered in time. -/
structure AtAnswer (config : FetchConfig) (started : Instant) (a : Account) (firstUrl : Url)
    (redirects : List Url) (attempts : ℕ) (answer : Option Response) (now : Instant) : Prop where
  late : a.late = false
  clock : a.clock = now
  deadline : now ≤ started + config.totalTimeoutMs
  sends : a.sends = attempts
  first : a.first = some firstUrl
  redirected : a.redirected = answer.any fun response => isRedirect response.status
  followed : a.followed = redirects
  left : a.left = redirects.length

/-- The account of a retrieval that fails: within the bounds, and late only where the error says
so. -/
structure Stopped (config : FetchConfig) (started : Instant) (a : Account) (sends left : ℕ)
    (e : SafeFetchError) : Prop where
  sends : a.sends ≤ sends
  left : a.left ≤ left
  followed : a.followed.length ≤ a.left
  clock : a.clock ≤ started + config.totalTimeoutMs
  late : a.late = true → e = .timeoutTotal ∨ e = .timeoutFirstByte

section Steps

variable {config : FetchConfig} {started : Instant} {a : Account} {firstUrl url : Url}
  {redirects : List Url} {attempts n m n' m' : ℕ} {now : Instant} {answer : Option Response}
  {e : SafeFetchError}

theorem Stopped.mono (h : Stopped config started a n m e) (hn : n ≤ n') (hm : m ≤ m') :
    Stopped config started a n' m' e :=
  ⟨Nat.le_trans h.sends hn, Nat.le_trans h.left hm, h.followed, h.clock, h.late⟩

theorem AtHop.followed_le (h : AtHop config started a firstUrl url redirects attempts now) :
    a.followed.length ≤ a.left := by
  rw [h.left, ← h.followed]
  split
  · rw [List.length_append]
    exact Nat.le_add_right _ _
  · exact Nat.le_refl _

theorem AtHop.stopped (h : AtHop config started a firstUrl url redirects attempts now) :
    Stopped config started a attempts redirects.length e where
  sends := Nat.le_of_eq h.sends
  left := Nat.le_of_eq h.left
  followed := h.followed_le
  clock := h.clock ▸ h.deadline
  late hlate := by
    rw [h.late] at hlate
    cases hlate

theorem AtAnswer.stopped (h : AtAnswer config started a firstUrl redirects attempts answer now) :
    Stopped config started a attempts redirects.length e where
  sends := Nat.le_of_eq h.sends
  left := Nat.le_of_eq h.left
  followed := Nat.le_of_eq (h.left ▸ congrArg List.length h.followed)
  clock := h.clock ▸ h.deadline
  late hlate := by
    rw [h.late] at hlate
    cases hlate

/-- A request with its timer may be made. -/
theorem AtHop.onTime (h : AtHop config started a firstUrl url redirects attempts now) {β : Type}
    {e : FetchOp β} (he : TimerSet config started now e) :
    a.late = false ∧ a.clock ≤ started + config.totalTimeoutMs ∧
      TimerSet config started a.clock e :=
  ⟨h.late, h.clock ▸ h.deadline, h.clock ▸ he⟩

theorem AtAnswer.onTime (h : AtAnswer config started a firstUrl redirects attempts answer now)
    {β : Type} {e : FetchOp β} (he : TimerSet config started now e) :
    a.late = false ∧ a.clock ≤ started + config.totalTimeoutMs ∧
      TimerSet config started a.clock e :=
  ⟨h.late, h.clock ▸ h.deadline, h.clock ▸ he⟩

/-- A wait, for less than the deadline allows, before the attempt. -/
theorem AtHop.waited (h : AtHop config started a firstUrl url redirects attempts now) {delay : ℕ}
    {timer : Instant} (hdelay : now + delay ≤ timer)
    (htimer : timer ≤ started + config.totalTimeoutMs) :
    AtHop config started (a.waited (a.clock + delay) timer) firstUrl url redirects attempts
      (now + delay) := by
  rw [h.clock, Account.waited_of_le hdelay]
  exact { h with clock := rfl, deadline := Nat.le_trans hdelay htimer }

/-- A wait after an answer, for less than the deadline allows. -/
theorem AtAnswer.waited (h : AtAnswer config started a firstUrl redirects attempts answer now)
    {delay : ℕ} (hdelay : now + delay ≤ started + config.totalTimeoutMs) :
    AtAnswer config started
      (a.waited (a.clock + delay) (started + config.totalTimeoutMs)) firstUrl redirects attempts
      answer (now + delay) := by
  rw [h.clock, Account.waited_of_le hdelay]
  exact { h with clock := rfl, deadline := hdelay }

/-- A wait that is given up, where the error says so. -/
theorem Stopped.waited (h : Stopped config started a n m e) {arrival timer : Instant}
    {e' : SafeFetchError} (htimer : timer ≤ started + config.totalTimeoutMs)
    (he' : e' = .timeoutTotal ∨ e' = .timeoutFirstByte) :
    Stopped config started (a.waited arrival timer) n m e' :=
  { h with clock := Nat.le_trans (Nat.min_le_right _ _) htimer, late := fun _ => he' }

/-- A request is answered in time. -/
theorem AtHop.sent (h : AtHop config started a firstUrl url redirects attempts now)
    {prior : Option CacheRecord} {answer : Timed (Option Response)} {timer : Instant}
    (hdelay : now + answer.delay ≤ timer) (htimer : timer ≤ started + config.totalTimeoutMs) :
    AtAnswer config started (a.after ⟨.send url prior timer, answer⟩) firstUrl redirects
      (attempts + 1) answer.value (now + answer.delay) := by
  have hwait := h.waited hdelay htimer
  rw [h.clock] at hwait
  rw [Account.after, h.clock]
  exact ⟨hwait.late, hwait.clock, hwait.deadline, congrArg (· + 1) h.sends, congrArg some h.first,
    rfl, h.followed, h.left⟩

/-- A request is given up. -/
theorem AtHop.unanswered (h : AtHop config started a firstUrl url redirects attempts now)
    {prior : Option CacheRecord} {answer : Timed (Option Response)} {timer : Instant}
    (htimer : timer ≤ started + config.totalTimeoutMs)
    (he : e = .timeoutTotal ∨ e = .timeoutFirstByte) :
    Stopped config started (a.after ⟨.send url prior timer, answer⟩) (attempts + 1)
      redirects.length e where
  sends := Nat.le_of_eq (congrArg (· + 1) h.sends)
  left := Nat.le_of_eq h.left
  followed := Nat.le_of_eq (h.left ▸ congrArg List.length h.followed)
  clock := Nat.le_trans (Nat.min_le_right _ _) htimer
  late _ := he

/-- Where the answer may be retried, another attempt on the same URL may follow. -/
theorem AtAnswer.atHop (h : AtAnswer config started a firstUrl redirects attempts answer now)
    (hretry : mayRetry answer = true) :
    AtHop config started a firstUrl url redirects attempts now where
  late := h.late
  clock := h.clock
  deadline := h.deadline
  sends := h.sends
  first := by rw [h.first, Option.getD_some]
  followed := by
    have hno : a.redirected = false := by
      rw [h.redirected]
      cases answer with
      | none => rfl
      | some response => exact isRedirect_of_transientStatus hretry
    rw [hno]
    exact h.followed
  left := h.left

/-- A wait until an instant that the deadline allows. -/
theorem AtHop.slept (h : AtHop config started a firstUrl url redirects attempts now)
    {instant : Instant} (hnow : now ≤ instant) (hinstant : instant ≤ started + config.totalTimeoutMs) :
    AtHop config started (a.after ⟨.sleepUntil instant, ()⟩) firstUrl url redirects attempts
      instant := by
  have hclock : max a.clock instant = instant := by
    rw [h.clock]
    exact Nat.max_eq_right hnow
  exact { h with clock := hclock, deadline := hinstant }

/-- A wait until an instant that its timer allows. -/
theorem AtHop.sleptUnder (h : AtHop config started a firstUrl url redirects attempts now)
    {instant timer : Instant} (hinstant : instant ≤ timer)
    (htimer : timer ≤ started + config.totalTimeoutMs) :
    AtHop config started (a.after ⟨.sleepUnder instant timer, ()⟩) firstUrl url redirects attempts
      instant := by
  rw [Account.after, Account.waited_of_le hinstant]
  exact { h with clock := rfl, deadline := Nat.le_trans hinstant htimer }

/-- The host of a hop is left for the one of the next target. -/
theorem AtAnswer.leave {response : Response} {host : String}
    (h : AtAnswer config started a firstUrl redirects attempts (some response) now)
    (hredirect : isRedirect response.status = true) :
    AtHop config started (a.after ⟨.leave host, ()⟩) firstUrl url (redirects ++ [url]) attempts
      now where
  late := h.late
  clock := h.clock
  deadline := h.deadline
  sends := h.sends
  first := (congrArg (Option.getD · url) h.first).trans (Option.getD_some ..)
  followed := by
    have hlast : a.redirected = true := h.redirected.trans hredirect
    have hfollowed := h.followed
    simp only [Account.after, hlast, hfollowed, if_true]
  left := by
    rw [List.length_append, List.length_singleton, ← h.left]
    rfl

end Steps

/-- The URLs that a retrieval has visited: the first one and the targets of its redirects, which are
all distinct. -/
structure Visited (lib : UrlLib) (context : FetchContext) (s : HopState) : Prop where
  distinct : ((context.normalizedUrl :: s.redirects).map lib.asStr).Nodup
  mem_iff : ∀ text, text ∈ s.visited ↔ text ∈ (context.normalizedUrl :: s.redirects).map lib.asStr

/-- One more URL, where it was not visited before. -/
theorem Visited.push {lib : UrlLib} {context : FetchContext} {s s' : HopState} {url : Url}
    (h : Visited lib context s) (hnew : lib.asStr url ∉ s.visited)
    (hvisited : s'.visited = lib.asStr url :: s.visited) (hredirects : s'.redirects = s.redirects ++ [url]) :
    Visited lib context s' where
  distinct := by
    rw [hredirects, ← List.cons_append, List.map_append]
    refine h.distinct.append (List.nodup_singleton _) ?_
    rw [List.map_singleton, List.disjoint_singleton]
    exact mt (h.mem_iff _).mpr hnew
  mem_iff text := by
    rw [hvisited, hredirects, ← List.cons_append, List.map_append, List.mem_append, List.mem_cons,
      h.mem_iff, List.map_singleton, List.mem_singleton, or_comm]

/-- The exchange whose answer is the result of a retrieval, for what the code knows by then. -/
def Concludes (context : ResponseContext) (fetched : FetchResult) : Exchange FetchOp → Prop
  | ⟨.storeResponse _ known _, answer⟩ => known = context ∧ answer.value = .ok fetched
  | ⟨.reusePrior _ known _ _, answer⟩ => known = context ∧ answer.value = .ok fetched
  | _ => False

/-- The account of a retrieval that succeeds is what the code knows. -/
structure Reported (lib : UrlLib) (config : FetchConfig) (started : Instant) (a : Account)
    (context : ResponseContext) : Prop where
  late : a.late = false
  clock : a.clock ≤ started + config.totalTimeoutMs
  sends : a.sends = context.attempts
  first : a.first = some context.normalizedUrl
  followed : a.followed = context.redirects
  left : a.left = context.redirects.length
  distinct : ((context.normalizedUrl :: context.redirects).map lib.asStr).Nodup

/-- A retrieval that ends within the bounds, and reports its account where it succeeds. -/
def Spent (lib : UrlLib) (config : FetchConfig) (started : Instant) (sends left : ℕ)
    (h : FetchTrace) : Except SafeFetchError FetchResult → Prop
  | .ok fetched => ∃ context, (∃ x ∈ h, Concludes context fetched x) ∧
      Reported lib config started (accountOf started h) context ∧
      context.attempts ≤ sends ∧ context.redirects.length ≤ left
  | .error e => Stopped config started (accountOf started h) sends left e

theorem Spent.mono {lib : UrlLib} {config : FetchConfig} {started : Instant} {n m n' m' : ℕ}
    {h : FetchTrace} {r : Except SafeFetchError FetchResult} (hr : Spent lib config started n m h r)
    (hn : n ≤ n') (hm : m ≤ m') : Spent lib config started n' m' h r := by
  cases r with
  | error e => exact Stopped.mono hr hn hm
  | ok fetched =>
      obtain ⟨context, hconcludes, hreported, hsends, hleft⟩ := hr
      exact ⟨context, hconcludes, hreported, Nat.le_trans hsends hn, Nat.le_trans hleft hm⟩

/-- A part of a retrieval returns with an account that it leaves, or the retrieval stops there. -/
def OrStopped {β : Type} (config : FetchConfig) (started : Instant) (sends left : ℕ)
    (P : Account → β → Prop) (h : FetchTrace) : Except SafeFetchError β → Prop
  | .ok b => P (accountOf started h) b
  | .error e => Stopped config started (accountOf started h) sends left e

section Exchanges

variable {β : Type} {config : FetchConfig} {started : Instant} {sends left : ℕ}
  {P : Account → β → Prop} {h : FetchTrace} {x : Exchange FetchOp}

/-- A part that returns after an exchange. -/
theorem orStopped_ok_append {b : β} :
    OrStopped config started sends left P (h ++ [x]) (.ok b) ↔
      P ((accountOf started h).after x) b := by
  rw [OrStopped, accountOf_append]

/-- A part that stops after an exchange. -/
theorem orStopped_error_append {e : SafeFetchError} :
    OrStopped config started sends left P (h ++ [x]) (.error e) ↔
      Stopped config started ((accountOf started h).after x) sends left e := by
  rw [OrStopped, accountOf_append]

end Exchanges

/-! ### The state machine -/

section Machine

variable {lib : UrlLib} {fetcher : SafeFetcher} {url : NormalizedUrl} {prior : Option CacheRecord}
  {started now : Instant} {h : FetchTrace} {firstUrl : Url} {redirects : List Url} {attempts : ℕ}

/-- The lookup is over by the deadline, or given up. -/
theorem ensures_spent_resolveBeforeSend
    (hhop : AtHop fetcher.config started (accountOf started h) firstUrl
      url.normalized redirects attempts now) :
    Ensures (OnTime fetcher.config started)
      (resolveBeforeSend lib url.normalized (started + fetcher.config.totalTimeoutMs) now).run h
      (OrStopped fetcher.config started attempts redirects.length fun a now' =>
        AtHop fetcher.config started a firstUrl url.normalized redirects attempts now') := by
  unfold resolveBeforeSend
  simp only [ensures_bind_except, ensures_okOr, ensures_call, ensures_require]
  cases url.normalized.hostStr lib with
  | none => exact hhop.stopped
  | some host =>
      refine ⟨hhop.onTime rfl, fun answer => ?_⟩
      split
      · next hdelay =>
          have hwait := hhop.waited hdelay (Nat.le_refl _)
          cases resolveHost answer.value with
          | ok addresses => exact orStopped_ok_append.mpr hwait
          | error e => cases e <;> exact orStopped_error_append.mpr hwait.stopped
      · refine orStopped_error_append.mpr ?_
        exact (hhop.stopped (e := .timeoutTotal)).waited (Nat.le_refl _) (.inl rfl)

/-- A request is answered in time, or given up. -/
theorem ensures_spent_send
    (hhop : AtHop fetcher.config started (accountOf started h) firstUrl
      url.normalized redirects attempts now) :
    Ensures (OnTime fetcher.config started)
      (do
        let firstByteDeadline := min (started + fetcher.config.totalTimeoutMs)
          (now + fetcher.config.firstByteTimeoutMs)
        let answer ← Program.call (.send url.normalized prior firstByteDeadline)
        require (now + answer.delay ≤ firstByteDeadline)
          (if firstByteDeadline = started + fetcher.config.totalTimeoutMs then
            SafeFetchError.timeoutTotal else .timeoutFirstByte)
        return (answer.value, now + answer.delay) : FetchM (Option Response × Instant)).run h
      (OrStopped fetcher.config started (attempts + 1) redirects.length fun a x =>
        AtAnswer fetcher.config started a firstUrl redirects (attempts + 1) x.1 x.2) := by
  simp only [ensures_bind_except, ensures_call, ensures_require]
  refine ⟨hhop.onTime rfl, fun answer => ?_⟩
  split
  · next hdelay => exact orStopped_ok_append.mpr (hhop.sent hdelay (Nat.min_le_left _ _))
  · refine orStopped_error_append.mpr (hhop.unanswered (Nat.min_le_left _ _) ?_)
    split
    · exact .inl rfl
    · exact .inr rfl

/-- One attempt sends at most one request, and exactly one where it returns. -/
theorem ensures_spent_attempt
    (hhop : AtHop fetcher.config started (accountOf started h) firstUrl
      url.normalized redirects attempts now) :
    Ensures (OnTime fetcher.config started)
      (attempt lib fetcher url prior (started + fetcher.config.totalTimeoutMs) now).run h
      (OrStopped fetcher.config started (attempts + 1) redirects.length fun a x =>
        AtAnswer fetcher.config started a firstUrl redirects (attempts + 1) x.1 x.2) := by
  unfold attempt
  dsimp only
  split
  · rw [ensures_bind_except]
    refine (ensures_spent_resolveBeforeSend hhop).imp ?_
    rintro h₁ (e | now₁) hpost
    · exact Stopped.mono hpost (Nat.le_succ attempts) (Nat.le_refl _)
    · exact ensures_spent_send hpost
  · exact ensures_spent_send hhop

/-- Reading the wait that a response asks for changes nothing. -/
theorem ensures_spent_retryAfterOf {answer : Option Response}
    (hanswered : AtAnswer fetcher.config started (accountOf started h) firstUrl
      redirects attempts answer now) :
    Ensures (OnTime fetcher.config started) (retryAfterOf answer).run h
      fun h' r => (∃ wait, r = .ok wait) ∧
        accountOf started h' = accountOf started h := by
  unfold retryAfterOf retryAfterAt
  split
  · exact ⟨⟨_, rfl⟩, rfl⟩
  · split
    · exact ⟨⟨_, rfl⟩, rfl⟩
    · split
      · exact ⟨⟨_, rfl⟩, rfl⟩
      · exact ⟨hanswered.onTime trivial, fun wait => ⟨⟨wait, rfl⟩, accountOf_append _ _ _⟩⟩

/-- The wait before a retry is over by the deadline, or given up. -/
theorem ensures_spent_sleepBeforeDeadline {delay : Instant}
    (hhop : AtHop fetcher.config started (accountOf started h) firstUrl
      url.normalized redirects attempts now) :
    Ensures (OnTime fetcher.config started)
      (sleepBeforeDeadline (started + fetcher.config.totalTimeoutMs) delay now).run h
      (OrStopped fetcher.config started attempts redirects.length fun a now' =>
        AtHop fetcher.config started a firstUrl url.normalized redirects attempts now') := by
  unfold sleepBeforeDeadline
  simp only [ensures_bind_except, ensures_require, ensures_call]
  refine ⟨hhop.onTime rfl, fun _ => ?_⟩
  split
  · next hdelay => exact orStopped_ok_append.mpr (hhop.sleptUnder hdelay (Nat.le_refl _))
  · refine orStopped_error_append.mpr ?_
    exact (hhop.stopped (e := .timeoutTotal)).waited (Nat.le_refl _) (.inl rfl)

/-- **The inner loop** stays within what is left of the retries. -/
theorem ensures_spent_sendLoop (retriesLeft : ℕ)
    (hhop : AtHop fetcher.config started (accountOf started h) firstUrl
      url.normalized redirects attempts now) :
    Ensures (OnTime fetcher.config started)
      (sendLoop lib fetcher url prior (started + fetcher.config.totalTimeoutMs) retriesLeft attempts
        now).run h
      (OrStopped fetcher.config started (attempts + retriesLeft + 1) redirects.length fun a sent =>
        AtAnswer fetcher.config started a firstUrl redirects sent.attempts (some sent.response)
            sent.now ∧
          sent.attempts + sent.retriesLeft ≤ attempts + retriesLeft + 1) := by
  induction retriesLeft generalizing attempts now h with
  | zero =>
      unfold sendLoop
      rw [ensures_bind_except]
      refine (ensures_spent_attempt hhop).imp ?_
      rintro h₁ (e | ⟨answer, now₁⟩) hpost
      · exact hpost
      · simp only [ensures_bind_except, ensures_okOr]
        cases answer with
        | none => exact hpost.stopped
        | some response => exact ⟨hpost, Nat.le_refl _⟩
  | succ retriesLeft ih =>
      have hbound : attempts + 1 ≤ attempts + (retriesLeft + 1) + 1 := by omega
      unfold sendLoop
      rw [ensures_bind_except]
      refine (ensures_spent_attempt hhop).imp ?_
      rintro h₁ (e | ⟨answer, now₁⟩) hpost
      · exact Stopped.mono hpost hbound (Nat.le_refl _)
      · dsimp only at hpost ⊢
        split
        · next hretry =>
            rw [ensures_bind_except]
            refine (ensures_spent_retryAfterOf hpost).imp ?_
            rintro h₂ _ ⟨⟨wait, rfl⟩, haccount⟩
            have hnext : AtHop fetcher.config started (accountOf started h₂) firstUrl
                url.normalized redirects (attempts + 1) now₁ := by
              rw [haccount]
              exact AtAnswer.atHop hpost hretry
            dsimp only
            rw [ensures_bind_except]
            refine (ensures_spent_sleepBeforeDeadline hnext).imp ?_
            rintro h₃ (e | now₂) hslept
            · exact Stopped.mono hslept hbound (Nat.le_refl _)
            · have hshift : attempts + 1 + retriesLeft + 1 = attempts + (retriesLeft + 1) + 1 := by
                omega
              exact hshift ▸ ih hslept
        · simp only [ensures_bind_except, ensures_okOr]
          cases answer with
          | none => exact hpost.stopped.mono hbound (Nat.le_refl _)
          | some response =>
              have hkept : attempts + 1 + (retriesLeft + 1) ≤ attempts + (retriesLeft + 1) + 1 := by
                omega
              exact ⟨hpost, hkept⟩

/-- A literal is checked without a request. -/
theorem ensures_spent_checkLiteral {enforced : Bool} :
    Ensures (OnTime fetcher.config started) (checkLiteral enforced url).run h
      fun h' _ => h' = h := by
  unfold checkLiteral
  split
  · rfl
  · rfl

/-- A redirect is followed to a URL that was not visited before. -/
theorem ensures_spent_followRedirect {context : FetchContext} {s : HopState} {sent : Sent}
    (hanswered : AtAnswer fetcher.config started (accountOf started h)
      context.normalizedUrl s.redirects sent.attempts (some sent.response) sent.now)
    (hredirect : isRedirect sent.response.status = true) (hvisited : Visited lib context s) :
    Ensures (OnTime fetcher.config started) (followRedirect lib fetcher context s sent).run h
      (OrStopped fetcher.config started sent.attempts (s.redirects.length + 1) fun a s' =>
        AtHop fetcher.config started a context.normalizedUrl s'.normalized.normalized s'.redirects
            s'.attempts s'.now ∧
          Visited lib context s' ∧ s'.redirects.length = s.redirects.length + 1 ∧
          s'.attempts = sent.attempts ∧ s'.retriesLeft = sent.retriesLeft) := by
  have hfailed : ∀ e, Stopped fetcher.config started (accountOf started h)
      sent.attempts (s.redirects.length + 1) e := fun e =>
    hanswered.stopped.mono (Nat.le_refl _) (Nat.le_succ _)
  unfold followRedirect
  simp only [ensures_bind_except, ensures_okOr, ensures_ofExcept]
  cases sent.response.header "location" with
  | none => exact hfailed _
  | some location =>
      dsimp only
      cases lib.join s.normalized.normalized location with
      | none => exact hfailed _
      | some next =>
          dsimp only
          cases normalize lib (lib.asStr next) fetcher.config.policy with
          | error e => exact hfailed _
          | ok normalized =>
              simp only [Except.mapError]
              refine ensures_spent_checkLiteral.imp ?_
              rintro h₁ (e | ⟨⟨⟩⟩) rfl
              · exact hfailed _
              · dsimp only
                cases normalized.normalized.hostStr lib with
                | none => exact hfailed _
                | some host =>
                    simp only [ensures_call, ensures_require]
                    have hleft : AtHop fetcher.config started
                        (accountOf started (h₁ ++ [⟨.leave s.host, ()⟩]))
                        context.normalizedUrl normalized.normalized
                        (s.redirects ++ [normalized.normalized]) sent.attempts sent.now := by
                      rw [accountOf_append]
                      exact hanswered.leave hredirect
                    refine ⟨hanswered.onTime trivial,
                      fun _ => ⟨hleft.onTime trivial, fun entered => ?_⟩⟩
                    have hentered : AtHop fetcher.config started
                        (accountOf started
                          (h₁ ++ [⟨.leave s.host, ()⟩] ++ [⟨.tryEnter host, entered⟩]))
                        context.normalizedUrl normalized.normalized
                        (s.redirects ++ [normalized.normalized]) sent.attempts sent.now := by
                      rw [accountOf_append]
                      exact hleft
                    have hrefused : ∀ e, Stopped fetcher.config started
                        (accountOf started
                          (h₁ ++ [⟨.leave s.host, ()⟩] ++ [⟨.tryEnter host, entered⟩]))
                        sent.attempts (s.redirects.length + 1) e := fun e =>
                      hentered.stopped.mono (Nat.le_refl _) (Nat.le_of_eq (List.length_append ..))
                    cases entered with
                    | none => exact hrefused _
                    | some startAt =>
                        dsimp only
                        split
                        · next hnew =>
                            exact ⟨hentered, hvisited.push hnew rfl rfl, List.length_append .., rfl,
                              rfl⟩
                        · exact hrefused _

/-- The step that reads the body is over by the deadline, or given up. -/
theorem spent_withinTotalDeadline {context : FetchContext} {s : HopState} {sent : Sent}
    {known : ResponseContext} {x : Exchange FetchOp}
    {answer : Timed (Except SafeFetchError FetchResult)}
    (hanswered : AtAnswer fetcher.config started (accountOf started h)
      context.normalizedUrl s.redirects sent.attempts (some sent.response) sent.now)
    (hvisited : Visited lib context s)
    (hknown : known = {
      originalUrl := context.originalUrl, normalizedUrl := context.normalizedUrl
      redirects := s.redirects, attempts := sent.attempts, started := context.started })
    (hafter : ∀ a : Account, a.after x =
      a.waited (a.clock + answer.delay) (started + fetcher.config.totalTimeoutMs))
    (hconcludes : ∀ fetched, answer.value = .ok fetched → Concludes known fetched x) :
    Spent lib fetcher.config started sent.attempts s.redirects.length (h ++ [x])
      (withinTotalDeadline (started + fetcher.config.totalTimeoutMs) sent.now answer) := by
  have haccount : accountOf started (h ++ [x]) =
      (accountOf started h).waited
        ((accountOf started h).clock + answer.delay)
        (started + fetcher.config.totalTimeoutMs) := by
    rw [accountOf_append, hafter]
  unfold withinTotalDeadline
  split
  · next hdelay =>
      have hwaited := hanswered.waited hdelay
      rw [← haccount] at hwaited
      cases hvalue : answer.value with
      | error e => exact hwaited.stopped
      | ok fetched =>
          refine ⟨known, ⟨x, List.mem_append_right _ (List.mem_singleton_self x),
            hconcludes fetched hvalue⟩, ?_, Nat.le_of_eq (by rw [hknown]),
            Nat.le_of_eq (by rw [hknown])⟩
          rw [hknown]
          exact ⟨hwaited.late, hwaited.clock ▸ hwaited.deadline, hwaited.sends, hwaited.first,
            hwaited.followed, hwaited.left, hvisited.distinct⟩
  · rw [Spent, haccount]
    exact (hanswered.stopped (e := .timeoutTotal)).waited (Nat.le_refl _) (.inl rfl)

/-- The end of a retrieval sends nothing. -/
theorem ensures_spent_conclude {context : FetchContext} {s : HopState} {sent : Sent}
    (hdeadline : context.deadline = started + fetcher.config.totalTimeoutMs)
    (hanswered : AtAnswer fetcher.config started (accountOf started h)
      context.normalizedUrl s.redirects sent.attempts (some sent.response) sent.now)
    (hvisited : Visited lib context s) :
    Ensures (OnTime fetcher.config started) (conclude context s sent).run h
      (Spent lib fetcher.config started sent.attempts s.redirects.length) := by
  unfold conclude
  dsimp only
  split
  · simp only [ensures_bind_except, ensures_okOr]
    cases context.prior with
    | none => exact hanswered.stopped
    | some prior =>
        simp only [ensures_call, ensures_ofExcept, hdeadline]
        exact ⟨hanswered.onTime rfl, fun answer => spent_withinTotalDeadline hanswered hvisited rfl
          (fun a => rfl) fun fetched hvalue => ⟨rfl, hvalue⟩⟩
  · simp only [ensures_bind_except, ensures_require, ensures_call, ensures_ofExcept, hdeadline]
    split
    · exact ⟨hanswered.onTime rfl, fun answer => spent_withinTotalDeadline hanswered hvisited rfl
        (fun a => rfl) fun fetched hvalue => ⟨rfl, hvalue⟩⟩
    · exact hanswered.stopped

/-- **The outer loop** stays within what is left of both budgets. -/
theorem ensures_spent_hopLoop {context : FetchContext}
    (hdeadline : context.deadline = started + fetcher.config.totalTimeoutMs) (redirectsLeft : ℕ)
    {s : HopState}
    (hhop : AtHop fetcher.config started (accountOf started h)
      context.normalizedUrl s.normalized.normalized s.redirects s.attempts s.now)
    (hvisited : Visited lib context s) :
    Ensures (OnTime fetcher.config started)
      (hopLoop lib fetcher context redirectsLeft s).run h
      (Spent lib fetcher.config started (s.attempts + s.retriesLeft + redirectsLeft + 1)
        (s.redirects.length + redirectsLeft)) := by
  induction redirectsLeft generalizing s h with
  | zero =>
      unfold hopLoop
      rw [ensures_bind_except, hdeadline]
      refine (ensures_spent_sendLoop _ hhop).imp ?_
      rintro h₁ (e | sent) hpost
      · exact hpost
      · obtain ⟨hanswered, hbound⟩ := hpost
        have hsends : sent.attempts ≤ s.attempts + s.retriesLeft + 0 + 1 := by omega
        dsimp only
        split
        · exact hanswered.stopped.mono hsends (Nat.le_refl _)
        · exact (ensures_spent_conclude hdeadline hanswered hvisited).imp fun h' r hr =>
            hr.mono hsends (Nat.le_refl _)
  | succ redirectsLeft ih =>
      unfold hopLoop
      rw [ensures_bind_except, hdeadline]
      refine (ensures_spent_sendLoop _ hhop).imp ?_
      rintro h₁ (e | sent) hpost
      · exact Stopped.mono hpost (by omega) (Nat.le_add_right _ _)
      · obtain ⟨hanswered, hbound⟩ := hpost
        have hsends : sent.attempts ≤ s.attempts + s.retriesLeft + (redirectsLeft + 1) + 1 := by
          omega
        dsimp only
        split
        · next hredirect =>
            rw [ensures_bind_except]
            refine (ensures_spent_followRedirect hanswered hredirect hvisited).imp ?_
            rintro h₂ (e | next) hnext
            · exact Stopped.mono hnext hsends (by omega)
            · obtain ⟨hnexthop, hnextvisited, hlength, hattempts, hretries⟩ := hnext
              exact (ih hnexthop hnextvisited).imp fun h' r hr => hr.mono (by omega) (by omega)
        · exact (ensures_spent_conclude hdeadline hanswered hvisited).imp fun h' r hr =>
            hr.mono hsends (Nat.le_add_right _ _)

/-- **A retrieval stays within its budgets.** -/
theorem ensures_fetch_spent (lib : UrlLib) (fetcher : SafeFetcher) (request : FetchRequest)
    (started : Instant) :
    Ensures (OnTime fetcher.config started) (fetch lib fetcher request started).run []
      (Spent lib fetcher.config started
        (fetcher.config.maxRedirects + 1 + fetcher.config.maxRetries)
        fetcher.config.maxRedirects) := by
  have hstart : ∀ url, AtHop fetcher.config started (accountOf started []) url url []
      0 started := fun url =>
    ⟨rfl, rfl, Nat.le_add_right _ _, rfl, rfl, rfl, rfl⟩
  have hfailed : ∀ h e, accountOf started h = accountOf started [] →
      Spent lib fetcher.config started
        (fetcher.config.maxRedirects + 1 + fetcher.config.maxRetries) fetcher.config.maxRedirects h
        (.error e) := by
    intro h e haccount
    rw [Spent, haccount]
    exact ⟨Nat.zero_le _, Nat.zero_le _, Nat.le_refl _, Nat.le_add_right _ _, fun hlate => nomatch hlate⟩
  unfold fetch fetchInner
  simp only [ensures_bind_except, ensures_ofExcept]
  cases normalize lib request.url fetcher.config.policy with
  | error e => exact hfailed [] _ rfl
  | ok normalized =>
      simp only [Except.mapError, ensures_okOr]
      cases lib.parse normalized.original with
      | none => exact hfailed [] _ rfl
      | some originalUrl =>
          dsimp only
          refine ensures_spent_checkLiteral.imp ?_
          rintro h₁ (e | ⟨⟨⟩⟩) rfl
          · exact hfailed [] _ rfl
          · dsimp only
            cases normalized.normalized.hostStr lib with
            | none => exact hfailed [] _ rfl
            | some host =>
                simp only [ensures_call]
                refine ⟨(hstart normalized.normalized).onTime trivial, fun entered => ?_⟩
                cases entered with
                | none => exact hfailed _ _ rfl
                | some slot =>
                    -- the loop, once the slot is there
                    have hloop : ∀ h₂ context s,
                        context.deadline = started + fetcher.config.totalTimeoutMs →
                        s.attempts = 0 → s.redirects = [] →
                        s.retriesLeft = fetcher.config.maxRetries →
                        AtHop fetcher.config started (accountOf started h₂)
                          context.normalizedUrl s.normalized.normalized s.redirects s.attempts s.now →
                        Visited lib context s →
                        Ensures (OnTime fetcher.config started)
                          (hopLoop lib fetcher context fetcher.config.maxRedirects s).run h₂
                          (Spent lib fetcher.config started
                            (fetcher.config.maxRedirects + 1 + fetcher.config.maxRetries)
                            fetcher.config.maxRedirects) := by
                      intro h₂ context s hdeadline hattempts hredirects hretries hhop hvisited
                      refine (ensures_spent_hopLoop hdeadline _ hhop hvisited).imp fun h' r hr => ?_
                      exact hr.mono (by rw [hattempts, hretries]; omega) (by rw [hredirects]; simp)
                    have hvisited : ∀ (context : FetchContext) (s : HopState),
                        s.visited = [lib.asStr context.normalizedUrl] → s.redirects = [] →
                        Visited lib context s := by
                      intro context s hvisited hredirects
                      refine ⟨?_, fun text => ?_⟩
                      · rw [hredirects]
                        exact List.nodup_singleton _
                      · rw [hvisited, hredirects]
                        exact Iff.rfl
                    dsimp only
                    unfold waitForSlot
                    split
                    · next hwait =>
                        simp only [ensures_bind_except, ensures_require, ensures_call]
                        split
                        · next hlimit =>
                            refine ⟨(hstart normalized.normalized).onTime hlimit, fun _ => ?_⟩
                            refine hloop _ _ _ rfl rfl rfl rfl ?_ (hvisited _ _ rfl rfl)
                            exact (hstart _).slept (Nat.le_of_lt hwait) (Nat.le_of_lt hlimit)
                        · exact hfailed _ _ rfl
                    · exact hloop _ _ _ rfl rfl rfl rfl (hstart _) (hvisited _ _ rfl rfl)

end Machine

/-! ### The report -/

/-- `reuse_prior`, where `verified` is what `BlobStore::verify` says about the prior artifact. -/
def reusePrior (verified : Except BlobStoreError Unit) (response : Response)
    (context : ResponseContext) (totalDuration : ℕ) (prior : CacheRecord) :
    Except SafeFetchError FetchResult := do
  verified.mapError fun _ => SafeFetchError.cacheIntegrity
  return {
    artifact := prior.artifact
    finalUrl := response.url
    status := response.status
    wireBytes := 0
    decodedBytes := prior.artifact.lengthBytes
    mediaType := prior.artifact.mediaType
    metadata := {
      originalUrl := context.originalUrl
      normalizedUrl := context.normalizedUrl
      redirects := context.redirects
      declaredMediaType := none
      effectiveMediaType := prior.artifact.mediaType
      contentEncoding := none
      etag := (response.header "etag").or prior.etag
      lastModified := (response.header "last-modified").or prior.lastModified
      cacheControl := (response.header "cache-control").or prior.cacheControl
      attempts := context.attempts
      totalDuration := totalDuration
      cacheOutcome := .revalidated } }

/-- An answer that the code gives: the result of an execution of `store_response` over the files of
the store, or of `reuse_prior`. -/
def Genuine (lib : BlobLib) (owner : String) (config : FetchConfig) : Exchange FetchOp → Prop
  | ⟨.storeResponse response context _, answer⟩ => ∀ fetched, answer.value = .ok fetched →
      ∃ first rest totalDuration files tr files' s, ExecBeside Swept (storeEffect lib)
        (storeResponse lib owner config response context first rest totalDuration).run files tr files'
        (.ok (fetched, s))
  | ⟨.reusePrior response context prior _, answer⟩ => ∃ verified totalDuration,
      answer.value = reusePrior verified response context totalDuration prior
  | _ => True

section Report

variable {blobLib : BlobLib} {owner : String} {config : FetchConfig} {context : ResponseContext}
  {fetched : FetchResult} {x : Exchange FetchOp}

/-- A result reports what the code knew when it asked for it. -/
theorem Concludes.report (hconcludes : Concludes context fetched x)
    (hgenuine : Genuine blobLib owner config x) :
    fetched.metadata.attempts = context.attempts ∧ fetched.metadata.redirects = context.redirects ∧
      fetched.metadata.normalizedUrl = context.normalizedUrl := by
  obtain ⟨e, answer⟩ := x
  cases e with
  | storeResponse response known timer =>
      obtain ⟨rfl, hvalue⟩ := hconcludes
      obtain ⟨first, rest, totalDuration, files, tr, files', s, hexec⟩ := hgenuine fetched hvalue
      obtain ⟨⟨r, hr, -⟩, -⟩ := ensures_storeResponse.exec hexec.exec
      cases r with
      | error e => cases hr
      | ok q =>
          obtain ⟨rfl, -⟩ := Prod.mk.inj (Except.ok.inj hr)
          exact ⟨rfl, rfl, rfl⟩
  | reusePrior response known prior timer =>
      obtain ⟨rfl, hvalue⟩ := hconcludes
      obtain ⟨verified, totalDuration, hreuse⟩ := hgenuine
      rw [hvalue] at hreuse
      cases verified with
      | error e => cases hreuse
      | ok u =>
          obtain rfl := Except.ok.inj hreuse
          exact ⟨rfl, rfl, rfl⟩
  | tryEnter | leave | sleepUntil | sleepUnder | lookup | send | httpDate => cases hconcludes

end Report

/-- Every wait ends by the deadline: every request is made by it, with its timer and with no wait
given up before; the last wait is over by it; and a wait that is given up makes the retrieval fail
with a timeout. -/
structure WithinDeadline (config : FetchConfig) (started : Instant) (tr : FetchTrace)
    (result : Except SafeFetchError FetchResult) : Prop where
  begun : ∀ pre post x, tr = pre ++ x :: post → (accountOf started pre).late = false ∧
    (accountOf started pre).clock ≤ started + config.totalTimeoutMs
  timed : ∀ pre post x, tr = pre ++ x :: post →
    TimerSet config started (accountOf started pre).clock x.request
  ended : (accountOf started tr).clock ≤ started + config.totalTimeoutMs
  cut : (accountOf started tr).late = true →
    result = .error .timeoutTotal ∨ result = .error .timeoutFirstByte

/-- The requests and the redirects of a retrieval are within its limits. -/
structure WithinLimits (config : FetchConfig) (a : Account) : Prop where
  sends : a.sends ≤ config.maxRedirects + 1 + config.maxRetries
  left : a.left ≤ config.maxRedirects
  followed : a.followed.length ≤ a.left

/-- A result reports the account of its retrieval, and no URL in it occurs twice. -/
structure ReportsAccount (lib : UrlLib) (a : Account) (fetched : FetchResult) : Prop where
  attempts : fetched.metadata.attempts = a.sends
  redirects : fetched.metadata.redirects = a.followed
  left : fetched.metadata.redirects.length = a.left
  first : some fetched.metadata.normalizedUrl = a.first
  distinct : ((fetched.metadata.normalizedUrl :: fetched.metadata.redirects).map lib.asStr).Nodup

/-- **The work of one retrieval is bounded**, in every execution: for every configuration, every
server, every resolver and every wait that a response asks for. A retrieval that succeeds reports
what it has done. -/
theorem fetch_bounded (lib : UrlLib) (config : FetchConfig) (request : FetchRequest)
    (started : Instant) {tr : FetchTrace} {result : Except SafeFetchError FetchResult}
    (hexec : Exec (fetch lib (SafeFetcher.new config) request started).run tr result) :
    WithinLimits config (accountOf started tr) ∧
      WithinDeadline config started tr result ∧
      ∀ blobLib owner fetched, result = .ok fetched → (∀ x ∈ tr, Genuine blobLib owner config x) →
        ReportsAccount lib (accountOf started tr) fetched := by
  have hfetch : Ensures (OnTime config started)
      (fetch lib (SafeFetcher.new config) request started).run []
      (Spent lib config started (config.maxRedirects + 1 + config.maxRetries) config.maxRedirects) :=
    ensures_fetch_spent lib (SafeFetcher.new config) request started
  obtain ⟨hspent, hontime⟩ := hfetch.exec hexec
  have hbegun := fun pre post x heq =>
    And.intro (hontime pre post x heq).1 (hontime pre post x heq).2.1
  have htimed := fun pre post x heq => (hontime pre post x heq).2.2
  cases result with
  | error e =>
      have hstopped : Stopped config started (accountOf started tr)
        (config.maxRedirects + 1 + config.maxRetries) config.maxRedirects e := hspent
      refine ⟨⟨hstopped.sends, hstopped.left, hstopped.followed⟩,
        ⟨hbegun, htimed, hstopped.clock, fun hlate => ?_⟩,
        fun blobLib owner fetched heq => nomatch heq⟩
      rcases hstopped.late hlate with rfl | rfl
      · exact .inl rfl
      · exact .inr rfl
  | ok fetched =>
      obtain ⟨context, ⟨x, hx, hconcludes⟩, hreported, hsends, hleft⟩ := hspent
      have haccount : Reported lib config started (accountOf started tr) context := hreported
      refine ⟨⟨haccount.sends ▸ hsends, haccount.left ▸ hleft, ?_⟩,
        ⟨hbegun, htimed, haccount.clock, fun hlate => ?_⟩,
        fun blobLib owner fetched' heq hgenuine => ?_⟩
      · rw [haccount.left, haccount.followed]
      · rw [haccount.late] at hlate
        cases hlate
      · cases heq
        obtain ⟨hattempts, hredirects, hnormalized⟩ := hconcludes.report (hgenuine x hx)
        exact ⟨hattempts.trans haccount.sends.symm, hredirects.trans haccount.followed.symm,
          hredirects ▸ haccount.left.symm, hnormalized ▸ haccount.first.symm,
          by rw [hnormalized, hredirects]; exact haccount.distinct⟩

/-- A server that redirects to the literal, where the prior bytes are still good. -/
def revalidatingAnswers : ℕ → {β : Type} → FetchOp β → β
  | _, _, .tryEnter _ => some 0
  | _, _, .leave _ => ()
  | _, _, .sleepUntil _ => ()
  | _, _, .sleepUnder _ _ => ()
  | _, _, .lookup _ _ => ⟨5, some [⟨.v4 ⟨93, 184, 216, 34⟩, 0⟩]⟩
  | n, _, .send url _ _ =>
      if n = 2 then ⟨20, some ⟨302, url, fun name =>
        if name = "location" then some "http://93.184.216.34/" else none⟩⟩
      else ⟨20, some ⟨304, url, fun _ => none⟩⟩
  | _, _, .httpDate _ => none
  | _, _, .storeResponse _ _ _ => ⟨0, .error .timeoutReadIdle⟩
  | _, _, .reusePrior response context prior _ =>
      ⟨3, reusePrior (.ok ()) response context 53 prior⟩

/-- The retrieval of the public name, with bytes from before. -/
def exampleRevalidation : FetchM FetchResult :=
  fetch exampleLib (SafeFetcher.new smallLimits)
    ⟨"http://example.org/", some ⟨blobRefOf smallBlobLib producer "text/plain" smallArtifact, none,
      none, none⟩⟩ 0

/-- A retrieval that follows one redirect and reports two attempts. -/
theorem fetch_bounded_revalidated : ∃ tr fetched,
    Exec exampleRevalidation.run tr (.ok fetched) ∧ fetched.metadata.attempts = 2 ∧
      fetched.metadata.redirects.length = 1 ∧
      ReportsAccount exampleLib (accountOf 0 tr) fetched := by
  have hexec := exec_run revalidatingAnswers exampleRevalidation.run 0
  obtain ⟨fetched, hfetched, hattempts, hredirects⟩ : ∃ fetched,
      (exampleRevalidation.run.run revalidatingAnswers 0).2 = .ok fetched ∧
        fetched.metadata.attempts = 2 ∧ fetched.metadata.redirects.length = 1 := ⟨_, rfl, rfl, rfl⟩
  have hgenuine : ∀ x ∈ (exampleRevalidation.run.run revalidatingAnswers 0).1,
      Genuine smallBlobLib producer smallLimits x := by
    rintro ⟨e, answer⟩ hx
    obtain ⟨n, hn⟩ := answer_of_mem_run hx
    cases e with
    | storeResponse response context timer =>
        obtain rfl : answer = ⟨0, .error .timeoutReadIdle⟩ := hn
        exact fun fetched hvalue => nomatch hvalue
    | reusePrior response context prior timer =>
        obtain rfl : answer = ⟨3, reusePrior (.ok ()) response context 53 prior⟩ := hn
        exact ⟨.ok (), 53, rfl⟩
    | tryEnter | leave | sleepUntil | sleepUnder | lookup | send | httpDate => trivial
  rw [hfetched] at hexec
  exact ⟨_, fetched, hexec, hattempts, hredirects,
    (fetch_bounded _ _ _ _ hexec).2.2 smallBlobLib producer fetched rfl hgenuine⟩

end Extractor
