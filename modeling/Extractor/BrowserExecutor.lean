import Mathlib.Data.List.Nodup
import Extractor.BrowserWorker
import Extractor.UrlRouting

/-!
# The browser executor

`ChromiumExecutor` of `services/browser-worker/src/executor.rs`. Two tasks share a page: the one
that renders, and the one that `install_interception` spawns, which decides about every request
that the browser pauses. The browser asks for what it wants at any time, commands to it can fail
with and without having been applied, and the total timeout drops the rendering task at any point
while the other task lives on.

## Main results

* `navigationAllowed_spec`: what the policy asks, and what it lets through.
* `executorInv_of_reachable`: the invariant of the two tasks.
* `executor_mediates`: nothing reaches the network unchecked, and what a result is evidence of.
* `handleDelivery_evidence`: a delivery publishes what its own exchanges are evidence of.
* `worker_publishes_rendered`: what the worker publishes when its renderings come from the
  executor.
-/

namespace Extractor

namespace BrowserWorker

/-! ### The policy -/

/-- `NavigationPolicy`. -/
structure NavigationPolicy where
  routing : RoutingPolicy
  allowLoopback : Bool

/-- `NavigationPolicy::default`. -/
def NavigationPolicy.standard : NavigationPolicy := ⟨⟨8192, [80, 443]⟩, false⟩

/-- What `navigation_allowed` asks the system resolver. -/
inductive Resolution : Type → Type
  /-- `lookup_host`. -/
  | lookup (host : String) : Resolution (Option (List SocketAddr))

open Program (request)

/-- `navigation_allowed`. -/
def navigationAllowed (lib : UrlLib) (policy : NavigationPolicy) (url : String) :
    Program Resolution Bool :=
  match normalize lib url policy.routing with
  | .error _ => return false
  | .ok normalized =>
      match normalized.normalized.hostStr lib with
      | none => return false
      | some host =>
          if policy.allowLoopback && ["localhost", "127.0.0.1", "[::1]"].contains host then
            return true
          else do
            let answer ← request (.lookup host)
            match resolveHost answer with
            | .ok addresses =>
                return addresses.all fun address =>
                  match validateAddress address.ip with
                  | .ok () => true
                  | .error _ => false
            | .error _ => return false

/-- What a check in production asks: nothing of an address that cannot be normalized, and otherwise
for its host, where it passes on permitted addresses only. -/
theorem navigationAllowed_spec {lib : UrlLib} {policy : NavigationPolicy} {url : String}
    {asked : Program.Trace Resolution} {allowed : Bool} (hpolicy : policy.allowLoopback = false)
    (h : Program.Exec (navigationAllowed lib policy url) asked allowed) :
    (allowed = false ∧ asked = [] ∧ ∀ n, normalize lib url policy.routing ≠ .ok n) ∨
    ∃ n host answer, normalize lib url policy.routing = .ok n ∧
      n.normalized.hostStr lib = some host ∧ asked = [⟨.lookup host, answer⟩] ∧
      (allowed = true ↔ ∃ addresses, answer = some addresses ∧ addresses ≠ [] ∧
        ∀ a ∈ addresses, validateAddress a.ip = .ok ()) := by
  unfold navigationAllowed at h
  cases hnormal : normalize lib url policy.routing with
  | error e =>
      rw [hnormal] at h
      obtain ⟨rfl, rfl⟩ := Program.exec_done_iff.mp h
      exact Or.inl ⟨rfl, rfl, fun n hn => by cases hn⟩
  | ok n =>
      rw [hnormal] at h
      dsimp only at h
      obtain ⟨-, hsome, -⟩ := normalize_spec hnormal
      obtain ⟨parsed, hparsed⟩ := Option.isSome_iff_exists.mp hsome
      cases hhost : n.normalized.hostStr lib with
      | none =>
          rw [Url.hostStr, hparsed] at hhost
          cases hhost
      | some host =>
          rw [hhost] at h
          dsimp only at h
          rw [hpolicy, Bool.false_and, if_neg Bool.false_ne_true] at h
          obtain ⟨_, _, answer, rfl, hask, hrest⟩ := Program.exec_bind_iff.mp h
          cases hask with
          | ask _ _ _ hdone =>
              obtain ⟨rfl, rfl⟩ := Program.exec_done_iff.mp hdone
              refine Or.inr ⟨n, host, answer, rfl, hhost, ?_⟩
              cases hresolve : resolveHost answer with
              | error e =>
                  rw [hresolve] at hrest
                  obtain ⟨rfl, rfl⟩ := Program.exec_done_iff.mp hrest
                  refine ⟨rfl, iff_of_false Bool.false_ne_true ?_⟩
                  rintro ⟨addresses, hanswer⟩
                  rw [resolveHost_eq_ok_iff.mpr hanswer] at hresolve
                  cases hresolve
              | ok addresses =>
                  rw [hresolve] at hrest
                  obtain ⟨rfl, rfl⟩ := Program.exec_done_iff.mp hrest
                  have hanswer := resolveHost_eq_ok_iff.mp hresolve
                  refine ⟨rfl, iff_of_true ?_ ⟨addresses, hanswer⟩⟩
                  refine List.all_eq_true.mpr fun a ha => ?_
                  rw [hanswer.2.2 a ha]

/-! ### The browser -/

/-- The kinds of resources that the code distinguishes. -/
inductive ResourceType
  | document
  | image
  | font
  | media
  | other
  deriving DecidableEq

/-- A request of the page. -/
structure PageRequest where
  id : ℕ
  url : String
  resourceType : ResourceType
  deriving DecidableEq

/-- `is_heavy`. -/
def PageRequest.isHeavy (r : PageRequest) : Bool :=
  [ResourceType.image, .font, .media].contains r.resourceType

/-- `ExecutorError`. -/
inductive ExecutorError
  | browserUnavailable (error : String)
  | budget (failureClass : RenderFailureClass)
  | policyBlocked
  | invalidLaunchConfig (error : String)
  deriving DecidableEq

/-- `WorkerError::from`. -/
def ExecutorError.toWorkerError : ExecutorError → WorkerError
  | .browserUnavailable _ => .failed .browserUnavailable
  | .budget failureClass => .failed failureClass
  | .policyBlocked => .failed .policyBlocked
  | .invalidLaunchConfig _ => .failed .browserUnavailable

/-- How far `ChromiumExecutor::render` is. -/
inductive RenderPhase
  /-- Checking the address of the command. -/
  | checking
  | creatingContext
  | creatingPage
  | installing
  /-- The page is ready; the responses are about to be listened to. -/
  | prepared
  | navigating
  /-- `policy_violated` is about to be read. -/
  | settled
  | readingContent
  /-- The address of the page is asked for. -/
  | locating (dom : List UInt8)
  | readingHops (dom : List UInt8) (finalUrl : String)
  | readingBlocked (dom : List UInt8) (finalUrl : String) (hops : List RedirectHop)
  /-- `render_in_context` returned. -/
  | disposing (result : Except ExecutorError RenderOutcome)
  | finished (result : Except ExecutorError RenderOutcome)

/-- How far the task of `install_interception` is. -/
inductive Interceptor
  /-- It was not spawned. -/
  | absent
  /-- It waits for the next paused request. -/
  | waiting
  | checking (r : PageRequest)
  /-- `deny_request`. -/
  | denying (r : PageRequest)
  /-- `policy_violated` is about to be set. -/
  | marking
  /-- `deny`, for a heavy request. -/
  | shedding (r : PageRequest)
  /-- `blocked` is about to be incremented. -/
  | counting (r : PageRequest)
  | continuing (r : PageRequest)
  /-- The event stream ended. -/
  | ended

/-- The request that the interceptor works on. -/
def Interceptor.current : Interceptor → Option PageRequest
  | .checking r | .denying r | .shedding r | .counting r | .continuing r => some r
  | .absent | .waiting | .marking | .ended => none

/-- A check of a request: what the resolver was asked and answered, and the verdict. -/
structure Check where
  request : PageRequest
  asked : Program.Trace Resolution
  allowed : Bool

/-- The page, as the browser and the interceptor see it. -/
structure PageState where
  interceptor : Interceptor
  /-- The fetch domain is enabled: requests are paused. -/
  enabled : Bool
  /-- The page was told to load the address. -/
  started : Bool
  /-- Events that the interceptor has not taken. -/
  events : List PageRequest
  /-- The requests that the page has made. -/
  made : List PageRequest
  /-- Paused requests. -/
  held : List PageRequest
  /-- Requests that went to the network. -/
  released : List PageRequest
  /-- Requests that the browser was told to fail. -/
  failed : List PageRequest
  /-- Requests for which the browser did not apply the command that the interceptor sent last. -/
  unapplied : List PageRequest
  /-- The checks that the interceptor has made. -/
  checks : List Check
  blocked : ℕ
  violated : Bool
  hops : List RedirectHop

/-- The two tasks and the browser. -/
structure ExecutorState where
  phase : RenderPhase
  /-- The check of the command's address, once it is made. -/
  prechecked : Option (Program.Trace Resolution × Bool)
  /-- The context exists. -/
  contextOpen : Bool
  /-- The identifier of the context was received. -/
  contextKnown : Bool
  /-- `DisposeBrowserContext` was sent. -/
  disposed : Bool
  page : PageState

/-- How a command to the browser ends. -/
inductive Reply
  | done
  /-- It is applied, and the answer is lost. -/
  | unanswered
  | rejected
  deriving DecidableEq

/-- The answer is a success. -/
def Reply.succeeded : Reply → Bool
  | .done => true
  | .unanswered | .rejected => false

/-- The request of a command that is not applied. -/
def Reply.unapplied (r : PageRequest) : Reply → List PageRequest
  | .done | .unanswered => []
  | .rejected => [r]

namespace PageState

/-- `FailRequest`. -/
def fail (s : PageState) (r : PageRequest) : Reply → PageState
  | .rejected => s
  | .done | .unanswered => { s with held := s.held.erase r, failed := s.failed ++ [r] }

/-- `ContinueRequest`. -/
def release (s : PageState) (r : PageRequest) : Reply → PageState
  | .rejected => s
  | .done | .unanswered => { s with held := s.held.erase r, released := s.released ++ [r] }

end PageState

/-- Before `render` is called. -/
def executorStart : ExecutorState :=
  ⟨.checking, none, false, false, false,
    ⟨.absent, false, false, [], [], [], [], [], [], [], 0, false, []⟩⟩

/-! ### The steps -/

/-- What happens on the page. -/
inductive PageLabel
  /-- The page makes a request. -/
  | request
  /-- A response is logged. -/
  | respond
  | next
  | check
  | deny
  | mark
  | shed
  | count
  | continue
  /-- The event stream ends. -/
  | streamEnds
  deriving DecidableEq

/-- What may happen next. -/
inductive ExecutorLabel
  /-- `render_once` checks the address of the command. -/
  | precheck
  | createContext
  | createPage
  | install
  | goto
  | page (a : PageLabel)
  | settle
  | readFlag
  | content
  | locate
  | readHops
  | readBlocked
  | dispose
  | totalTimeout

section Steps

variable (lib : UrlLib) (policy : NavigationPolicy) (command : RenderCommand)

/-- One step of the interceptor or of the browser. A request is failed or continued only while it
is paused. -/
inductive PageStep : PageState → PageLabel → PageState → Prop
  | request {s : PageState} (r : PageRequest) (hstarted : s.started = true) (hnew : r ∉ s.made) :
      PageStep s .request
        (if s.enabled then
          { s with made := s.made ++ [r], events := s.events ++ [r], held := s.held ++ [r] }
        else { s with made := s.made ++ [r], released := s.released ++ [r] })
  | respond {s : PageState} (hop : RedirectHop) :
      PageStep s .respond { s with hops := s.hops ++ [hop] }
  | next {s : PageState} {r : PageRequest} {rest : List PageRequest}
      (htask : s.interceptor = .waiting) (hevents : s.events = r :: rest) :
      PageStep s .next { s with interceptor := .checking r, events := rest }
  | check {s : PageState} {r : PageRequest} {asked : Program.Trace Resolution}
      (htask : s.interceptor = .checking r)
      (hallowed : Program.Exec (navigationAllowed lib policy r.url) asked true) :
      PageStep s .check
        { s with
          interceptor := if r.isHeavy then .shedding r else .continuing r
          checks := s.checks ++ [⟨r, asked, true⟩] }
  | checkRefused {s : PageState} {r : PageRequest} {asked : Program.Trace Resolution}
      (htask : s.interceptor = .checking r)
      (hrefused : Program.Exec (navigationAllowed lib policy r.url) asked false) :
      PageStep s .check
        { s with interceptor := .denying r, checks := s.checks ++ [⟨r, asked, false⟩] }
  | deny {s : PageState} {r : PageRequest} (reply : Reply) (htask : s.interceptor = .denying r)
      (hheld : reply ≠ .rejected → r ∈ s.held) :
      PageStep s .deny
        { s.fail r reply with
          interceptor := .marking, unapplied := s.unapplied ++ reply.unapplied r }
  | mark {s : PageState} (htask : s.interceptor = .marking) :
      PageStep s .mark { s with interceptor := .waiting, violated := true }
  | shed {s : PageState} {r : PageRequest} (reply : Reply) (htask : s.interceptor = .shedding r)
      (hheld : reply ≠ .rejected → r ∈ s.held) :
      PageStep s .shed
        { s.fail r reply with
          interceptor := if reply.succeeded then .counting r else .continuing r }
  | count {s : PageState} {r : PageRequest} (htask : s.interceptor = .counting r) :
      PageStep s .count { s with interceptor := .continuing r, blocked := s.blocked + 1 }
  | continue {s : PageState} {r : PageRequest} (reply : Reply)
      (htask : s.interceptor = .continuing r) (hheld : reply ≠ .rejected → r ∈ s.held) :
      PageStep s .continue
        { s.release r reply with
          interceptor := .waiting, unapplied := s.unapplied ++ reply.unapplied r }
  | streamEnds {s : PageState} (htask : s.interceptor = .waiting) :
      PageStep s .streamEnds { s with interceptor := .ended }

/-- One step of the executor. -/
inductive ExecutorStep : ExecutorState → ExecutorLabel → ExecutorState → Prop
  | precheck {s : ExecutorState} {asked : Program.Trace Resolution} (hphase : s.phase = .checking)
      (hallowed : Program.Exec (navigationAllowed lib policy command.url) asked true) :
      ExecutorStep s .precheck
        { s with phase := .creatingContext, prechecked := some (asked, true) }
  | precheckRefused {s : ExecutorState} {asked : Program.Trace Resolution}
      (hphase : s.phase = .checking)
      (hrefused : Program.Exec (navigationAllowed lib policy command.url) asked false) :
      ExecutorStep s .precheck
        { s with
          phase := .finished (.error .policyBlocked), prechecked := some (asked, false) }
  | createContext {s : ExecutorState} (hphase : s.phase = .creatingContext) :
      ExecutorStep s .createContext
        { s with phase := .creatingPage, contextOpen := true, contextKnown := true }
  | createContextFails {s : ExecutorState} (error : String) (hphase : s.phase = .creatingContext) :
      ExecutorStep s .createContext
        { s with phase := .finished (.error (.browserUnavailable error)) }
  | createContextUnanswered {s : ExecutorState} (error : String)
      (hphase : s.phase = .creatingContext) :
      ExecutorStep s .createContext
        { s with
          phase := .finished (.error (.browserUnavailable error)), contextOpen := true }
  | createPage {s : ExecutorState} (hphase : s.phase = .creatingPage) :
      ExecutorStep s .createPage { s with phase := .installing }
  | createPageFails {s : ExecutorState} (error : String) (hphase : s.phase = .creatingPage) :
      ExecutorStep s .createPage
        { s with phase := .disposing (.error (.browserUnavailable error)) }
  | createPageRejected {s : ExecutorState} (error : String) (hphase : s.phase = .creatingPage) :
      ExecutorStep s .createPage
        { s with phase := .disposing (.error (.invalidLaunchConfig error)) }
  | install {s : ExecutorState} (hphase : s.phase = .installing) :
      ExecutorStep s .install
        { s with
          phase := .prepared, page := { s.page with interceptor := .waiting, enabled := true } }
  | installFails {s : ExecutorState} (error : String) (hphase : s.phase = .installing) :
      ExecutorStep s .install
        { s with phase := .disposing (.error (.invalidLaunchConfig error)) }
  | installUnanswered {s : ExecutorState} (error : String) (hphase : s.phase = .installing) :
      ExecutorStep s .install
        { s with
          phase := .disposing (.error (.invalidLaunchConfig error))
          page := { s.page with enabled := true } }
  | goto {s : ExecutorState} (hphase : s.phase = .prepared) :
      ExecutorStep s .goto
        { s with phase := .navigating, page := { s.page with started := true } }
  | page {s : ExecutorState} {a : PageLabel} {p : PageState} (hst : PageStep lib policy s.page a p)
      (hopen : a = .request → s.contextOpen = true) :
      ExecutorStep s (.page a) { s with page := p }
  | settle {s : ExecutorState} (hphase : s.phase = .navigating) :
      ExecutorStep s .settle { s with phase := .settled }
  | navigationTimeout {s : ExecutorState} (hphase : s.phase = .navigating) :
      ExecutorStep s .settle { s with phase := .disposing (.error (.budget .navigationTimeout)) }
  | readFlag {s : ExecutorState} (hphase : s.phase = .settled) :
      ExecutorStep s .readFlag
        { s with
          phase := if s.page.violated then .disposing (.error .policyBlocked) else .readingContent }
  | content {s : ExecutorState} (dom : List UInt8) (hphase : s.phase = .readingContent) :
      ExecutorStep s .content
        { s with
          phase :=
            if command.budgets.maxDomBytes < dom.length then
              .disposing (.error (.budget .sizeLimit))
            else .locating dom }
  | contentFails {s : ExecutorState} (error : String) (hphase : s.phase = .readingContent) :
      ExecutorStep s .content { s with phase := .disposing (.error (.browserUnavailable error)) }
  | locate {s : ExecutorState} {dom : List UInt8} (url : Option String)
      (hphase : s.phase = .locating dom) :
      ExecutorStep s .locate { s with phase := .readingHops dom (url.getD command.url) }
  | readHops {s : ExecutorState} {dom : List UInt8} {finalUrl : String}
      (hphase : s.phase = .readingHops dom finalUrl) :
      ExecutorStep s .readHops { s with phase := .readingBlocked dom finalUrl s.page.hops }
  | readBlocked {s : ExecutorState} {dom : List UInt8} {finalUrl : String}
      {hops : List RedirectHop} (hphase : s.phase = .readingBlocked dom finalUrl hops) :
      ExecutorStep s .readBlocked
        { s with phase := .disposing (.ok ⟨dom, finalUrl, ⟨hops, s.page.blocked⟩⟩) }
  | dispose {s : ExecutorState} {result : Except ExecutorError RenderOutcome} (reply : Reply)
      (hphase : s.phase = .disposing result) :
      ExecutorStep s .dispose
        { s with
          phase := .finished result
          disposed := true
          contextOpen := if reply = .rejected then s.contextOpen else false }
  | totalTimeout {s : ExecutorState} (contextOpen : Bool)
      (hphase : ∀ result, s.phase ≠ .finished result)
      -- a command about the context that is under way may be applied
      (hopen : contextOpen = s.contextOpen ∨ s.phase = .creatingContext ∨
        ∃ result, s.phase = .disposing result) :
      ExecutorStep s .totalTimeout
        { s with
          phase := .finished (.error (.budget .totalTimeout)), contextOpen := contextOpen }

/-- **One rendering**, with the task it leaves behind. -/
def executorSystem : Labelled.System ExecutorState ExecutorLabel where
  init s := s = executorStart
  step := ExecutorStep lib policy command

end Steps

/-! ### The page -/

section Page

variable {lib : UrlLib} {policy : NavigationPolicy} {s t : PageState} {r : PageRequest}

/-- A check of the request allowed it, by what the resolver answered to this check. -/
def PageState.Approved (lib : UrlLib) (policy : NavigationPolicy) (s : PageState)
    (r : PageRequest) : Prop :=
  ∃ asked, ⟨r, asked, true⟩ ∈ s.checks ∧
    Program.Exec (navigationAllowed lib policy r.url) asked true

/-- A check of the request refused it, by what the resolver answered to this check. -/
def PageState.Refused (lib : UrlLib) (policy : NavigationPolicy) (s : PageState)
    (r : PageRequest) : Prop :=
  ∃ asked, ⟨r, asked, false⟩ ∈ s.checks ∧
    Program.Exec (navigationAllowed lib policy r.url) asked false

/-- What the interceptor knows about the request it works on. -/
def TaskInv (lib : UrlLib) (policy : NavigationPolicy) (s : PageState) : Interceptor → Prop
  | .absent | .waiting | .ended => True
  | .checking r => r ∈ s.made
  | .denying r => r ∈ s.made ∧ s.Refused lib policy r
  | .marking => ∃ r ∈ s.made, s.Refused lib policy r
  | .shedding r | .counting r => s.Approved lib policy r ∧ r.isHeavy = true
  | .continuing r => s.Approved lib policy r

/-- A denied request that is not counted yet. -/
def Interceptor.uncounted : Interceptor → ℕ
  | .counting _ => 1
  | _ => 0

/-- Where the requests of the page are. -/
structure Tracked (s : PageState) : Prop where
  intercepted : s.started = true → s.enabled = true
  /-- Nothing is loaded before the page is told to. -/
  idle : s.started = false → s.made = []
  /-- A request is paused, or it was released, or it was failed. -/
  accounted : (s.held ++ (s.released ++ s.failed)).Perm s.made
  distinct : s.made.Nodup
  /-- A paused request is on its way to a command, or the browser did not apply the command. -/
  pending : ∀ r ∈ s.held, r ∈ s.events ∨ s.interceptor.current = some r ∨ r ∈ s.unapplied
  events : ∀ r ∈ s.events, r ∈ s.made

/-- What was decided about them. -/
structure Checked (lib : UrlLib) (policy : NavigationPolicy) (s : PageState) : Prop where
  approved : ∀ r ∈ s.released, s.Approved lib policy r
  task : TaskInv lib policy s s.interceptor
  evidence : s.violated = true → ∃ r ∈ s.made, s.Refused lib policy r
  counted : s.blocked + s.interceptor.uncounted ≤ s.failed.countP PageRequest.isHeavy

/-- **The invariant of the page.** -/
structure Mediated (lib : UrlLib) (policy : NavigationPolicy) (s : PageState) : Prop where
  tracked : Tracked s
  checked : Checked lib policy s

theorem tracked_start : Tracked executorStart.page where
  intercepted h := by cases h
  idle _ := rfl
  accounted := .nil
  distinct := List.nodup_nil
  pending r hr := absurd hr List.not_mem_nil
  events r hr := absurd hr List.not_mem_nil

theorem checked_start : Checked lib policy executorStart.page where
  approved r hr := absurd hr List.not_mem_nil
  task := trivial
  evidence h := by cases h
  counted := Nat.le_refl 0

theorem PageState.Approved.mono (h : s.Approved lib policy r) (hchecks : s.checks ⊆ t.checks) :
    t.Approved lib policy r :=
  h.imp fun _ ha => ⟨hchecks ha.1, ha.2⟩

theorem PageState.Refused.mono (h : s.Refused lib policy r) (hchecks : s.checks ⊆ t.checks) :
    t.Refused lib policy r :=
  h.imp fun _ ha => ⟨hchecks ha.1, ha.2⟩

/-- More requests are made, and more checks. -/
theorem TaskInv.mono {task : Interceptor} (h : TaskInv lib policy s task)
    (hmade : s.made ⊆ t.made) (hchecks : s.checks ⊆ t.checks) : TaskInv lib policy t task := by
  cases task with
  | absent | waiting | ended => trivial
  | checking r => exact hmade h
  | denying r => exact ⟨hmade h.1, h.2.mono hchecks⟩
  | marking => exact h.imp fun r hr => ⟨hmade hr.1, hr.2.mono hchecks⟩
  | shedding r => exact ⟨h.1.mono hchecks, h.2⟩
  | counting r => exact ⟨h.1.mono hchecks, h.2⟩
  | continuing r => exact PageState.Approved.mono h hchecks

/-- A paused request is failed. -/
theorem PageState.fail_accounted (h : (s.held ++ (s.released ++ s.failed)).Perm s.made)
    {reply : Reply} (hheld : reply ≠ .rejected → r ∈ s.held) :
    ((s.fail r reply).held ++ ((s.fail r reply).released ++ (s.fail r reply).failed)).Perm
      s.made := by
  have happlied : r ∈ s.held →
      (s.held.erase r ++ (s.released ++ (s.failed ++ [r]))).Perm s.made := by
    intro hr
    rw [← List.append_assoc s.released, ← List.append_assoc]
    refine List.perm_append_comm.trans (List.Perm.trans ?_ h)
    exact ((List.perm_cons_erase hr).append_right _).symm
  cases reply with
  | rejected => exact h
  | done => exact happlied (hheld (by rintro ⟨⟩))
  | unanswered => exact happlied (hheld (by rintro ⟨⟩))

/-- A paused request is continued. -/
theorem PageState.release_accounted (h : (s.held ++ (s.released ++ s.failed)).Perm s.made)
    {reply : Reply} (hheld : reply ≠ .rejected → r ∈ s.held) :
    ((s.release r reply).held ++
      ((s.release r reply).released ++ (s.release r reply).failed)).Perm s.made := by
  have happlied : r ∈ s.held →
      (s.held.erase r ++ ((s.released ++ [r]) ++ s.failed)).Perm s.made := by
    intro hr
    have hmiddle : (s.released ++ r :: s.failed).Perm (r :: (s.released ++ s.failed)) :=
      List.perm_middle
    refine List.Perm.trans ?_ h
    refine List.Perm.trans ?_ ((List.perm_cons_erase hr).append_right _).symm
    rw [List.append_assoc, List.singleton_append]
    exact (hmiddle.append_left _).trans List.perm_middle
  cases reply with
  | rejected => exact h
  | done => exact happlied (hheld (by rintro ⟨⟩))
  | unanswered => exact happlied (hheld (by rintro ⟨⟩))

/-- Failing and continuing a request take it from the paused ones. -/
theorem PageState.release_held (s : PageState) (r : PageRequest) (reply : Reply) :
    (s.release r reply).held = (s.fail r reply).held := by
  cases reply <;> rfl

theorem PageState.fail_held_subset (s : PageState) (r : PageRequest) (reply : Reply) :
    (s.fail r reply).held ⊆ s.held := by
  cases reply with
  | rejected => exact List.Subset.refl _
  | done | unanswered => exact List.erase_subset

/-- What failing a request leaves alone. -/
theorem PageState.fail_frame (s : PageState) (r : PageRequest) (reply : Reply) :
    (s.fail r reply).enabled = s.enabled ∧ (s.fail r reply).started = s.started ∧
      (s.fail r reply).events = s.events ∧ (s.fail r reply).made = s.made ∧
      (s.fail r reply).released = s.released ∧ (s.fail r reply).blocked = s.blocked ∧
      (s.fail r reply).violated = s.violated ∧ (s.fail r reply).unapplied = s.unapplied ∧
      (s.fail r reply).checks = s.checks := by
  cases reply <;> exact ⟨rfl, rfl, rfl, rfl, rfl, rfl, rfl, rfl, rfl⟩

/-- What continuing a request leaves alone. -/
theorem PageState.release_frame (s : PageState) (r : PageRequest) (reply : Reply) :
    (s.release r reply).enabled = s.enabled ∧ (s.release r reply).started = s.started ∧
      (s.release r reply).events = s.events ∧ (s.release r reply).made = s.made ∧
      (s.release r reply).failed = s.failed ∧ (s.release r reply).blocked = s.blocked ∧
      (s.release r reply).violated = s.violated ∧ (s.release r reply).checks = s.checks := by
  cases reply <;> exact ⟨rfl, rfl, rfl, rfl, rfl, rfl, rfl, rfl⟩

/-- The failed requests grow. -/
theorem PageState.fail_failed (s : PageState) (r : PageRequest) (reply : Reply) :
    s.failed.countP PageRequest.isHeavy ≤ (s.fail r reply).failed.countP PageRequest.isHeavy := by
  cases reply with
  | rejected => exact Nat.le_refl _
  | done | unanswered => exact (List.sublist_append_left _ _).countP_le

/-- What is made, checked and failed stays so, and the flags are never reset. -/
structure Grows (s t : PageState) : Prop where
  enabled : s.enabled = true → t.enabled = true
  started : t.started = s.started
  made : s.made ⊆ t.made
  checks : s.checks ⊆ t.checks
  failed : s.failed.countP PageRequest.isHeavy ≤ t.failed.countP PageRequest.isHeavy
  violated : s.violated = true → t.violated = true

theorem PageStep.grows {a : PageLabel} (hst : PageStep lib policy s a t) : Grows s t := by
  cases hst with
  | request r hstarted hnew =>
      by_cases henabled : s.enabled = true
      · rw [if_pos henabled]
        exact ⟨id, rfl, List.subset_append_left _ _, List.Subset.refl _, Nat.le_refl _, id⟩
      · rw [if_neg henabled]
        exact ⟨id, rfl, List.subset_append_left _ _, List.Subset.refl _, Nat.le_refl _, id⟩
  | check | checkRefused =>
      exact ⟨id, rfl, List.Subset.refl _, List.subset_append_left _ _, Nat.le_refl _, id⟩
  | deny reply =>
      rename_i r _ _
      obtain ⟨henabled, hstarted, -, hmade, -, -, hviolated, -, hchecks⟩ := s.fail_frame r reply
      exact ⟨henabled.trans, hstarted, hmade ▸ List.Subset.refl _, hchecks ▸ List.Subset.refl _,
        s.fail_failed r reply, hviolated.trans⟩
  | shed reply =>
      rename_i r _ _
      obtain ⟨henabled, hstarted, -, hmade, -, -, hviolated, -, hchecks⟩ := s.fail_frame r reply
      exact ⟨henabled.trans, hstarted, hmade ▸ List.Subset.refl _, hchecks ▸ List.Subset.refl _,
        s.fail_failed r reply, hviolated.trans⟩
  | «continue» reply =>
      rename_i r _ _
      obtain ⟨henabled, hstarted, -, hmade, hfailed, -, hviolated, hchecks⟩ :=
        s.release_frame r reply
      exact ⟨henabled.trans, hstarted, hmade ▸ List.Subset.refl _, hchecks ▸ List.Subset.refl _,
        hfailed ▸ Nat.le_refl _, hviolated.trans⟩
  | mark => exact ⟨id, rfl, List.Subset.refl _, List.Subset.refl _, Nat.le_refl _, fun _ => rfl⟩
  | respond | next | count | streamEnds =>
      exact ⟨id, rfl, List.Subset.refl _, List.Subset.refl _, Nat.le_refl _, id⟩

/-- After the last command for a request the others are pending as before, and it is not paused any
more or was not applied. -/
theorem Tracked.decided (h : Tracked s) (hcurrent : s.interceptor.current = some r)
    (reply : Reply) {r' : PageRequest} (hr' : r' ∈ (s.fail r reply).held) :
    r' ∈ s.events ∨ r' ∈ s.unapplied ++ reply.unapplied r := by
  have hheld : s.held.Nodup :=
    (List.nodup_append.mp (h.accounted.symm.nodup h.distinct)).1
  have hsame : r' = r → r' ∈ s.unapplied ++ reply.unapplied r := by
    rintro rfl
    cases reply with
    | rejected => exact List.mem_append_right _ (List.mem_singleton_self _)
    | done | unanswered => exact absurd hr' hheld.not_mem_erase
  rcases h.pending r' (s.fail_held_subset r reply hr') with hevents | hworked | hunapplied
  · exact Or.inl hevents
  · exact Or.inr (hsame (Option.some.inj (hworked.symm.trans hcurrent)))
  · exact Or.inr (List.mem_append_left _ hunapplied)

/-- What is left to show of a step that makes no request and takes no event. -/
theorem Tracked.of_frame (h : Tracked s) (henabled : t.enabled = s.enabled)
    (hstarted : t.started = s.started) (hevents : t.events = s.events) (hmade : t.made = s.made)
    (haccounted : (t.held ++ (t.released ++ t.failed)).Perm s.made)
    (hpending : ∀ r ∈ t.held,
      r ∈ s.events ∨ t.interceptor.current = some r ∨ r ∈ t.unapplied) : Tracked t where
  intercepted hs := henabled.trans (h.intercepted (hstarted.symm.trans hs))
  idle hs := hmade.trans (h.idle (hstarted.symm.trans hs))
  accounted := hmade ▸ haccounted
  distinct := hmade ▸ h.distinct
  pending := hevents ▸ hpending
  events := hevents ▸ hmade ▸ h.events

/-- Every step keeps track of the requests. -/
theorem Tracked.step (h : Tracked s) {a : PageLabel} (hst : PageStep lib policy s a t) :
    Tracked t := by
  cases hst with
  | request r hstarted hnew =>
      rw [if_pos (h.intercepted hstarted)]
      refine ⟨h.intercepted, fun hs => ?_, ?_, ?_, fun r' hr' => ?_, fun r' hr' => ?_⟩
      · exact absurd (hstarted.symm.trans hs) (by decide)
      · refine List.Perm.trans ?_ (h.accounted.append_right [r])
        rw [List.append_assoc, List.append_assoc]
        exact List.perm_append_comm.append_left _
      · exact h.distinct.append (List.nodup_singleton _) fun r' hr' hr =>
          hnew (List.mem_singleton.mp hr ▸ hr')
      · rcases List.mem_append.mp hr' with hr' | hr'
        · exact (h.pending r' hr').imp_left (List.mem_append_left _)
        · exact Or.inl (List.mem_append_right _ hr')
      · rcases List.mem_append.mp hr' with hr' | hr'
        · exact List.mem_append_left _ (h.events r' hr')
        · exact List.mem_append_right _ hr'
  | respond hop =>
      exact h.of_frame rfl rfl rfl rfl h.accounted h.pending
  | next hinterceptor hevents =>
      refine ⟨h.intercepted, h.idle, h.accounted, h.distinct, fun r' hr' => ?_, fun r' hr' => ?_⟩
      · rcases h.pending r' hr' with hr' | hr' | hr'
        · rw [hevents] at hr'
          rcases List.mem_cons.mp hr' with rfl | hr'
          · exact Or.inr (Or.inl rfl)
          · exact Or.inl hr'
        · rw [hinterceptor] at hr'
          cases hr'
        · exact Or.inr (Or.inr hr')
      · exact h.events r' (hevents ▸ List.mem_cons_of_mem _ hr')
  | check hinterceptor hallowed =>
      rename_i r asked
      have hcurrent : (if r.isHeavy then Interceptor.shedding r else .continuing r).current =
          s.interceptor.current := by
        rw [hinterceptor]
        cases r.isHeavy <;> rfl
      exact h.of_frame rfl rfl rfl rfl h.accounted fun r' hr' => hcurrent ▸ h.pending r' hr'
  | checkRefused hinterceptor hrefused =>
      have hpending := h.pending
      rw [hinterceptor] at hpending
      exact h.of_frame rfl rfl rfl rfl h.accounted hpending
  | deny reply hinterceptor hheld =>
      rename_i r
      have hcurrent : s.interceptor.current = some r := by rw [hinterceptor]; rfl
      obtain ⟨henabled, hstarted, hevents, hmade, -⟩ := s.fail_frame r reply
      refine h.of_frame henabled hstarted hevents hmade
        (PageState.fail_accounted h.accounted hheld) fun r' hr' => ?_
      exact (h.decided hcurrent reply hr').imp_right Or.inr
  | mark hinterceptor =>
      have hpending := h.pending
      rw [hinterceptor] at hpending
      exact h.of_frame rfl rfl rfl rfl h.accounted hpending
  | shed reply hinterceptor hheld =>
      rename_i r
      obtain ⟨henabled, hstarted, hevents, hmade, -, -, -, hunapplied, -⟩ := s.fail_frame r reply
      have hcurrent : (if reply.succeeded then Interceptor.counting r
          else .continuing r).current = s.interceptor.current := by
        rw [hinterceptor]
        cases reply <;> rfl
      refine h.of_frame henabled hstarted hevents hmade
        (PageState.fail_accounted h.accounted hheld) fun r' hr' => ?_
      change r' ∈ s.events ∨ (if reply.succeeded then Interceptor.counting r
          else .continuing r).current = some r' ∨ r' ∈ (s.fail r reply).unapplied
      rw [hunapplied, hcurrent]
      exact h.pending r' (s.fail_held_subset r reply hr')
  | count hinterceptor =>
      have hpending := h.pending
      rw [hinterceptor] at hpending
      exact h.of_frame rfl rfl rfl rfl h.accounted hpending
  | «continue» reply hinterceptor hheld =>
      rename_i r
      have hcurrent : s.interceptor.current = some r := by rw [hinterceptor]; rfl
      obtain ⟨henabled, hstarted, hevents, hmade, -⟩ := s.release_frame r reply
      refine h.of_frame henabled hstarted hevents hmade
        (PageState.release_accounted h.accounted hheld) fun r' hr' => ?_
      rw [show _ = (s.fail r reply).held from s.release_held r reply] at hr'
      exact (h.decided hcurrent reply hr').imp_right Or.inr
  | streamEnds hinterceptor =>
      have hpending := h.pending
      rw [hinterceptor] at hpending
      exact h.of_frame rfl rfl rfl rfl h.accounted hpending

/-- Every step follows the checks. -/
theorem Checked.step (h : Checked lib policy s) (htracked : Tracked s) {a : PageLabel}
    (hst : PageStep lib policy s a t) : Checked lib policy t := by
  have htask := h.task
  have hcounted := h.counted
  have hgrows := hst.grows
  have hevidence : t.violated = s.violated →
      t.violated = true → ∃ r ∈ t.made, t.Refused lib policy r := fun hsame hv =>
    (h.evidence (hsame.symm.trans hv)).imp fun r hr =>
      ⟨hgrows.made hr.1, hr.2.mono hgrows.checks⟩
  cases hst with
  | request r hstarted hnew =>
      rw [if_pos (htracked.intercepted hstarted)] at hgrows hevidence ⊢
      exact ⟨h.approved, htask.mono hgrows.made hgrows.checks, hevidence rfl, hcounted⟩
  | respond hop => exact ⟨h.approved, htask, h.evidence, hcounted⟩
  | next hinterceptor hevents =>
      rw [hinterceptor] at hcounted
      exact ⟨h.approved, htracked.events _ (hevents ▸ List.mem_cons_self), h.evidence, hcounted⟩
  | check hinterceptor hallowed =>
      rename_i r asked
      rw [hinterceptor] at hcounted
      have happroved : PageState.Approved lib policy { s with
          interceptor := if r.isHeavy then .shedding r else .continuing r
          checks := s.checks ++ [⟨r, asked, true⟩] } r :=
        ⟨asked, List.mem_append_right _ (List.mem_singleton_self _), hallowed⟩
      refine ⟨fun r' hr' => (h.approved r' hr').mono hgrows.checks, ?_, hevidence rfl, ?_⟩
      · cases hheavy : r.isHeavy with
        | true => exact ⟨happroved, hheavy⟩
        | false => exact happroved
      · cases r.isHeavy <;> exact hcounted
  | checkRefused hinterceptor hrefused =>
      rename_i r asked
      rw [hinterceptor] at htask hcounted
      exact ⟨fun r' hr' => (h.approved r' hr').mono hgrows.checks,
        ⟨htask, asked, List.mem_append_right _ (List.mem_singleton_self _), hrefused⟩,
        hevidence rfl, hcounted⟩
  | deny reply hinterceptor hheld =>
      rename_i r
      rw [hinterceptor] at htask hcounted
      obtain ⟨-, -, -, hmade, hreleased, hblocked, hviolated, -, hchecks⟩ := s.fail_frame r reply
      refine ⟨fun r' hr' => ?_, ?_, hevidence hviolated, ?_⟩
      · exact (h.approved r' (hreleased ▸ hr')).mono hgrows.checks
      · exact ⟨r, hgrows.made htask.1, htask.2.mono hgrows.checks⟩
      · exact Nat.le_trans (hblocked ▸ hcounted) hgrows.failed
  | mark hinterceptor =>
      rw [hinterceptor] at htask hcounted
      exact ⟨h.approved, trivial, fun _ => htask, hcounted⟩
  | shed reply hinterceptor hheld =>
      rename_i r
      rw [hinterceptor] at htask hcounted
      obtain ⟨-, -, -, hmade, hreleased, hblocked, hviolated, -, hchecks⟩ := s.fail_frame r reply
      refine ⟨fun r' hr' => ?_, ?_, hevidence hviolated, ?_⟩
      · exact (h.approved r' (hreleased ▸ hr')).mono hgrows.checks
      · have happroved := htask.1.mono hgrows.checks
        cases reply with
        | done => exact ⟨happroved, htask.2⟩
        | unanswered => exact happroved
        | rejected => exact happroved
      · change (s.fail r reply).blocked + _ ≤ (s.fail r reply).failed.countP _
        rw [hblocked]
        cases reply with
        | rejected => exact hcounted
        | unanswered => exact Nat.le_trans hcounted (List.sublist_append_left _ _).countP_le
        | done =>
            -- the counter is about to follow
            change s.blocked + 1 ≤ (s.failed ++ [r]).countP _
            rw [List.countP_append, List.countP_singleton, if_pos htask.2]
            exact Nat.succ_le_succ hcounted
  | count hinterceptor =>
      rw [hinterceptor] at htask hcounted
      exact ⟨h.approved, htask.1, h.evidence, hcounted⟩
  | «continue» reply hinterceptor hheld =>
      rename_i r
      rw [hinterceptor] at htask hcounted
      obtain ⟨-, -, -, hmade, hfailed, hblocked, hviolated, hchecks⟩ := s.release_frame r reply
      refine ⟨fun r' hr' => ?_, trivial, hevidence hviolated, ?_⟩
      · have hreleased : r' ∈ s.released ++ [r] := by
          cases reply with
          | rejected => exact List.mem_append_left _ hr'
          | done => exact hr'
          | unanswered => exact hr'
        rcases List.mem_append.mp hreleased with hr' | hr'
        · exact (h.approved r' hr').mono hgrows.checks
        · obtain rfl := List.mem_singleton.mp hr'
          exact PageState.Approved.mono htask hgrows.checks
      · change (s.release r reply).blocked + 0 ≤ (s.release r reply).failed.countP _
        rw [hblocked, hfailed]
        exact hcounted
  | streamEnds hinterceptor =>
      rw [hinterceptor] at hcounted
      exact ⟨h.approved, trivial, h.evidence, hcounted⟩

/-- Every step keeps the invariant of the page. -/
theorem Mediated.step (h : Mediated lib policy s) {a : PageLabel}
    (hst : PageStep lib policy s a t) : Mediated lib policy t :=
  ⟨h.tracked.step hst, h.checked.step h.tracked hst⟩

end Page

/-! ### The rendering -/

section Rendering

variable {lib : UrlLib} {policy : NavigationPolicy} {command : RenderCommand}
  {s t : ExecutorState}

/-- What `render_in_context` has returned, or `render`. -/
def RenderPhase.result : RenderPhase → Option (Except ExecutorError RenderOutcome)
  | .disposing result | .finished result => some result
  | _ => none

/-- `policy_violated` has not been read. -/
def RenderPhase.unread : RenderPhase → Bool
  | .checking | .creatingContext | .creatingPage | .installing | .prepared | .navigating
  | .settled => true
  | _ => false

/-- The check of the command's address allowed it, by what the resolver answered to it. -/
def ExecutorState.Admitted (lib : UrlLib) (policy : NavigationPolicy) (command : RenderCommand)
    (s : ExecutorState) : Prop :=
  ∃ asked, s.prechecked = some (asked, true) ∧
    Program.Exec (navigationAllowed lib policy command.url) asked true

/-- The check of the command's address refused it, by what the resolver answered to it. -/
def ExecutorState.Rejected (lib : UrlLib) (policy : NavigationPolicy) (command : RenderCommand)
    (s : ExecutorState) : Prop :=
  ∃ asked, s.prechecked = some (asked, false) ∧
    Program.Exec (navigationAllowed lib policy command.url) asked false

/-- A check of the rendering refused the address of the command, or a request of the page. -/
def ExecutorState.Blocked (lib : UrlLib) (policy : NavigationPolicy) (command : RenderCommand)
    (s : ExecutorState) : Prop :=
  s.Rejected lib policy command ∨ ∃ r ∈ s.page.made, s.page.Refused lib policy r

/-- What a result is evidence of. -/
def ResultInv (lib : UrlLib) (policy : NavigationPolicy) (command : RenderCommand)
    (s : ExecutorState) : Except ExecutorError RenderOutcome → Prop
  | .ok outcome =>
      s.Admitted lib policy command ∧ outcome.dom.length ≤ command.budgets.maxDomBytes ∧
        outcome.evidence.blockedRequests ≤ s.page.failed.countP PageRequest.isHeavy
  | .error .policyBlocked => s.Blocked lib policy command
  | .error (.budget failureClass) =>
      failureClass ∈ [RenderFailureClass.navigationTimeout, .totalTimeout, .sizeLimit]
  | .error _ => True

/-- What holds in a phase. -/
def PhaseInv (lib : UrlLib) (policy : NavigationPolicy) (command : RenderCommand)
    (s : ExecutorState) : RenderPhase → Prop
  | .checking => s.contextKnown = false ∧ s.page.started = false
  | .creatingContext =>
      s.Admitted lib policy command ∧ s.contextKnown = false ∧ s.page.started = false
  | .creatingPage | .installing => s.Admitted lib policy command ∧ s.page.started = false
  | .prepared => s.Admitted lib policy command ∧ s.page.enabled = true
  | .navigating | .settled | .readingContent => s.Admitted lib policy command
  | .locating dom | .readingHops dom _ | .readingBlocked dom _ _ =>
      s.Admitted lib policy command ∧ dom.length ≤ command.budgets.maxDomBytes
  | .disposing result => ResultInv lib policy command s result
  | .finished result =>
      ResultInv lib policy command s result ∧
        (s.contextKnown = true → s.disposed = true ∨ result = .error (.budget .totalTimeout))

/-- **The invariant of a rendering.** -/
structure ExecutorInv (lib : UrlLib) (policy : NavigationPolicy) (command : RenderCommand)
    (s : ExecutorState) : Prop where
  page : Mediated lib policy s.page
  phase : PhaseInv lib policy command s s.phase

/-- The page goes on. -/
theorem ResultInv.page_step {p : PageState} {result : Except ExecutorError RenderOutcome}
    (h : ResultInv lib policy command s result) (hgrows : Grows s.page p) :
    ResultInv lib policy command { s with page := p } result := by
  cases result with
  | ok outcome => exact ⟨h.1, h.2.1, Nat.le_trans h.2.2 hgrows.failed⟩
  | error e =>
      cases e with
      | policyBlocked =>
          exact Or.imp_right (Exists.imp fun r hr =>
            ⟨hgrows.made hr.1, hr.2.mono hgrows.checks⟩) h
      | budget failureClass => exact h
      | browserUnavailable error => trivial
      | invalidLaunchConfig error => trivial

/-- The interceptor and the browser leave the rendering where it is. -/
theorem ExecutorInv.page_step (h : ExecutorInv lib policy command s) {a : PageLabel}
    {p : PageState} (hst : PageStep lib policy s.page a p) :
    ExecutorInv lib policy command { s with page := p } := by
  have hgrows := hst.grows
  refine ⟨h.page.step hst, ?_⟩
  have hphase := h.phase
  change PhaseInv lib policy command { s with page := p } s.phase
  cases hs : s.phase with
  | checking =>
      rw [hs] at hphase
      exact ⟨hphase.1, hgrows.started.trans hphase.2⟩
  | creatingContext =>
      rw [hs] at hphase
      exact ⟨hphase.1, hphase.2.1, hgrows.started.trans hphase.2.2⟩
  | creatingPage | installing =>
      rw [hs] at hphase
      exact ⟨hphase.1, hgrows.started.trans hphase.2⟩
  | prepared =>
      rw [hs] at hphase
      exact ⟨hphase.1, hgrows.enabled hphase.2⟩
  | disposing result =>
      rw [hs] at hphase
      exact hphase.page_step hgrows
  | finished result =>
      rw [hs] at hphase
      exact ⟨hphase.1.page_step hgrows, hphase.2⟩
  | _ =>
      rw [hs] at hphase
      exact hphase

/-- Interception is enabled while nothing is loaded yet. -/
theorem Mediated.install {p : PageState} (h : Mediated lib policy p)
    (hstarted : p.started = false) {task : Interceptor} (htask : TaskInv lib policy p task)
    (hcounted : task.uncounted ≤ p.interceptor.uncounted) :
    Mediated lib policy { p with interceptor := task, enabled := true } := by
  have hheld : p.held = [] := by
    have hmade := h.tracked.accounted
    rw [h.tracked.idle hstarted] at hmade
    exact (List.append_eq_nil_iff.mp hmade.eq_nil).1
  refine ⟨⟨fun _ => rfl, h.tracked.idle, h.tracked.accounted, h.tracked.distinct,
    fun r hr => ?_, h.tracked.events⟩, ⟨h.checked.approved, htask, h.checked.evidence, ?_⟩⟩
  · rw [hheld] at hr
    exact absurd hr List.not_mem_nil
  · exact Nat.le_trans (Nat.add_le_add_left hcounted _) h.checked.counted

/-- Every step keeps the invariant. -/
theorem ExecutorInv.step (h : ExecutorInv lib policy command s) {a : ExecutorLabel}
    (hst : (executorSystem lib policy command).step s a t) :
    ExecutorInv lib policy command t := by
  have hphase := h.phase
  cases hst with
  | precheck hs hallowed =>
      rw [hs] at hphase
      exact ⟨h.page, ⟨_, rfl, hallowed⟩, hphase⟩
  | precheckRefused hs hrefused =>
      rw [hs] at hphase
      refine ⟨h.page, Or.inl ⟨_, rfl, hrefused⟩, fun hknown => ?_⟩
      exact absurd (hphase.1.symm.trans hknown) Bool.false_ne_true
  | createContext hs =>
      rw [hs] at hphase
      exact ⟨h.page, hphase.1, hphase.2.2⟩
  | createContextFails error hs =>
      rw [hs] at hphase
      refine ⟨h.page, trivial, fun hknown => ?_⟩
      exact absurd (hphase.2.1.symm.trans hknown) Bool.false_ne_true
  | createContextUnanswered error hs =>
      rw [hs] at hphase
      refine ⟨h.page, trivial, fun hknown => ?_⟩
      exact absurd (hphase.2.1.symm.trans hknown) Bool.false_ne_true
  | createPage hs =>
      rw [hs] at hphase
      exact ⟨h.page, hphase⟩
  | createPageFails error hs => exact ⟨h.page, trivial⟩
  | createPageRejected error hs => exact ⟨h.page, trivial⟩
  | install hs =>
      rw [hs] at hphase
      exact ⟨h.page.install hphase.2 trivial (Nat.zero_le _), hphase.1, rfl⟩
  | installFails error hs => exact ⟨h.page, trivial⟩
  | installUnanswered error hs =>
      rw [hs] at hphase
      exact ⟨h.page.install hphase.2 h.page.checked.task (Nat.le_refl _), trivial⟩
  | goto hs =>
      rw [hs] at hphase
      have htracked := h.page.tracked
      have hchecked := h.page.checked
      exact ⟨⟨⟨fun _ => hphase.2, fun hstarted => absurd hstarted.symm Bool.false_ne_true,
        htracked.accounted, htracked.distinct, htracked.pending, htracked.events⟩,
        ⟨hchecked.approved, hchecked.task, hchecked.evidence, hchecked.counted⟩⟩, hphase.1⟩
  | page hst hopen => exact h.page_step hst
  | settle hs =>
      rw [hs] at hphase
      exact ⟨h.page, hphase⟩
  | navigationTimeout hs => exact ⟨h.page, List.mem_cons_self⟩
  | readFlag hs =>
      rw [hs] at hphase
      refine ⟨h.page, ?_⟩
      change PhaseInv lib policy command s (if s.page.violated then _ else _)
      split
      · next hviolated => exact Or.inr (h.page.checked.evidence hviolated)
      · exact hphase
  | content dom hs =>
      rw [hs] at hphase
      refine ⟨h.page, ?_⟩
      change PhaseInv lib policy command s
        (if command.budgets.maxDomBytes < dom.length then _ else _)
      split
      · exact (by decide : RenderFailureClass.sizeLimit ∈
          [RenderFailureClass.navigationTimeout, .totalTimeout, .sizeLimit])
      · next hfits => exact ⟨hphase, Nat.le_of_not_lt hfits⟩
  | contentFails error hs => exact ⟨h.page, trivial⟩
  | locate url hs =>
      rw [hs] at hphase
      exact ⟨h.page, hphase⟩
  | readHops hs =>
      rw [hs] at hphase
      exact ⟨h.page, hphase⟩
  | readBlocked hs =>
      rw [hs] at hphase
      exact ⟨h.page, hphase.1, hphase.2,
        Nat.le_trans (Nat.le_add_right _ _) h.page.checked.counted⟩
  | dispose reply hs =>
      rw [hs] at hphase
      exact ⟨h.page, hphase, fun _ => Or.inl rfl⟩
  | totalTimeout contextOpen hs hopen =>
      exact ⟨h.page, (by decide : RenderFailureClass.totalTimeout ∈
        [RenderFailureClass.navigationTimeout, .totalTimeout, .sizeLimit]), fun _ => Or.inr rfl⟩

/-- **The invariant holds in every reachable state** of a rendering. -/
theorem executorInv_of_reachable (h : (executorSystem lib policy command).Reachable s) :
    ExecutorInv lib policy command s := by
  refine h.invariant (I := ExecutorInv lib policy command) ?_ fun s a t _ hinv hst => hinv.step hst
  rintro s rfl
  exact ⟨⟨tracked_start, checked_start⟩, rfl, rfl⟩

/-- The flag was set in time, or the rendering has failed. -/
def Refused (s : ExecutorState) : Prop :=
  s.page.violated = true ∧ s.phase.unread = true ∨ ∃ e, s.phase.result = some (.error e)

/-- A rendering that is refused stays so. -/
theorem Refused.step {a : ExecutorLabel} (h : Refused s)
    (hst : (executorSystem lib policy command).step s a t) : Refused t := by
  cases hst with
  | page hst hopen => exact h.imp_left fun hs => ⟨hst.grows.violated hs.1, hs.2⟩
  | precheckRefused => exact Or.inr ⟨_, rfl⟩
  | createContextFails => exact Or.inr ⟨_, rfl⟩
  | createContextUnanswered => exact Or.inr ⟨_, rfl⟩
  | createPageFails => exact Or.inr ⟨_, rfl⟩
  | createPageRejected => exact Or.inr ⟨_, rfl⟩
  | installFails => exact Or.inr ⟨_, rfl⟩
  | installUnanswered => exact Or.inr ⟨_, rfl⟩
  | navigationTimeout => exact Or.inr ⟨_, rfl⟩
  | totalTimeout => exact Or.inr ⟨_, rfl⟩
  | readFlag hs =>
      rcases h with ⟨hviolated, -⟩ | ⟨e, he⟩
      · refine Or.inr ⟨.policyBlocked, ?_⟩
        change (if s.page.violated then _ else _ : RenderPhase).result = _
        rw [if_pos hviolated]
        rfl
      · rw [hs] at he
        cases he
  | dispose reply hs =>
      rcases h with ⟨-, hunread⟩ | ⟨e, he⟩
      · rw [hs] at hunread
        cases hunread
      · rw [hs] at he
        exact Or.inr ⟨e, he⟩
  | precheck hs | createContext hs | createPage hs | install hs | goto hs | settle hs =>
      rcases h with ⟨hviolated, -⟩ | ⟨e, he⟩
      · exact Or.inl ⟨hviolated, rfl⟩
      · rw [hs] at he
        cases he
  | content dom hs | contentFails error hs | locate url hs | readHops hs | readBlocked hs =>
      rcases h with ⟨-, hunread⟩ | ⟨e, he⟩
      · rw [hs] at hunread
        cases hunread
      · rw [hs] at he
        cases he

/-- The host of the request was looked up by a check of it, and has permitted addresses only. -/
def PageState.Resolved (lib : UrlLib) (policy : NavigationPolicy) (s : PageState)
    (r : PageRequest) : Prop :=
  ∃ n host addresses, normalize lib r.url policy.routing = .ok n ∧
    n.normalized.hostStr lib = some host ∧
    ⟨r, [⟨.lookup host, some addresses⟩], true⟩ ∈ s.checks ∧ addresses ≠ [] ∧
    ∀ a ∈ addresses, validateAddress a.ip = .ok ()

/-- In production an approved request was resolved. -/
theorem PageState.Approved.resolved {p : PageState} {r : PageRequest}
    (h : p.Approved lib policy r) (hpolicy : policy.allowLoopback = false) :
    p.Resolved lib policy r := by
  obtain ⟨asked, hmem, hexec⟩ := h
  rcases navigationAllowed_spec hpolicy hexec with
    ⟨hrefused, -⟩ | ⟨n, host, answer, hnormal, hhost, rfl, hallowed⟩
  · cases hrefused
  · obtain ⟨addresses, rfl, hne, hvalid⟩ := hallowed.mp rfl
    exact ⟨n, host, addresses, hnormal, hhost, hmem, hne, hvalid⟩

/-- **The executor mediates every request of its page**, in every reachable state:

* a request that went to the network was approved by a check of its own, which in production asked
  the resolver for its host and was answered with permitted addresses only;
* every request is paused, or was released, or was failed, and only one of them: what was failed
  is never released, although the code continues it as well; what is still paused waits for the
  interceptor or is worked on by it, unless the browser did not apply the command for it;
* a rendered page had an approved address, its content is within the budget, and its evidence
  counts no more requests than heavy ones were failed;
* a rendering that is blocked by the policy had an address, or a request, that its check refused;
* a forbidden request that was noted before the page settled fails the rendering;
* a context whose identifier was received is disposed of, unless the total timeout ends the
  rendering. -/
theorem executor_mediates (h : (executorSystem lib policy command).Reachable s) :
    (∀ r ∈ s.page.released, s.page.Approved lib policy r ∧
      (policy.allowLoopback = false → s.page.Resolved lib policy r)) ∧
    ((s.page.held ++ (s.page.released ++ s.page.failed)).Perm s.page.made ∧
      (∀ r ∈ s.page.failed, r ∉ s.page.released) ∧
      ∀ r ∈ s.page.held, r ∈ s.page.events ∨ s.page.interceptor.current = some r ∨
        r ∈ s.page.unapplied) ∧
    (∀ outcome, s.phase.result = some (.ok outcome) → s.Admitted lib policy command ∧
      outcome.dom.length ≤ command.budgets.maxDomBytes ∧
      outcome.evidence.blockedRequests ≤ s.page.failed.countP PageRequest.isHeavy) ∧
    (s.phase.result = some (.error .policyBlocked) → s.Blocked lib policy command) ∧
    (s.page.violated = true → s.phase.unread = true →
      ∀ as t, (executorSystem lib policy command).Run s as t →
        ∀ outcome, t.phase.result ≠ some (.ok outcome)) ∧
    ∀ result, s.phase = .finished result → s.contextKnown = true →
      s.disposed = true ∨ result = .error (.budget .totalTimeout) := by
  have hinv := executorInv_of_reachable h
  have htracked := hinv.page.tracked
  have hresult : ∀ result, s.phase.result = some result →
      ResultInv lib policy command s result := by
    intro result heq
    have hphase := hinv.phase
    cases hs : s.phase with
    | disposing result' =>
        rw [hs] at heq hphase
        obtain rfl := Option.some.inj heq
        exact hphase
    | finished result' =>
        rw [hs] at heq hphase
        obtain rfl := Option.some.inj heq
        exact hphase.1
    | _ =>
        rw [hs] at heq
        cases heq
  refine ⟨fun r hr => ?_, ⟨htracked.accounted, fun r hfailed hreleased => ?_, htracked.pending⟩,
    fun outcome heq => hresult _ heq, fun heq => hresult _ heq, ?_, ?_⟩
  · have happroved := hinv.page.checked.approved r hr
    exact ⟨happroved, happroved.resolved⟩
  · have hdistinct := htracked.accounted.symm.nodup htracked.distinct
    exact List.disjoint_of_nodup_append (List.nodup_append.mp hdistinct).2.1 hreleased hfailed
  · intro hviolated hunread as t hrun outcome heq
    have hrefused : Refused t := hrun.preserves (R := fun s t => Refused s → Refused t)
      (fun _ hs => hs) (fun hst htu hs => htu (hst hs)) h
      (fun _ _ _ _ hst hs => hs.step hst) (Or.inl ⟨hviolated, hunread⟩)
    rcases hrefused with ⟨-, hunread⟩ | ⟨e, he⟩
    · cases hs : t.phase with
      | disposing result => rw [hs] at hunread; cases hunread
      | finished result => rw [hs] at hunread; cases hunread
      | _ => rw [hs] at heq; cases heq
    · rw [heq] at he
      cases he
  · intro result hs hknown
    have hphase := hinv.phase
    rw [hs] at hphase
    exact hphase.2 hknown

end Rendering

/-- A command for a public page. -/
def exampleCommand : RenderCommand where
  renderId := 7
  operationId := 8
  correlationId := "render"
  tenantUserId := 9
  url := "http://example.org/"
  budgets := ⟨15000, 30000, 16⟩

/-- What is asked for the page, and the answer of the resolver. -/
def exampleAsked : Program.Trace Resolution :=
  [⟨.lookup "example.org", some [⟨.v4 ⟨93, 184, 216, 34⟩, 80⟩]⟩]

/-- The page and an image on it. -/
def exampleRequests : List PageRequest :=
  [⟨0, "http://example.org/", .document⟩, ⟨1, "http://example.org/", .image⟩]

/-- What is rendered: the page is released, and the image is failed. -/
def exampleOutcome : RenderOutcome := ⟨[60, 62], "http://example.org/", ⟨[], 1⟩⟩

theorem exampleCommand_allowed :
    Program.Exec (navigationAllowed exampleLib .standard "http://example.org/") exampleAsked
      true :=
  .ask (Resolution.lookup "example.org") _ _ (.done _)

/-- A run to the end. -/
theorem exampleRendering : ∃ s, (executorSystem exampleLib .standard exampleCommand).Reachable s ∧
    s.phase = .finished (.ok exampleOutcome) ∧ s.page.made = exampleRequests ∧
    s.page.released = exampleRequests.take 1 ∧ s.page.failed = exampleRequests.drop 1 := by
  have hinit : (executorSystem exampleLib .standard exampleCommand).Reachable executorStart :=
    .init rfl
  have hready := (((hinit.step (.precheck rfl exampleCommand_allowed)).step
    (.createContext rfl)).step (.createPage rfl)).step (.install rfl)
  have hloading := hready.step (.goto rfl)
  have hdocument := hloading.step
    (.page (.request ⟨0, "http://example.org/", .document⟩ rfl (by decide)) fun _ => rfl)
  have himage := hdocument.step
    (.page (.request ⟨1, "http://example.org/", .image⟩ rfl (by decide)) fun _ => rfl)
  have hreleased := ((himage.step (.page (.next rfl rfl) (by rintro ⟨⟩))).step
    (.page (.check rfl exampleCommand_allowed) (by rintro ⟨⟩))).step
    (.page (.continue .done rfl fun _ => .head _) (by rintro ⟨⟩))
  have hshed := ((hreleased.step (.page (.next rfl rfl) (by rintro ⟨⟩))).step
    (.page (.check rfl exampleCommand_allowed) (by rintro ⟨⟩))).step
    (.page (.shed .done rfl fun _ => .head _) (by rintro ⟨⟩))
  have hcounted := (hshed.step (.page (.count rfl) (by rintro ⟨⟩))).step
    (.page (.continue .rejected rfl fun h => absurd rfl h) (by rintro ⟨⟩))
  have hread := ((hcounted.step (.settle rfl)).step (.readFlag rfl)).step (.content [60, 62] rfl)
  have hrendered := ((hread.step (.locate none rfl)).step (.readHops rfl)).step (.readBlocked rfl)
  exact ⟨_, hrendered.step (.dispose .done rfl), rfl, rfl, rfl, rfl⟩

/-- The page is released and counted with its image failed. -/
theorem executor_mediates_rendered :
    ∃ s, (executorSystem exampleLib .standard exampleCommand).Reachable s ∧
      s.phase.result = some (.ok exampleOutcome) ∧ s.page.released ≠ [] ∧
      (∀ r ∈ s.page.released, s.page.Resolved exampleLib .standard r) ∧
      exampleOutcome.evidence.blockedRequests ≤ s.page.failed.countP PageRequest.isHeavy := by
  obtain ⟨s, hs, hphase, -, hreleased, -⟩ := exampleRendering
  have hresult : s.phase.result = some (.ok exampleOutcome) := by rw [hphase]; rfl
  obtain ⟨happroved, -, hrendered, -⟩ := executor_mediates hs
  exact ⟨s, hs, hresult, by rw [hreleased]; decide, fun r hr => (happroved r hr).2 rfl,
    (hrendered _ hresult).2.2⟩

/-! ### What a delivery publishes -/

/-- The exchanges are evidence of the event. -/
def EventOf (command : RenderCommand) (h : Program.Trace Request) (event : Event) : Prop :=
  event.renderId = command.renderId ∧
    match event with
    | .completed c => ∃ outcome, ⟨.render command, .ok outcome⟩ ∈ h ∧
        c.finalUrl = outcome.finalUrl ∧ c.evidence = outcome.evidence ∧
        ⟨.store "text/html" outcome.dom, .ok c.dom⟩ ∈ h
    | .failed f => ⟨.render command, .error (.failed f.failureClass)⟩ ∈ h

/-- Only such events are published. -/
def PublishesEvidence (command : RenderCommand) : Program.Condition Request := fun h {_} e =>
  match e with
  | .publishEvent subject event => subject = event.subject ∧ EventOf command h event
  | _ => True

section Delivery

variable {command : RenderCommand} {message : Message} {h h' : Program.Trace Request}

theorem EventOf.mono {event : Event} (hevent : EventOf command h event) (hsub : h ⊆ h') :
    EventOf command h' event := by
  obtain ⟨hid, hevidence⟩ := hevent
  refine ⟨hid, ?_⟩
  cases event with
  | completed c =>
      obtain ⟨outcome, hrender, hurl, hnetwork, hstore⟩ := hevidence
      exact ⟨outcome, hsub hrender, hurl, hnetwork, hsub hstore⟩
  | failed f => exact hsub hevidence

theorem conclude_evidence :
    (conclude message command).Ensures (PublishesEvidence command) h
      fun _ _ => True :=
  ⟨trivial, fun _ => ⟨trivial, fun _ => trivial⟩⟩

theorem renderCommand_evidence :
    (renderCommand message command).Ensures (PublishesEvidence command) h fun _ _ => True := by
  refine ⟨trivial, fun answer => ?_⟩
  cases answer with
  | ok outcome =>
      refine ⟨trivial, fun stored => ?_⟩
      cases stored with
      | error e => trivial
      | ok blob =>
          refine ⟨⟨rfl, rfl, outcome, ?_, rfl, rfl, ?_⟩, fun published => ?_⟩
          · exact List.mem_append_left _ (List.mem_append_right _ (List.mem_singleton_self _))
          · exact List.mem_append_right _ (List.mem_singleton_self _)
          · cases published with
            | error e => trivial
            | ok u => exact conclude_evidence
  | error e =>
      cases e with
      | infrastructure error => trivial
      | storage error => trivial
      | failed failureClass =>
          refine ⟨⟨rfl, rfl, ?_⟩, fun published => ?_⟩
          · exact List.mem_append_right _ (List.mem_singleton_self _)
          · cases published with
            | error e => trivial
            | ok u => exact conclude_evidence

/-- **A delivery publishes what its own exchanges are evidence of**, whatever it is answered. -/
theorem handleDelivery_evidence (hpayload : message.payload = .ok command) :
    (handleDelivery message).Ensures (PublishesEvidence command) h fun _ _ => True := by
  unfold handleDelivery
  rw [hpayload]
  refine ⟨trivial, fun marker => ?_⟩
  cases marker with
  | error e => exact renderCommand_evidence
  | ok value =>
      cases value with
      | none => exact renderCommand_evidence
      | some value => exact ⟨trivial, fun _ => trivial⟩

end Delivery

/-! ### The worker with this executor -/

section Worker

variable {lib : UrlLib} {policy : NavigationPolicy} {command : RenderCommand} {message : Message}

/-- What `RenderExecutor::render` may answer. -/
def Rendered (lib : UrlLib) (policy : NavigationPolicy) (command : RenderCommand)
    (answer : Except WorkerError RenderOutcome) : Prop :=
  ∃ s result, (executorSystem lib policy command).Reachable s ∧ s.phase = .finished result ∧
    answer = result.mapError ExecutorError.toWorkerError

/-- The executor answers as it does. -/
def ByExecutor (lib : UrlLib) (policy : NavigationPolicy) : Program.Exchange Request → Prop
  | ⟨.render command, answer⟩ => Rendered lib policy command answer
  | _ => True

/-- What an event of the worker is evidence of, after these exchanges: a rendering of the executor
whose answer the event repeats. -/
inductive EventInv (lib : UrlLib) (policy : NavigationPolicy) (command : RenderCommand)
    (h : Program.Trace Request) : Event → Prop
  | completed {completed : Completed} {outcome : RenderOutcome} {s : ExecutorState}
      (hid : completed.renderId = command.renderId)
      (hrender : ⟨.render command, .ok outcome⟩ ∈ h)
      (hrun : (executorSystem lib policy command).Reachable s)
      (hphase : s.phase = .finished (.ok outcome)) (hadmitted : s.Admitted lib policy command)
      (hurl : completed.finalUrl = outcome.finalUrl)
      (hevidence : completed.evidence = outcome.evidence)
      (hstore : ⟨.store "text/html" outcome.dom, .ok completed.dom⟩ ∈ h)
      (hfits : outcome.dom.length ≤ command.budgets.maxDomBytes) :
      EventInv lib policy command h (.completed completed)
  | failed {failed : RenderFailed} {e : ExecutorError} {s : ExecutorState}
      (hid : failed.renderId = command.renderId)
      (hrender : ⟨.render command, .error (.failed failed.failureClass)⟩ ∈ h)
      (hrun : (executorSystem lib policy command).Reachable s)
      (hphase : s.phase = .finished (.error e))
      (hclass : e.toWorkerError = .failed failed.failureClass)
      (hblocked : failed.failureClass = .policyBlocked → s.Blocked lib policy command) :
      EventInv lib policy command h (.failed failed)

/-- A rendering that succeeded. -/
theorem Rendered.ok {outcome : RenderOutcome} (h : Rendered lib policy command (.ok outcome)) :
    ∃ s, (executorSystem lib policy command).Reachable s ∧ s.phase = .finished (.ok outcome) ∧
      s.Admitted lib policy command ∧ outcome.dom.length ≤ command.budgets.maxDomBytes := by
  obtain ⟨s, result, hs, hphase, heq⟩ := h
  cases result with
  | error e => cases heq
  | ok outcome' =>
      obtain rfl := Except.ok.inj heq
      have hinv := (executorInv_of_reachable hs).phase
      rw [hphase] at hinv
      exact ⟨s, hs, hphase, hinv.1.1, hinv.1.2.1⟩

/-- A rendering that failed: a policy block had a check that refused. -/
theorem Rendered.failed {failureClass : RenderFailureClass}
    (h : Rendered lib policy command (.error (.failed failureClass))) :
    ∃ s e, (executorSystem lib policy command).Reachable s ∧ s.phase = .finished (.error e) ∧
      e.toWorkerError = .failed failureClass ∧
      (failureClass = .policyBlocked → s.Blocked lib policy command) := by
  obtain ⟨s, result, hs, hphase, heq⟩ := h
  cases result with
  | ok outcome => cases heq
  | error e =>
      have hclass : e.toWorkerError = .failed failureClass := (Except.error.inj heq).symm
      refine ⟨s, e, hs, hphase, hclass, fun hpolicy => ?_⟩
      have hinv := (executorInv_of_reachable hs).phase
      rw [hphase] at hinv
      rw [hpolicy] at hclass
      cases e with
      | policyBlocked => exact hinv.1
      | browserUnavailable error => cases hclass
      | invalidLaunchConfig error => cases hclass
      | budget budgetClass =>
          have hbudget : budgetClass ∈
            [RenderFailureClass.navigationTimeout, .totalTimeout, .sizeLimit] := hinv.1
          obtain rfl := WorkerError.failed.inj hclass
          exact absurd hbudget (by decide)

/-- **What the worker publishes comes from the executor**, in every delivery of a command whose
renderings are ones of the executor, and whatever else the delivery is answered: an event goes to
its own subject; a completed render has the final address and the evidence of an outcome that the
executor returned, and names the stored bytes of its page, which are within the budget of the
command and whose address the policy approved; a failed render has the class of the error that the
executor returned, and if that is a policy block, one of its checks refused. -/
theorem worker_publishes_rendered (hpayload : message.payload = .ok command)
    {tr pre post : Program.Trace Request} {outcome : DeliveryOutcome}
    (hexec : Program.Exec (handleDelivery message) tr outcome)
    (hrendered : ∀ x ∈ tr, ByExecutor lib policy x)
    {subject : String} {event : Event} {published : Except WorkerError Unit}
    (hpublished : tr = pre ++ ⟨.publishEvent subject event, published⟩ :: post) :
    subject = event.subject ∧ EventInv lib policy command pre event := by
  have hpre : pre ⊆ tr := hpublished ▸ List.subset_append_left _ _
  obtain ⟨-, hrequests⟩ := (handleDelivery_evidence hpayload).exec hexec
  obtain ⟨hsubject, hid, hevidence⟩ := hrequests pre post _ hpublished
  refine ⟨hsubject, ?_⟩
  cases event with
  | completed c =>
      obtain ⟨page, hrender, hurl, hnetwork, hstore⟩ := hevidence
      have hanswer : Rendered lib policy command (.ok page) := hrendered _ (hpre hrender)
      obtain ⟨s, hs, hphase, hadmitted, hfits⟩ := hanswer.ok
      exact .completed hid hrender hs hphase hadmitted hurl hnetwork hstore hfits
  | failed f =>
      have hanswer : Rendered lib policy command (.error (.failed f.failureClass)) :=
        hrendered _ (hpre hevidence)
      obtain ⟨s, e, hs, hphase, hclass, hblocked⟩ := hanswer.failed
      exact .failed hid hevidence hs hphase hclass hblocked

end Worker

/-- The event of the example. -/
def exampleCompleted : Completed where
  renderId := 7
  finalUrl := "http://example.org/"
  dom := ⟨"ratatoskr-browser-worker",
    ⟨.sha256, "24295a9c545a402da4f2cc833dae7b4f3b80182f7f803516d580ca07c0642b64"⟩, "text/html", 2⟩
  evidence := ⟨[], 1⟩

/-- The page of the example is rendered, stored and published. -/
def exampleTrace : Program.Trace Request :=
  [⟨.getMarker 7, .ok none⟩,
    ⟨.render exampleCommand, .ok exampleOutcome⟩,
    ⟨.store "text/html" [60, 62], .ok exampleCompleted.dom⟩,
    ⟨.publishEvent renderCompletedSubject (.completed exampleCompleted), .ok ()⟩,
    ⟨.putMarker 7 "done", .ok ()⟩,
    ⟨.ack ⟨.ok exampleCommand⟩, .ok ()⟩]

/-- The event names the stored page. -/
theorem worker_publishes_rendered_page :
    Program.Exec (handleDelivery ⟨.ok exampleCommand⟩) exampleTrace .terminal ∧
      renderCompletedSubject = Event.subject (.completed exampleCompleted) ∧
      EventInv exampleLib .standard exampleCommand (exampleTrace.take 3)
        (.completed exampleCompleted) := by
  have hexec : Program.Exec (handleDelivery ⟨.ok exampleCommand⟩) exampleTrace .terminal :=
    .ask _ _ _ (.ask _ _ _ (.ask _ _ _ (.ask _ _ _ (.ask _ _ _ (.ask _ _ _ (.done _))))))
  have hrendered : ∀ x ∈ exampleTrace, ByExecutor exampleLib .standard x := by
    obtain ⟨s, hs, hphase, -⟩ := exampleRendering
    have hanswer : Rendered exampleLib .standard exampleCommand (.ok exampleOutcome) :=
      ⟨s, _, hs, hphase, rfl⟩
    simp only [exampleTrace, List.forall_mem_cons]
    exact ⟨trivial, hanswer, trivial, trivial, trivial, trivial, fun _ hx => nomatch hx⟩
  exact ⟨hexec, worker_publishes_rendered rfl hexec hrendered rfl⟩

end BrowserWorker

end Extractor
