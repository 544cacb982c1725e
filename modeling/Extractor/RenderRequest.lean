import Mathlib.Logic.Function.Basic
import Extractor.Contracts
import Extractor.Lib.System

/-!
# Render requests

`crates/render-job` and `request_render` of `crates/eventing/src/render.rs`: the messages that
the extractor and the browser worker exchange, and any number of concurrent requests over the
one render-await consumer they share.

The consumer acknowledges nothing: the broker hands every published event to exactly one pull,
and what a request has pulled is gone for the others. A request pulls at most
`RENDER_FETCH_BATCH` events, reads them one by one, returns with the first that answers it, and
otherwise looks at its deadline, sleeps and pulls again. Between any two of these steps other
requests run, time passes, and the worker publishes.

Failures of the transport are not modelled. The clock counts milliseconds.

## Main definitions

* `RenderCall`: where one call of `request_render` stands.
* `renderSystem`: any number of calls, the worker and the clock.
-/

namespace Extractor

/-! ### Messages -/

/-- `RENDER_COMPLETED_SUBJECT`. -/
def renderCompletedSubject : String := "evt.content.render.completed.v1"

/-- `RENDER_FAILED_SUBJECT`. -/
def renderFailedSubject : String := "evt.content.render.failed.v1"

/-- `RenderFailureClass`. -/
inductive RenderFailureClass
  | policyBlocked
  | navigationTimeout
  | totalTimeout
  | sizeLimit
  | navigationFailed
  | browserUnavailable
  deriving DecidableEq

/-- `RenderFailureClass::as_str`. -/
def RenderFailureClass.asStr : RenderFailureClass → String
  | .policyBlocked => "policy_blocked"
  | .navigationTimeout => "navigation_timeout"
  | .totalTimeout => "total_timeout"
  | .sizeLimit => "size_limit"
  | .navigationFailed => "navigation_failed"
  | .browserUnavailable => "browser_unavailable"

/-- `RenderBudgets`. -/
structure RenderBudgets where
  navigationTimeoutMs : ℕ
  totalTimeoutMs : ℕ
  maxDomBytes : ℕ
  deriving DecidableEq

/-- `RenderCommand`. -/
structure RenderCommand where
  renderId : Uuid
  operationId : Uuid
  correlationId : String
  tenantUserId : Uuid
  url : String
  budgets : RenderBudgets
  deriving DecidableEq

/-- `RenderCompleted`; the network evidence is not read here. -/
structure RenderCompleted where
  renderId : Uuid
  finalUrl : String
  dom : BlobRef
  deriving DecidableEq

/-- `RenderFailed`. -/
structure RenderFailed where
  renderId : Uuid
  failureClass : RenderFailureClass
  deriving DecidableEq

/-- `RenderOutcome`. -/
inductive RenderOutcome
  | completed (completed : RenderCompleted)
  | failed (failed : RenderFailed)
  deriving DecidableEq

/-- A message of the event stream. -/
structure RenderMessage where
  subject : String
  payload : List UInt8
  deriving DecidableEq

/-- The JSON decoding of the two events. -/
structure RenderLib where
  completed : List UInt8 → Option RenderCompleted
  failed : List UInt8 → Option RenderFailed

namespace RenderLib

variable (lib : RenderLib)

/-- The completion in a message. -/
def completion (m : RenderMessage) : Option RenderCompleted :=
  if m.subject = renderCompletedSubject then lib.completed m.payload else none

/-- The failure in a message. -/
def failure (m : RenderMessage) : Option RenderFailed :=
  if m.subject = renderFailedSubject then lib.failed m.payload else none

/-- What `request_render` makes of a message: its outcome if the message answers the render. -/
def outcome (renderId : Uuid) (m : RenderMessage) : Option RenderOutcome :=
  match (lib.completion m).filter fun c => c.renderId == renderId with
  | some completed => some (.completed completed)
  | none => ((lib.failure m).filter fun f => f.renderId == renderId).map .failed

/-- The renders that a message names. -/
def names (m : RenderMessage) : List Uuid :=
  ((lib.completion m).map RenderCompleted.renderId).toList ++
    ((lib.failure m).map RenderFailed.renderId).toList

/-- A message answers a render that it names. -/
theorem mem_names_of_outcome {renderId : Uuid} {m : RenderMessage}
    (h : (lib.outcome renderId m).isSome = true) : renderId ∈ lib.names m := by
  unfold outcome at h
  rw [names, List.mem_append, Option.mem_toList, Option.mem_toList]
  split at h
  · next completed hcompleted =>
      obtain ⟨hc, hid⟩ := Option.filter_eq_some_iff.mp hcompleted
      refine Or.inl ?_
      rw [hc]
      exact congrArg some (beq_iff_eq.mp hid)
  · obtain ⟨o, ho⟩ := Option.isSome_iff_exists.mp h
    obtain ⟨failed, hfailed, -⟩ := Option.map_eq_some_iff.mp ho
    obtain ⟨hf, hid⟩ := Option.filter_eq_some_iff.mp hfailed
    refine Or.inr ?_
    rw [hf]
    exact congrArg some (beq_iff_eq.mp hid)

end RenderLib

/-! ### The calls -/

/-- `RenderRequestError`. -/
inductive RenderRequestError
  | transport
  | timeout
  deriving DecidableEq

/-- `RENDER_FETCH_BATCH`. -/
def renderFetchBatch : ℕ := 32

/-- `RENDER_POLL_INTERVAL`, in milliseconds. -/
def renderPollInterval : ℕ := 100

/-- A published event and when it was published. -/
structure RenderEvent where
  message : RenderMessage
  publishedAt : ℕ
  deriving DecidableEq

/-- Where one call of `request_render` stands. -/
inductive RenderCall
  | idle
  /-- The command is published, and the call looks up the consumer. -/
  | connecting (command : RenderCommand)
  /-- The call sleeps, and pulls from `wake` on. -/
  | polling (command : RenderCommand) (deadline wake : ℕ)
  /-- The call has pulled a batch and reads it. -/
  | reading (command : RenderCommand) (deadline : ℕ) (batch : List RenderEvent)
  | returned (command : RenderCommand) (deadline : ℕ)
      (result : Except RenderRequestError RenderOutcome)

namespace RenderCall

/-- The render that a pending call waits for. -/
def awaits : RenderCall → Option Uuid
  | .connecting command => some command.renderId
  | .polling command _ _ => some command.renderId
  | .reading command _ _ => some command.renderId
  | .idle | .returned _ _ _ => none

/-- The render that a call was made for. -/
def renderId : RenderCall → Option Uuid
  | .idle => none
  | .connecting command => some command.renderId
  | .polling command _ _ => some command.renderId
  | .reading command _ _ => some command.renderId
  | .returned command _ _ => some command.renderId

/-- The events that a call has pulled and not read yet. -/
def batch : RenderCall → List RenderEvent
  | .reading _ _ batch => batch
  | _ => []

end RenderCall

/-- The clock, the renders requested so far, the events the consumer has not delivered yet, all
events published so far, and the calls. -/
structure RenderState where
  now : ℕ
  requested : List Uuid
  undelivered : List RenderEvent
  published : List RenderEvent
  calls : ℕ → RenderCall

/-- What may happen next. -/
inductive RenderLabel
  /-- Time passes. -/
  | tick (elapsed : ℕ)
  /-- A call publishes its command, under a fresh identifier. -/
  | request (call : ℕ) (command : RenderCommand)
  /-- A call has the consumer and fixes its deadline. -/
  | connect (call : ℕ)
  /-- The worker publishes an event for a render that was requested. -/
  | publish (message : RenderMessage)
  /-- A call pulls. -/
  | pull (call : ℕ)
  /-- A call reads the next event of its batch. -/
  | read (call : ℕ)
  /-- A call has read its batch and looks at its deadline. -/
  | check (call : ℕ)

section System

variable (lib : RenderLib)

/-- A call moves on. -/
def RenderState.setCall (s : RenderState) (call : ℕ) (c : RenderCall) : RenderState :=
  { s with calls := Function.update s.calls call c }

/-- The state of a call that has read `event` of its batch. -/
def readEvent (command : RenderCommand) (deadline : ℕ) (event : RenderEvent)
    (rest : List RenderEvent) : RenderCall :=
  match lib.outcome command.renderId event.message with
  | some outcome => .returned command deadline (.ok outcome)
  | none => .reading command deadline rest

/-- The state of a call that has read its whole batch. -/
def checkDeadline (now : ℕ) (command : RenderCommand) (deadline : ℕ) : RenderCall :=
  if deadline ≤ now then .returned command deadline (.error .timeout)
  else .polling command deadline (now + min renderPollInterval (deadline - now))

/-- One step of the system; `none` when the label is not enabled. -/
def renderStep (s : RenderState) : RenderLabel → Option RenderState
  | .tick elapsed => some { s with now := s.now + elapsed }
  | .request call command =>
      match s.calls call with
      | .idle =>
          if command.renderId ∈ s.requested then none
          else some { s.setCall call (.connecting command) with
            requested := s.requested ++ [command.renderId] }
      | _ => none
  | .connect call =>
      match s.calls call with
      | .connecting command =>
          some (s.setCall call
            (.polling command (s.now + command.budgets.totalTimeoutMs) s.now))
      | _ => none
  | .publish message =>
      if ∀ id ∈ lib.names message, id ∈ s.requested then
        some { s with
          undelivered := s.undelivered ++ [⟨message, s.now⟩]
          published := s.published ++ [⟨message, s.now⟩] }
      else none
  | .pull call =>
      match s.calls call with
      | .polling command deadline wake =>
          if wake ≤ s.now then
            some { s.setCall call
                (.reading command deadline (s.undelivered.take renderFetchBatch)) with
              undelivered := s.undelivered.drop renderFetchBatch }
          else none
      | _ => none
  | .read call =>
      match s.calls call with
      | .reading command deadline (event :: rest) =>
          some (s.setCall call (readEvent lib command deadline event rest))
      | _ => none
  | .check call =>
      match s.calls call with
      | .reading command deadline [] =>
          some (s.setCall call (checkDeadline s.now command deadline))
      | _ => none

/-- No render has been requested. -/
def RenderState.Initial (s : RenderState) : Prop :=
  s.requested = [] ∧ s.undelivered = [] ∧ s.published = [] ∧ ∀ call, s.calls call = .idle

/-- **The render system**: any number of calls of `request_render` over one consumer. -/
def renderSystem : Labelled.System RenderState RenderLabel :=
  Labelled.System.ofStep RenderState.Initial (renderStep lib)

/-- The events that a step throws away: the one read, if it does not answer the call, and the
rest of the batch, if it does. -/
def RenderState.discards (s : RenderState) : RenderLabel → List RenderEvent
  | .read call =>
      match s.calls call with
      | .reading command _ (event :: rest) =>
          if (lib.outcome command.renderId event.message).isSome then rest else [event]
      | _ => []
  | _ => []

end System

end Extractor
