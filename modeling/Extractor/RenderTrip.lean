import Mathlib.Data.Countable.Basic
import Mathlib.Logic.Equiv.List
import Extractor.BrowserExecutor
import Extractor.RenderReplies

/-!
# A render from the request to the reply

The two parties of a render are modelled apart: `request_render` of
`crates/eventing/src/render.rs` over a consumer into which somebody publishes, and
`run_render_consumer` of the browser worker over messages that somebody delivers. Here they meet.
The extractor publishes commands and the broker delivers them to the worker, any of them, any number
of times and in any order; the worker asks the executor, the store and the broker, is stopped,
crashes and starts again; what it publishes is pulled by the requests. A publication whose
acknowledgement is lost may have arrived.

Each side keeps what the other one relies on. The worker announces only renders that were requested,
so the requests are those of the render system; and the reply a request returns is evidence of a
rendering of the very command it sent.

## Main results

* `render_round_trip`: what the replies mean.
-/

namespace Extractor

open Labelled

namespace RenderTrip

open BrowserWorker (Event Message Request WorkerState World Process handleDelivery renderCommand
  Rendered ByExecutor EventOf PublishesEvidence handleDelivery_evidence)

/-! ### The wire -/

/-- `serde_json` on the types of `crates/render-job`, on both sides. -/
structure RenderWire where
  encodeCommand : RenderCommand → List UInt8
  decodeCommand : List UInt8 → Except String RenderCommand
  encodeEvent : Event → List UInt8
  /-- The decoders of the extractor. -/
  events : RenderLib

/-- What is encoded on one side is decoded on the other. -/
structure RenderWire.RoundTrips (wire : RenderWire) : Prop where
  command : ∀ c, wire.decodeCommand (wire.encodeCommand c) = .ok c
  completed : ∀ c, wire.events.completed (wire.encodeEvent (.completed c)) =
    some c.toRenderCompleted
  failed : ∀ f, wire.events.failed (wire.encodeEvent (.failed f)) = some f

/-- The delivery of a command. -/
def RenderWire.delivery (wire : RenderWire) (command : RenderCommand) : Message :=
  ⟨wire.decodeCommand (wire.encodeCommand command)⟩

/-- The message of an event. -/
def RenderWire.message (wire : RenderWire) (subject : String) (event : Event) : RenderMessage :=
  ⟨subject, wire.encodeEvent event⟩

/-! ### The system -/

/-- Both parties, the commands that were published, and what the worker was answered. -/
structure Trip where
  requests : RenderState
  worker : WorkerState
  sent : List RenderCommand
  exchanges : Program.Trace Request

/-- What takes a step. -/
inductive TripLabel
  /-- A request moves on, or time passes. -/
  | extractor (a : RenderLabel)
  /-- The worker's supervisor, its message stream, or the bucket of markers. -/
  | surroundings (a : BrowserWorker.Label)
  /-- A command is delivered. -/
  | deliver (command : RenderCommand)
  /-- The worker is answered. -/
  | exchange

/-- The command that a step of the extractor publishes. -/
def commandOf : RenderLabel → List RenderCommand
  | .request _ command => [command]
  | _ => []

/-- Messages arrive in the event stream. -/
def announce (s : RenderState) (messages : List RenderMessage) : RenderState :=
  { s with
    undelivered := s.undelivered ++ messages.map (RenderEvent.mk · s.now)
    published := s.published ++ messages.map (RenderEvent.mk · s.now) }

/-- What arrives in the event stream by an exchange. -/
def Arrives (wire : RenderWire) : Program.Exchange Request → List RenderMessage → Prop
  | ⟨.publishEvent subject event, .ok ()⟩, messages => messages = [wire.message subject event]
  | ⟨.publishEvent subject event, .error _⟩, messages =>
      messages = [] ∨ messages = [wire.message subject event]
  | _, messages => messages = []

section System

variable (lib : UrlLib) (policy : BrowserWorker.NavigationPolicy) (wire : RenderWire)
  (maxJobs : ℕ) (lookupsFail : Bool)

/-- One step. -/
inductive TripStep : Trip → TripLabel → Trip → Prop
  | extractor {s : Trip} {a : RenderLabel} {requests : RenderState}
      (hown : ∀ message, a ≠ .publish message)
      (hst : renderStep wire.events s.requests a = some requests) :
      TripStep s (.extractor a) { s with requests := requests, sent := s.sent ++ commandOf a }
  | surroundings {s : Trip} {a : BrowserWorker.Label} {worker : WorkerState}
      (hdeliver : a ≠ .deliver) (hexchange : a ≠ .exchange)
      (hst : BrowserWorker.Step maxJobs lookupsFail s.worker a worker) :
      TripStep s (.surroundings a) { s with worker := worker }
  | deliver {s : Trip} {command : RenderCommand} {world : World} {handled : ℕ}
      (hsent : command ∈ s.sent) (hworker : s.worker = ⟨world, .waiting handled⟩) :
      TripStep s (.deliver command)
        { s with
          worker := ⟨world.append (.received (wire.delivery command)),
            .handling handled (wire.delivery command) (handleDelivery (wire.delivery command))⟩ }
  | exchange {s : Trip} {world world' : World} {handled : ℕ} {message : Message} {β : Type}
      {e : Request β} {k : β → Program Request BrowserWorker.DeliveryOutcome} {x : β}
      {messages : List RenderMessage}
      (hworker : s.worker = ⟨world, .handling handled message (.ask e k)⟩)
      (heffect : BrowserWorker.effect lookupsFail world ⟨e, x⟩ world')
      (hexecutor : ByExecutor lib policy ⟨e, x⟩) (harrives : Arrives wire ⟨e, x⟩ messages) :
      TripStep s .exchange
        { s with
          requests := announce s.requests messages
          worker := ⟨world', .handling handled message (k x)⟩
          exchanges := s.exchanges ++ [⟨e, x⟩] }

/-- **The trip**: requests, broker, worker and executor, in every interleaving. -/
def tripSystem : System Trip TripLabel where
  init s := s.requests.Initial ∧ s.worker = BrowserWorker.initialState ∧ s.sent = [] ∧
    s.exchanges = []
  step := TripStep lib policy wire maxJobs lookupsFail

end System

/-! ### The requests -/

/-- The command that a call was made for. -/
def callCommand : RenderCall → Option RenderCommand
  | .idle => none
  | .connecting command => some command
  | .polling command _ _ => some command
  | .reading command _ _ => some command
  | .returned command _ _ => some command

section Requests

variable {events : RenderLib} {s t : RenderState}

/-- Identifiers are fresh, and what a request reads was published. -/
structure RequestsInv (events : RenderLib) (s : RenderState) : Prop where
  fresh : s.requested.Nodup
  undelivered : ∀ event ∈ s.undelivered, event ∈ s.published
  batch : ∀ call, ∀ event ∈ (s.calls call).batch, event ∈ s.published
  answered : ∀ call command deadline outcome,
    s.calls call = .returned command deadline (.ok outcome) →
      ∃ event ∈ s.published, events.outcome command.renderId event.message = some outcome

/-- A call moves on among the events that were published. -/
theorem RequestsInv.setCall (h : RequestsInv events s) (call : ℕ) {c : RenderCall}
    (hbatch : ∀ event ∈ c.batch, event ∈ s.published)
    (hanswered : ∀ command deadline outcome, c = .returned command deadline (.ok outcome) →
      ∃ event ∈ s.published, events.outcome command.renderId event.message = some outcome) :
    RequestsInv events (s.setCall call c) where
  fresh := h.fresh
  undelivered := h.undelivered
  batch other := by
    by_cases hother : other = call
    · subst hother
      rw [RenderState.setCall_self]
      exact hbatch
    · rw [RenderState.setCall_of_ne c hother]
      exact h.batch other
  answered other command deadline outcome hcall := by
    by_cases hother : other = call
    · subst hother
      rw [RenderState.setCall_self] at hcall
      exact hanswered command deadline outcome hcall
    · rw [RenderState.setCall_of_ne c hother] at hcall
      exact h.answered other command deadline outcome hcall

theorem requestsInv_of_reachable (h : (renderSystem events).Reachable s) :
    RequestsInv events s := by
  refine h.invariant ?_ ?_
  · rintro s ⟨hrequested, hundelivered, hpublished, hcalls⟩
    refine ⟨hrequested ▸ List.nodup_nil, ?_, ?_, ?_⟩
    · rw [hundelivered]
      exact fun event hevent => absurd hevent List.not_mem_nil
    · intro call event hevent
      rw [hcalls call] at hevent
      exact absurd hevent List.not_mem_nil
    · intro call command deadline outcome hcall
      rw [hcalls call] at hcall
      cases hcall
  · intro s a t _ h hst
    cases renderMove_of_step hst with
    | tick elapsed => exact ⟨h.fresh, h.undelivered, h.batch, h.answered⟩
    | request hcall hfresh =>
        rename_i call command
        have hset := h.setCall call (c := .connecting command)
          (fun event hevent => absurd hevent List.not_mem_nil) fun _ _ _ hc => by cases hc
        refine ⟨?_, hset.undelivered, hset.batch, hset.answered⟩
        exact h.fresh.append (List.nodup_singleton _) fun id hid hid' =>
          hfresh (List.mem_singleton.mp hid' ▸ hid)
    | connect hcall =>
        exact h.setCall _ (fun event hevent => absurd hevent List.not_mem_nil)
          fun _ _ _ hc => by cases hc
    | publish hnames =>
        refine ⟨h.fresh, fun event hevent => ?_, fun call event hevent => ?_, ?_⟩
        · exact (List.mem_append.mp hevent).elim
            (fun hold => List.mem_append_left _ (h.undelivered event hold))
            (fun hnew => List.mem_append_right _ hnew)
        · exact List.mem_append_left _ (h.batch call event hevent)
        · intro call command deadline outcome hcall
          obtain ⟨event, hevent, houtcome⟩ := h.answered call command deadline outcome hcall
          exact ⟨event, List.mem_append_left _ hevent, houtcome⟩
    | pull hcall hwake =>
        rename_i call deadline wake command
        have hset := h.setCall call
          (c := .reading command deadline (s.undelivered.take renderFetchBatch))
          (fun event hevent => h.undelivered event (List.mem_of_mem_take hevent))
          fun _ _ _ hc => by cases hc
        exact ⟨hset.fresh, fun event hevent => h.undelivered event (List.mem_of_mem_drop hevent),
          hset.batch, hset.answered⟩
    | found hcall houtcome =>
        rename_i call deadline command event outcome rest
        refine h.setCall _ (fun event hevent => absurd hevent List.not_mem_nil) ?_
        rintro _ _ _ ⟨⟩
        refine ⟨event, h.batch call event ?_, houtcome⟩
        rw [hcall]
        exact List.mem_cons_self ..
    | skip hcall houtcome =>
        rename_i call deadline command event rest
        refine h.setCall _ (fun event hevent => h.batch call event ?_) fun _ _ _ hc => by cases hc
        rw [hcall]
        exact List.mem_cons_of_mem _ hevent
    | timeout hcall hdeadline =>
        exact h.setCall _ (fun event hevent => absurd hevent List.not_mem_nil)
          fun _ _ _ hc => by cases hc
    | retry hcall hdeadline =>
        exact h.setCall _ (fun event hevent => absurd hevent List.not_mem_nil)
          fun _ _ _ hc => by cases hc

/-- Who a call is made for changes when it is made. -/
theorem callCommand_step {a : RenderLabel} (hst : renderStep events s a = some t) {call : ℕ}
    {command : RenderCommand} (h : callCommand (t.calls call) = some command) :
    callCommand (s.calls call) = some command ∨ command ∈ commandOf a := by
  have hset : ∀ {own : ℕ} {c : RenderCall}, callCommand ((s.setCall own c).calls call) =
      some command → callCommand (s.calls call) = some command ∨
        call = own ∧ callCommand c = some command := by
    intro own c hc
    by_cases hown : call = own
    · subst hown
      rw [RenderState.setCall_self] at hc
      exact Or.inr ⟨rfl, hc⟩
    · rw [RenderState.setCall_of_ne c hown] at hc
      exact Or.inl hc
  cases renderMove_of_step hst with
  | tick | publish => exact Or.inl h
  | request hcall hfresh =>
      rcases hset h with hold | ⟨rfl, hnew⟩
      · exact Or.inl hold
      · exact Or.inr (List.mem_singleton.mpr (Option.some.inj hnew).symm)
  | connect hcall | pull hcall | found hcall | skip hcall | timeout hcall | retry hcall =>
      rcases hset h with hold | ⟨rfl, hnew⟩
      · exact Or.inl hold
      · rw [hcall]
        exact Or.inl hnew

end Requests

/-! ### The messages -/

section Messages

variable {wire : RenderWire} {event : Event} {id : Uuid}

/-- What an event says to a request. -/
def outcomeOf : Event → RenderOutcome
  | .completed c => .completed c.toRenderCompleted
  | .failed f => .failed f

theorem subjects_ne : renderCompletedSubject ≠ renderFailedSubject := by decide

/-- A completion is read as one, and as nothing else. -/
theorem RenderWire.RoundTrips.decode_completed (hwire : wire.RoundTrips)
    (c : BrowserWorker.Completed) :
    wire.events.completion (wire.message (Event.completed c).subject (.completed c)) =
        some c.toRenderCompleted ∧
      wire.events.failure (wire.message (Event.completed c).subject (.completed c)) = none :=
  ⟨hwire.completed c, if_neg subjects_ne⟩

/-- So is a failure. -/
theorem RenderWire.RoundTrips.decode_failed (hwire : wire.RoundTrips) (f : RenderFailed) :
    wire.events.completion (wire.message (Event.failed f).subject (.failed f)) = none ∧
      wire.events.failure (wire.message (Event.failed f).subject (.failed f)) = some f :=
  ⟨if_neg subjects_ne.symm, hwire.failed f⟩

/-- A message names the render of its event. -/
theorem names_message (hwire : wire.RoundTrips) (event : Event) :
    wire.events.names (wire.message event.subject event) = [event.renderId] := by
  cases event with
  | completed c =>
      obtain ⟨hcompletion, hfailure⟩ := hwire.decode_completed c
      rw [RenderLib.names, hcompletion, hfailure]
      rfl
  | failed f =>
      obtain ⟨hcompletion, hfailure⟩ := hwire.decode_failed f
      rw [RenderLib.names, hcompletion, hfailure]
      rfl

/-- It answers the render that it names. -/
theorem outcome_message (hwire : wire.RoundTrips) {outcome : RenderOutcome}
    (h : wire.events.outcome id (wire.message event.subject event) = some outcome) :
    event.renderId = id ∧ outcome = outcomeOf event := by
  cases event with
  | completed c =>
      obtain ⟨hcompletion, hfailure⟩ := hwire.decode_completed c
      rw [RenderLib.outcome, hcompletion, hfailure, Option.filter_some] at h
      split at h
      · rename_i completed hfilter
        obtain ⟨hid, hc⟩ := Option.ite_none_right_eq_some.mp hfilter
        obtain rfl := Option.some.inj hc
        exact ⟨beq_iff_eq.mp hid, (Option.some.inj h).symm⟩
      · cases h
  | failed f =>
      obtain ⟨hcompletion, hfailure⟩ := hwire.decode_failed f
      rw [RenderLib.outcome, hcompletion, hfailure] at h
      obtain ⟨failed, hfilter, houtcome⟩ := Option.map_eq_some_iff.mp h
      obtain ⟨hf, hid⟩ := Option.filter_eq_some_iff.mp hfilter
      obtain rfl := Option.some.inj hf
      exact ⟨beq_iff_eq.mp hid, houtcome.symm⟩

end Messages

/-! ### The invariant -/

section Invariant

variable {lib : UrlLib} {policy : BrowserWorker.NavigationPolicy} {wire : RenderWire}
  {maxJobs : ℕ} {lookupsFail : Bool} {s t : Trip}

/-- Each side keeps what the other relies on, and what arrived is evidence. -/
structure TripInv (lib : UrlLib) (policy : BrowserWorker.NavigationPolicy) (wire : RenderWire)
    (maxJobs : ℕ) (lookupsFail : Bool) (s : Trip) : Prop where
  requests : (renderSystem wire.events).Reachable s.requests
  worker : (BrowserWorker.worker maxJobs lookupsFail).Reachable s.worker
  sent : s.sent.map RenderCommand.renderId = s.requests.requested
  asked : ∀ call command, callCommand (s.requests.calls call) = some command → command ∈ s.sent
  handling : ∀ handled message rest, s.worker.process = .handling handled message rest →
    ∃ command ∈ s.sent, ∃ h, h ⊆ s.exchanges ∧
      rest.Ensures (PublishesEvidence command) h fun _ _ => True
  executor : ∀ x ∈ s.exchanges, ByExecutor lib policy x
  arrived : ∀ e ∈ s.requests.published, ∃ command ∈ s.sent, ∃ event,
    e.message = wire.message event.subject event ∧ EventOf command s.exchanges event

/-- What arrives by an exchange is evidence of what was exchanged before. -/
theorem Arrives.evidence {messages : List RenderMessage} {β : Type} {e : Request β} {x : β}
    {command : RenderCommand} {h : Program.Trace Request} (harrives : Arrives wire ⟨e, x⟩ messages)
    (hevidence : PublishesEvidence command h e) :
    messages = [] ∨ ∃ event, messages = [wire.message event.subject event] ∧
      EventOf command h event := by
  cases e with
  | publishEvent subject event =>
      obtain ⟨rfl, hevent⟩ := hevidence
      cases x with
      | ok u => exact Or.inr ⟨event, harrives, hevent⟩
      | error e =>
          rcases harrives with hnone | hone
          · exact Or.inl hnone
          · exact Or.inr ⟨event, hone, hevent⟩
  | getMarker | render | store | putMarker | ack => exact Or.inl harrives

/-- The extractor publishes no events. -/
theorem published_step {events : RenderLib} {s t : RenderState} {a : RenderLabel}
    (hown : ∀ message, a ≠ .publish message) (hst : renderStep events s a = some t) :
    t.published = s.published ∧
      t.requested = s.requested ++ (commandOf a).map RenderCommand.renderId := by
  cases renderMove_of_step hst with
  | publish hnames => exact absurd rfl (hown _)
  | request hcall hfresh => exact ⟨rfl, rfl⟩
  | tick | connect | pull | found | skip | timeout | retry =>
      exact ⟨rfl, (List.append_nil _).symm⟩

/-- Only a delivery and an answer change what is being handled. -/
theorem handling_surroundings {s t : WorkerState} {a : BrowserWorker.Label}
    (hdeliver : a ≠ .deliver) (hexchange : a ≠ .exchange)
    (hst : BrowserWorker.Step maxJobs lookupsFail s a t) {handled : ℕ} {message : Message}
    {rest : Program Request BrowserWorker.DeliveryOutcome}
    (h : t.process = .handling handled message rest) :
    s.process = .handling handled message rest := by
  cases hst with
  | deliver => exact absurd rfl hdeliver
  | exchange => exact absurd rfl hexchange
  | expire => exact h
  | finish =>
      rename_i w handled' message' outcome
      change BrowserWorker.afterDelivery maxJobs handled' outcome = _ at h
      cases outcome with
      | skipped => cases h
      | terminal =>
          rw [BrowserWorker.afterDelivery] at h
          split at h <;> cases h
  | start | restart | deliveryError | stop | crash => cases h

/-- A message that names a requested render may arrive. -/
theorem reachable_announce (hwire : wire.RoundTrips) {s : RenderState} {event : Event}
    (hs : (renderSystem wire.events).Reachable s) (hid : event.renderId ∈ s.requested) :
    (renderSystem wire.events).Reachable (announce s [wire.message event.subject event]) := by
  have hnames : ∀ id ∈ wire.events.names (wire.message event.subject event),
      id ∈ s.requested := by
    rw [names_message hwire]
    exact fun id hmem => List.mem_singleton.mp hmem ▸ hid
  have hst : renderStep wire.events s (.publish (wire.message event.subject event)) =
      some (announce s [wire.message event.subject event]) := by
    rw [renderStep, if_pos hnames]
    rfl
  exact hs.step hst

theorem TripInv.step (hwire : wire.RoundTrips) (h : TripInv lib policy wire maxJobs lookupsFail s)
    {a : TripLabel} (hst : TripStep lib policy wire maxJobs lookupsFail s a t) :
    TripInv lib policy wire maxJobs lookupsFail t := by
  cases hst with
  | extractor hown hst =>
      obtain ⟨hpublished, hrequested⟩ := published_step hown hst
      refine ⟨h.requests.step hst, h.worker, ?_, ?_, ?_, h.executor, ?_⟩
      · change List.map _ (_ ++ _) = _
        rw [List.map_append, h.sent, hrequested]
      · intro call command hcall
        rcases callCommand_step hst hcall with hold | hnew
        · exact List.mem_append_left _ (h.asked call command hold)
        · exact List.mem_append_right _ hnew
      · intro handled message rest hprocess
        obtain ⟨command, hsent, hrest⟩ := h.handling handled message rest hprocess
        exact ⟨command, List.mem_append_left _ hsent, hrest⟩
      · intro e he
        rw [hpublished] at he
        obtain ⟨command, hsent, hevent⟩ := h.arrived e he
        exact ⟨command, List.mem_append_left _ hsent, hevent⟩
  | surroundings hdeliver hexchange hst =>
      refine ⟨h.requests, h.worker.step hst, h.sent, h.asked, ?_, h.executor, h.arrived⟩
      intro handled message rest hprocess
      exact h.handling handled message rest
        (handling_surroundings hdeliver hexchange hst hprocess)
  | deliver hsent hworker =>
      rename_i command world handled
      have hreach := h.worker
      rw [hworker] at hreach
      refine ⟨h.requests, hreach.step (.deliver _), h.sent, h.asked, ?_, h.executor, h.arrived⟩
      rintro _ _ _ ⟨⟩
      exact ⟨command, hsent, [], List.nil_subset _,
        handleDelivery_evidence (hwire.command command)⟩
  | exchange hworker heffect hexecutor harrives =>
      rename_i world world' handled message β e k x messages
      have hreach := h.worker
      rw [hworker] at hreach
      obtain ⟨command, hsent, history, hsub, hevidence, hrest⟩ :=
        h.handling handled message (.ask e k) (by rw [hworker])
      have hgrows : s.exchanges ⊆ s.exchanges ++ [⟨e, x⟩] := List.subset_append_left _ _
      have hid : command.renderId ∈ s.requests.requested := h.sent ▸ List.mem_map_of_mem hsent
      have hnew : ∀ event, EventOf command history event →
          EventOf command (s.exchanges ++ [⟨e, x⟩]) event := fun event hevent =>
        hevent.mono fun y hy => hgrows (hsub hy)
      have hkept : (renderSystem wire.events).Reachable (announce s.requests messages) ∧
          ∀ arrived ∈ (announce s.requests messages).published, ∃ command ∈ s.sent, ∃ event,
            arrived.message = wire.message event.subject event ∧
              EventOf command (s.exchanges ++ [⟨e, x⟩]) event := by
        have hold : ∀ arrived ∈ s.requests.published, ∃ command ∈ s.sent, ∃ event,
            arrived.message = wire.message event.subject event ∧
              EventOf command (s.exchanges ++ [⟨e, x⟩]) event := by
          intro arrived harrived
          obtain ⟨command, hsent, event, hmessage, hevent⟩ := h.arrived arrived harrived
          exact ⟨command, hsent, event, hmessage, hevent.mono hgrows⟩
        rcases harrives.evidence hevidence with rfl | ⟨event, rfl, hevent⟩
        · rw [announce, List.map_nil, List.append_nil, List.append_nil]
          exact ⟨h.requests, hold⟩
        · refine ⟨reachable_announce hwire h.requests (hevent.1 ▸ hid), fun arrived harrived => ?_⟩
          rcases List.mem_append.mp harrived with harrived | harrived
          · exact hold arrived harrived
          · obtain rfl := List.mem_singleton.mp harrived
            exact ⟨command, hsent, event, rfl, hnew event hevent⟩
      refine ⟨hkept.1, hreach.step (.exchange x heffect), h.sent, h.asked, ?_, ?_, hkept.2⟩
      · rintro _ _ _ ⟨⟩
        refine ⟨command, hsent, history ++ [⟨e, x⟩], ?_, hrest x⟩
        exact List.append_subset.mpr ⟨fun y hy => hgrows (hsub hy), List.subset_append_right _ _⟩
      · intro y hy
        rcases List.mem_append.mp hy with hy | hy
        · exact h.executor y hy
        · obtain rfl := List.mem_singleton.mp hy
          exact hexecutor

/-- **The invariant holds in every reachable state of the trip.** -/
theorem tripInv_of_reachable (hwire : wire.RoundTrips)
    (h : (tripSystem lib policy wire maxJobs lookupsFail).Reachable s) :
    TripInv lib policy wire maxJobs lookupsFail s := by
  refine h.invariant ?_ fun s a t _ hinv hst => hinv.step hwire hst
  rintro s ⟨hrequests, hworker, hsent, hexchanges⟩
  have hempty : ∀ call, s.requests.calls call = .idle := hrequests.2.2.2
  refine ⟨.init hrequests, .init hworker, ?_, ?_, ?_, ?_, ?_⟩
  · rw [hsent, hrequests.1]
    rfl
  · intro call command hcall
    rw [hempty call] at hcall
    cases hcall
  · intro handled message rest hprocess
    rw [hworker] at hprocess
    cases hprocess
  · rw [hexchanges]
    exact fun x hx => absurd hx List.not_mem_nil
  · rw [hrequests.2.2.1]
    exact fun e he => absurd he List.not_mem_nil

/-- What a request returned is an event for its own command. -/
theorem TripInv.replied (hwire : wire.RoundTrips)
    (h : TripInv lib policy wire maxJobs lookupsFail s) {call deadline : ℕ}
    {command : RenderCommand} {outcome : RenderOutcome}
    (hcall : s.requests.calls call = .returned command deadline (.ok outcome)) :
    ∃ event, outcome = outcomeOf event ∧ EventOf command s.exchanges event := by
  have hrequests := requestsInv_of_reachable h.requests
  obtain ⟨arrived, harrived, houtcome⟩ := hrequests.answered call command deadline outcome hcall
  obtain ⟨command', hsent', event, hmessage, hevent⟩ := h.arrived arrived harrived
  rw [hmessage] at houtcome
  obtain ⟨hid, heq⟩ := outcome_message hwire houtcome
  have hsent := h.asked call command (by rw [hcall]; rfl)
  have hkeys : (s.sent.map RenderCommand.renderId).Nodup := h.sent ▸ hrequests.fresh
  obtain rfl := List.inj_on_of_nodup_map hkeys hsent' hsent (hevent.1.symm.trans hid)
  exact ⟨event, heq, hevent⟩

/-- **A reply is evidence of the rendering that was asked for**, whatever is redelivered, lost,
crashes or is answered late, and however many requests are pending: the requests are those of the
render system and the worker is the worker, in every reachable state; a request that returns a
completed render returns the page that the executor rendered for the very command of this request,
under an address that the policy approved in this rendering and within the budget of the command,
with the reference that the store gave for exactly these bytes; and one that returns a failure
returns the class with which the executor ended this command. -/
theorem render_round_trip (hwire : wire.RoundTrips)
    (h : (tripSystem lib policy wire maxJobs lookupsFail).Reachable s) :
    (renderSystem wire.events).Reachable s.requests ∧
    (BrowserWorker.worker maxJobs lookupsFail).Reachable s.worker ∧
    (∀ call command deadline completed,
      s.requests.calls call = .returned command deadline (.ok (.completed completed)) →
      completed.renderId = command.renderId ∧
        ∃ outcome, ⟨.render command, .ok outcome⟩ ∈ s.exchanges ∧
          (∃ t, (BrowserWorker.executorSystem lib policy command).Reachable t ∧
            t.phase = .finished (.ok outcome) ∧ t.Admitted lib policy command) ∧
          completed.finalUrl = outcome.finalUrl ∧
          ⟨.store "text/html" outcome.dom, .ok completed.dom⟩ ∈ s.exchanges ∧
          outcome.dom.length ≤ command.budgets.maxDomBytes) ∧
    ∀ call command deadline failed,
      s.requests.calls call = .returned command deadline (.ok (.failed failed)) →
      failed.renderId = command.renderId ∧
        ⟨.render command, .error (.failed failed.failureClass)⟩ ∈ s.exchanges := by
  have hinv := tripInv_of_reachable hwire h
  refine ⟨hinv.requests, hinv.worker, ?_, ?_⟩
  · intro call command deadline completed hcall
    obtain ⟨event, heq, hid, hevidence⟩ := hinv.replied hwire hcall
    cases event with
    | failed f => cases heq
    | completed c =>
        obtain rfl := RenderOutcome.completed.inj heq
        obtain ⟨outcome, hrender, hurl, -, hstore⟩ := hevidence
        have hrendered : Rendered lib policy command (.ok outcome) := hinv.executor _ hrender
        obtain ⟨t, ht, hphase, hadmitted, hfits⟩ := hrendered.ok
        exact ⟨hid, outcome, hrender, ⟨t, ht, hphase, hadmitted⟩, hurl, hstore, hfits⟩
  · intro call command deadline failed hcall
    obtain ⟨event, heq, hid, hevidence⟩ := hinv.replied hwire hcall
    cases event with
    | completed c => cases heq
    | failed f =>
        obtain rfl := RenderOutcome.failed.inj heq
        exact ⟨hid, hevidence⟩

end Invariant

/-! ### One trip -/

section Example

open BrowserWorker (exampleCommand exampleOutcome exampleCompleted exampleRendering)

/-- Values by number, after a byte that no JSON text starts with. -/
noncomputable def numbered {α : Type} [Countable α] (a : α) : List UInt8 :=
  0 :: List.replicate (Classical.choose (exists_injective_nat α) a) 0

open Classical in
/-- The value with a number. -/
noncomputable def unnumbered (α : Type) [Countable α] (bytes : List UInt8) : Option α :=
  if h : ∃ a : α, numbered a = bytes then some h.choose else none

theorem unnumbered_numbered {α : Type} [Countable α] (a : α) :
    unnumbered α (numbered a) = some a := by
  have h : ∃ b : α, numbered b = numbered a := ⟨a, rfl⟩
  rw [unnumbered, dif_pos h]
  have hlength := congrArg List.length h.choose_spec
  simp only [numbered, List.length_cons, List.length_replicate] at hlength
  exact congrArg some (Classical.choose_spec (exists_injective_nat α) (Nat.succ.inj hlength))

instance countableChar : Countable Char :=
  Function.Injective.countable (f := Char.toNat) fun _ _ h => Char.toNat_inj.mp h

instance countableString : Countable String :=
  Function.Injective.countable (f := String.toList) fun _ _ h => String.toList_inj.mp h

instance : Countable RenderCommand :=
  Function.Injective.countable (f := fun c : RenderCommand => (c.renderId, c.operationId,
    c.correlationId, c.tenantUserId, c.url, c.budgets.navigationTimeoutMs,
    c.budgets.totalTimeoutMs, c.budgets.maxDomBytes)) fun a b h => by
      obtain ⟨_, _, _, _, _, ⟨_, _, _⟩⟩ := a
      obtain ⟨_, _, _, _, _, ⟨_, _, _⟩⟩ := b
      cases h
      rfl

instance : Countable RenderCompleted :=
  Function.Injective.countable (f := fun c : RenderCompleted => (c.renderId, c.finalUrl,
    c.dom.ownerService, decide (c.dom.digest.algorithm = .sha256), c.dom.digest.hex,
    c.dom.mediaType, c.dom.lengthBytes)) fun a b h => by
      obtain ⟨_, _, ⟨_, ⟨algorithm, _⟩, _, _⟩⟩ := a
      obtain ⟨_, _, ⟨_, ⟨algorithm', _⟩, _, _⟩⟩ := b
      cases algorithm <;> cases algorithm' <;> cases h
      · rfl
      · rfl

theorem asStr_injective : Function.Injective RenderFailureClass.asStr := by
  intro a b h
  cases a <;> cases b <;> first | rfl | exact absurd h (by decide)

instance : Countable RenderFailed :=
  Function.Injective.countable (f := fun f : RenderFailed =>
    (f.renderId, f.failureClass.asStr)) fun a b h => by
      obtain ⟨hid, hclass⟩ := Prod.mk.inj h
      exact congrArg₂ RenderFailed.mk hid (asStr_injective hclass)

/-- The command of the example as it is published. -/
def commandJson : List UInt8 :=
  String.toUTF8 ("\x7b\"render_id\":\"00000000-0000-0000-0000-000000000007\"," ++
    "\"operation_id\":\"00000000-0000-0000-0000-000000000008\"," ++
    "\"correlation_id\":\"render\"," ++
    "\"tenant_user_id\":\"00000000-0000-0000-0000-000000000009\"," ++
    "\"url\":\"http://example.org/\",\"budgets\":\x7b\"navigation_timeout_ms\":15000," ++
    "\"total_timeout_ms\":30000,\"max_dom_bytes\":16\x7d\x7d") |>.toList

/-- The event of the example as it is published. -/
def completedJson : List UInt8 :=
  String.toUTF8 ("\x7b\"render_id\":\"00000000-0000-0000-0000-000000000007\"," ++
    "\"final_url\":\"http://example.org/\",\"dom\":\x7b" ++
    "\"owner_service\":\"ratatoskr-browser-worker\",\"digest\":\x7b" ++
    "\"algorithm\":\"sha256\",\"hex\":" ++
    "\"24295a9c545a402da4f2cc833dae7b4f3b80182f7f803516d580ca07c0642b64\"\x7d," ++
    "\"media_type\":\"text/html\",\"length_bytes\":2\x7d," ++
    "\"evidence\":\x7b\"hops\":[],\"blocked_requests\":1\x7d\x7d") |>.toList

/-- The example's command as it is published, other commands by number. -/
noncomputable def encodeExample (c : RenderCommand) : List UInt8 :=
  if c = exampleCommand then commandJson else numbered c

noncomputable def decodeExample (bytes : List UInt8) : Except String RenderCommand :=
  if bytes = commandJson then .ok exampleCommand
  else
    match unnumbered RenderCommand bytes with
    | some c => .ok c
    | none => .error "expected value at line 1 column 1"

/-- The example's event as it is published, other events by number. -/
noncomputable def encodeCompletion (c : BrowserWorker.Completed) : List UInt8 :=
  if c = exampleCompleted then completedJson else numbered c.toRenderCompleted

noncomputable def decodeCompletion (bytes : List UInt8) : Option RenderCompleted :=
  if bytes = completedJson then some exampleCompleted.toRenderCompleted
  else unnumbered RenderCompleted bytes

/-- The wire of the example. -/
noncomputable def exampleWire : RenderWire where
  encodeCommand := encodeExample
  decodeCommand := decodeExample
  encodeEvent
    | .completed c => encodeCompletion c
    | .failed f => numbered f
  events := ⟨decodeCompletion, unnumbered RenderFailed⟩

theorem numbered_ne {α : Type} [Countable α] {a : α} {json : List UInt8}
    (hjson : json.head? ≠ some 0) : numbered a ≠ json := by
  rintro rfl
  exact hjson rfl

theorem exampleWire_roundTrips : exampleWire.RoundTrips where
  command c := by
    change decodeExample (encodeExample c) = .ok c
    rw [encodeExample]
    by_cases hc : c = exampleCommand
    · rw [if_pos hc, decodeExample, if_pos rfl, hc]
    · rw [if_neg hc, decodeExample, if_neg (numbered_ne (by decide +kernel)),
        unnumbered_numbered]
  completed c := by
    change decodeCompletion (encodeCompletion c) = some _
    rw [encodeCompletion]
    by_cases hc : c = exampleCompleted
    · rw [if_pos hc, decodeCompletion, if_pos rfl, hc]
    · rw [if_neg hc, decodeCompletion, if_neg (numbered_ne (by decide +kernel)),
        unnumbered_numbered]
  failed f := unnumbered_numbered f

/-- The worker of a trip is answered. -/
theorem reachable_exchange {lib : UrlLib} {policy : BrowserWorker.NavigationPolicy}
    {wire : RenderWire} {maxJobs : ℕ} {lookupsFail : Bool} {requests : RenderState}
    {sent : List RenderCommand} {exchanges : Program.Trace Request} {world world' : World}
    {handled : ℕ} {message : Message} {β : Type} {e : Request β}
    {k : β → Program Request BrowserWorker.DeliveryOutcome} {messages : List RenderMessage}
    (h : (tripSystem lib policy wire maxJobs lookupsFail).Reachable
      ⟨requests, ⟨world, .handling handled message (.ask e k)⟩, sent, exchanges⟩) (x : β)
    (heffect : BrowserWorker.effect lookupsFail world ⟨e, x⟩ world')
    (hexecutor : ByExecutor lib policy ⟨e, x⟩) (harrives : Arrives wire ⟨e, x⟩ messages) :
    (tripSystem lib policy wire maxJobs lookupsFail).Reachable
      ⟨announce requests messages, ⟨world', .handling handled message (k x)⟩, sent,
        exchanges ++ [⟨e, x⟩]⟩ :=
  h.step (.exchange rfl heffect hexecutor harrives)

/-- The event of the example answers its command. -/
theorem outcome_exampleCompleted {wire : RenderWire} (hwire : wire.RoundTrips) :
    wire.events.outcome exampleCommand.renderId
      (wire.message renderCompletedSubject (.completed exampleCompleted)) =
        some (.completed exampleCompleted.toRenderCompleted) := by
  obtain ⟨hcompletion, -⟩ := hwire.decode_completed exampleCompleted
  have hfilter : (wire.events.completion (wire.message renderCompletedSubject
      (.completed exampleCompleted))).filter (fun c => c.renderId == exampleCommand.renderId) =
        some exampleCompleted.toRenderCompleted := by
    rw [show wire.events.completion (wire.message renderCompletedSubject
      (.completed exampleCompleted)) = some exampleCompleted.toRenderCompleted from hcompletion,
      Option.filter_some, if_pos (by decide)]
  rw [RenderLib.outcome, hfilter]

/-- A request for the example's command that reads the example's event returns it. -/
theorem exampleRead {wire : RenderWire} (hwire : wire.RoundTrips) {s : Trip}
    (hs : (tripSystem exampleLib .standard wire 1 false).Reachable s)
    (hcall : s.requests.calls 0 = .connecting exampleCommand)
    (hundelivered : s.requests.undelivered =
      [⟨wire.message renderCompletedSubject (.completed exampleCompleted), 0⟩]) : ∃ t deadline,
    (tripSystem exampleLib .standard wire 1 false).Reachable t ∧
      t.requests.calls 0 = .returned exampleCommand deadline
        (.ok (.completed exampleCompleted.toRenderCompleted)) := by
  have hconnect : renderStep wire.events s.requests (.connect 0) = some (s.requests.setCall 0
      (.polling exampleCommand (s.requests.now + 30000) s.requests.now)) := by
    rw [renderStep, hcall]
    rfl
  have hconnected := hs.step (.extractor (fun message => by rintro ⟨⟩) hconnect)
  generalize hpolling : s.requests.setCall 0
    (.polling exampleCommand (s.requests.now + 30000) s.requests.now) = polling at hconnected
  have hcall' : polling.calls 0 =
      .polling exampleCommand (s.requests.now + 30000) s.requests.now := by
    rw [← hpolling, RenderState.setCall_self]
  have hpull : renderStep wire.events polling (.pull 0) = some { polling.setCall 0
      (.reading exampleCommand (s.requests.now + 30000)
        (polling.undelivered.take renderFetchBatch)) with
      undelivered := polling.undelivered.drop renderFetchBatch } := by
    rw [renderStep, hcall']
    exact if_pos (by rw [← hpolling]; exact Nat.le_refl _)
  have hpulled := hconnected.step (.extractor (fun message => by rintro ⟨⟩) hpull)
  generalize hreading : ({ polling.setCall 0 _ with undelivered := _ } : RenderState) = reading
    at hpulled
  have hcall'' : reading.calls 0 = .reading exampleCommand (s.requests.now + 30000)
      [⟨wire.message renderCompletedSubject (.completed exampleCompleted), 0⟩] := by
    rw [← hreading]
    change (polling.setCall 0 _).calls 0 = _
    rw [RenderState.setCall_self, ← hpolling]
    exact congrArg (RenderCall.reading _ _) (congrArg (List.take renderFetchBatch) hundelivered)
  have hread : renderStep wire.events reading (.read 0) = some (reading.setCall 0
      (.returned exampleCommand (s.requests.now + 30000)
        (.ok (.completed exampleCompleted.toRenderCompleted)))) := by
    rw [renderStep, hcall'']
    change some (reading.setCall 0 (readEvent _ _ _ _ _)) = _
    rw [readEvent, outcome_exampleCompleted hwire]
  exact ⟨_, _, hpulled.step (.extractor (fun message => by rintro ⟨⟩) hread),
    RenderState.setCall_self ..⟩

/-- The page is requested, rendered, stored, announced and returned. -/
theorem exampleTrip {wire : RenderWire} (hwire : wire.RoundTrips) : ∃ s deadline,
    (tripSystem exampleLib .standard wire 1 false).Reachable s ∧
      s.requests.calls 0 = .returned exampleCommand deadline
        (.ok (.completed exampleCompleted.toRenderCompleted)) := by
  have hinit : (tripSystem exampleLib .standard wire 1 false).Reachable
      ⟨⟨0, [], [], [], fun _ => .idle⟩, BrowserWorker.initialState, [], []⟩ :=
    .init ⟨⟨rfl, rfl, rfl, fun _ => rfl⟩, rfl, rfl, rfl⟩
  have hrequested := hinit.step (.extractor (a := .request 0 exampleCommand)
    (fun message => by rintro ⟨⟩) rfl)
  have hstarted := hrequested.step (.surroundings (by rintro ⟨⟩) (by rintro ⟨⟩) .start)
  have hdelivered := hstarted.step (.deliver (List.mem_singleton_self _) rfl)
  have hdelivery : wire.delivery exampleCommand = ⟨.ok exampleCommand⟩ :=
    congrArg Message.mk (hwire.command exampleCommand)
  rw [hdelivery] at hdelivered
  have hlooked := reachable_exchange hdelivered (.ok none) ⟨rfl, Or.inl rfl⟩ trivial rfl
  have hrendered : Rendered exampleLib .standard exampleCommand (.ok exampleOutcome) := by
    obtain ⟨s, hs, hphase, -⟩ := exampleRendering
    exact ⟨s, _, hs, hphase, rfl⟩
  have hanswered := reachable_exchange hlooked (.ok exampleOutcome) rfl hrendered rfl
  have hstored := reachable_exchange hanswered (.ok exampleCompleted.dom) rfl trivial rfl
  have harrived := reachable_exchange hstored (.ok ()) rfl trivial rfl
  exact exampleRead hwire harrived rfl rfl

/-- The reply is evidence of the rendered page. -/
theorem render_round_trip_page : ∃ s deadline,
    (tripSystem exampleLib .standard exampleWire 1 false).Reachable s ∧
      s.requests.calls 0 = .returned exampleCommand deadline
        (.ok (.completed exampleCompleted.toRenderCompleted)) ∧
      ∃ outcome, ⟨.render exampleCommand, .ok outcome⟩ ∈ s.exchanges ∧
        ⟨.store "text/html" outcome.dom, .ok exampleCompleted.dom⟩ ∈ s.exchanges := by
  obtain ⟨s, deadline, hs, hcall⟩ := exampleTrip exampleWire_roundTrips
  obtain ⟨-, outcome, hrender, -, -, hstore, -⟩ :=
    (render_round_trip exampleWire_roundTrips hs).2.2.1 0 _ _ _ hcall
  exact ⟨s, _, hs, hcall, outcome, hrender, hstore⟩

end Example

end RenderTrip

end Extractor
