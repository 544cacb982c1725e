import Extractor.Lib.Program
import Extractor.Lib.System
import Extractor.RenderRequest

/-!
# The browser worker

`run_render_consumer` and `handle_delivery`: render commands are delivered at least once; a
delivery renders, publishes its event, marks the render as completed and acknowledges the message.
Every request of a delivery can fail, the worker can crash before and after each of them, and its
supervisor starts one process after another. Nothing limits which messages are delivered, how often
and in which order.

## Main results

* `handleDelivery_beside`: what a delivery does, whatever its requests are answered.
* `WorkerState.Inv.step`: one step of the worker, of its surroundings or of its supervisor.
* `render_delivery`: an acknowledged command has its event, a marker has its event, and the counter
  counts the deliveries with an event; a marked command is not rendered and the limit is kept
  exactly where the limit is positive and the lookups of markers do not fail.
-/

open Labelled

namespace Extractor

namespace BrowserWorker

/-! ### Data -/

/-- `RedirectHop`. -/
structure RedirectHop where
  url : String
  status : ℕ
  mediaType : Option String
  deriving DecidableEq

/-- `NetworkEvidence`. -/
structure NetworkEvidence where
  hops : List RedirectHop
  blockedRequests : ℕ
  deriving DecidableEq

/-- `WorkerError`. -/
inductive WorkerError
  | failed (failureClass : RenderFailureClass)
  | infrastructure (error : String)
  | storage (error : String)
  deriving DecidableEq

/-- `RenderOutcome` of the worker. -/
structure RenderOutcome where
  dom : List UInt8
  finalUrl : String
  evidence : NetworkEvidence
  deriving DecidableEq

/-- `RenderCompleted`, with its evidence. -/
structure Completed extends RenderCompleted where
  evidence : NetworkEvidence
  deriving DecidableEq

/-- The payload of an event. -/
inductive Event
  | completed (completed : Completed)
  | failed (failed : RenderFailed)
  deriving DecidableEq

/-- The render that an event answers. -/
def Event.renderId : Event → Uuid
  | .completed c => c.renderId
  | .failed f => f.renderId

/-- The subject of an event. -/
def Event.subject : Event → String
  | .completed _ => renderCompletedSubject
  | .failed _ => renderFailedSubject

/-- A message of the command stream: what `serde_json::from_slice` makes of its payload. -/
structure Message where
  payload : Except String RenderCommand

/-- `DeliveryOutcome`. -/
inductive DeliveryOutcome
  | terminal
  | skipped
  deriving DecidableEq

/-! ### The code -/

/-- The requests of a delivery; a failed one is answered with its error. -/
inductive Request : Type → Type
  /-- `completions.get`. -/
  | getMarker (renderId : Uuid) : Request (Except String (Option String))
  /-- `executor.render`. -/
  | render (command : RenderCommand) : Request (Except WorkerError RenderOutcome)
  /-- `store.store`. -/
  | store (mediaType : String) (bytes : List UInt8) : Request (Except String BlobRef)
  /-- `publish_event`, up to the acknowledgement of the broker. -/
  | publishEvent (subject : String) (event : Event) : Request (Except WorkerError Unit)
  /-- `completions.put`. -/
  | putMarker (renderId : Uuid) (value : String) : Request (Except String Unit)
  /-- `message.ack`. -/
  | ack (message : Message) : Request (Except String Unit)

open Program (request)

/-- The end of `handle_delivery`: mark and acknowledge, ignoring failures. -/
def conclude (message : Message) (command : RenderCommand) : Program Request DeliveryOutcome := do
  let _ ← request (.putMarker command.renderId "done")
  let _ ← request (.ack message)
  return .terminal

/-- `handle_delivery`, once no marker was found. -/
def renderCommand (message : Message) (command : RenderCommand) :
    Program Request DeliveryOutcome := do
  match ← request (.render command) with
  | .ok outcome =>
      match ← request (.store "text/html" outcome.dom) with
      | .error _ => return .skipped
      | .ok blob =>
          match ← request (.publishEvent renderCompletedSubject (.completed
            { renderId := command.renderId, finalUrl := outcome.finalUrl, dom := blob,
              evidence := outcome.evidence })) with
          | .error _ => return .skipped
          | .ok () => conclude message command
  | .error (.failed failureClass) =>
      match ← request (.publishEvent renderFailedSubject (.failed
        { renderId := command.renderId, failureClass })) with
      | .error _ => return .skipped
      | .ok () => conclude message command
  | .error _ => return .skipped

/-- `handle_delivery`. -/
def handleDelivery (message : Message) : Program Request DeliveryOutcome :=
  match message.payload with
  | .error _ => do
      let _ ← request (.ack message)
      return .skipped
  | .ok command => do
      match ← request (.getMarker command.renderId) with
      | .ok (some _) =>
          let _ ← request (.ack message)
          return .skipped
      | _ => renderCommand message command

/-- Where `run_render_consumer` is; `handled` is its counter. -/
inductive Process
  /-- No process runs. -/
  | stopped
  /-- The loop waits for a message. -/
  | waiting (handled : ℕ)
  /-- A delivery is being handled, up to `rest`. -/
  | handling (handled : ℕ) (message : Message) (rest : Program Request DeliveryOutcome)
  /-- `run_render_consumer` returned. -/
  | returned (handled : ℕ)

/-- The loop of `run_render_consumer` after a delivery. -/
def afterDelivery (maxJobs handled : ℕ) : DeliveryOutcome → Process
  | .terminal =>
      if maxJobs ≤ handled + 1 then .returned (handled + 1) else .waiting (handled + 1)
  | .skipped => .waiting handled

/-! ### The surroundings -/

/-- What happened, as the broker and the supervisor see it. -/
inductive Entry
  /-- A process was started. -/
  | started
  | received (message : Message)
  /-- The broker acknowledged an event. -/
  | published (subject : String) (event : Event)
  /-- A message was acknowledged. -/
  | acknowledged (message : Message)

/-- The completions bucket, and what happened so far. -/
structure World where
  markers : Uuid → Option String
  log : List Entry

namespace World

/-- Something happens. -/
def append (w : World) (entry : Entry) : World := { w with log := w.log ++ [entry] }

/-- A marker is written. -/
def mark (w : World) (id : Uuid) (value : String) : World :=
  { w with markers := Function.update w.markers id (some value) }

/-- Markers expire. -/
def Expires (w w' : World) : Prop :=
  w'.log = w.log ∧ ∀ id, w'.markers id = w.markers id ∨ w'.markers id = none

end World

/-- What a request is answered and what it does. A failed publication was not acknowledged, a failed
write may have been applied, and an acknowledgement can be lost; a lookup fails where it may. -/
def effect (lookupsFail : Bool) (w : World) (x : Program.Exchange Request) (w' : World) : Prop :=
  match x with
  | ⟨.getMarker id, answer⟩ =>
      w' = w ∧ (answer = .ok (w.markers id) ∨ lookupsFail = true ∧ ∃ error, answer = .error error)
  | ⟨.render _, _⟩ => w' = w
  | ⟨.store _ _, _⟩ => w' = w
  | ⟨.publishEvent subject event, .ok ()⟩ => w' = w.append (.published subject event)
  | ⟨.publishEvent _ _, .error _⟩ => w' = w
  | ⟨.putMarker id value, .ok ()⟩ => w' = w.mark id value
  | ⟨.putMarker id value, .error _⟩ => w' = w ∨ w' = w.mark id value
  | ⟨.ack message, _⟩ => w' = w ∨ w' = w.append (.acknowledged message)

/-- The surroundings and the current process. -/
structure WorkerState where
  world : World
  process : Process

/-- What takes a step. -/
inductive Label
  | start
  | deliver
  /-- The message stream reports an error. -/
  | deliveryError
  | exchange
  | finish
  /-- Cancellation, or the end of the message stream. -/
  | stop
  | crash
  | expire

/-- One step. A process is started after the last one ended. -/
inductive Step (maxJobs : ℕ) (lookupsFail : Bool) : WorkerState → Label → WorkerState → Prop
  | start {w : World} : Step maxJobs lookupsFail ⟨w, .stopped⟩ .start ⟨w.append .started, .waiting 0⟩
  | restart {w : World} {handled : ℕ} :
      Step maxJobs lookupsFail ⟨w, .returned handled⟩ .start ⟨w.append .started, .waiting 0⟩
  | deliver {w : World} {handled : ℕ} (message : Message) :
      Step maxJobs lookupsFail ⟨w, .waiting handled⟩ .deliver
        ⟨w.append (.received message), .handling handled message (handleDelivery message)⟩
  | deliveryError {w : World} {handled : ℕ} :
      Step maxJobs lookupsFail ⟨w, .waiting handled⟩ .deliveryError ⟨w, .waiting handled⟩
  | exchange {w w' : World} {handled : ℕ} {message : Message} {β : Type} {e : Request β}
      {k : β → Program Request DeliveryOutcome} (x : β) (h : effect lookupsFail w ⟨e, x⟩ w') :
      Step maxJobs lookupsFail ⟨w, .handling handled message (.ask e k)⟩ .exchange
        ⟨w', .handling handled message (k x)⟩
  | finish {w : World} {handled : ℕ} {message : Message} {outcome : DeliveryOutcome} :
      Step maxJobs lookupsFail ⟨w, .handling handled message (.done outcome)⟩ .finish
        ⟨w, afterDelivery maxJobs handled outcome⟩
  | stop {w : World} {handled : ℕ} :
      Step maxJobs lookupsFail ⟨w, .waiting handled⟩ .stop ⟨w, .returned handled⟩
  | crash {w : World} {process : Process} :
      Step maxJobs lookupsFail ⟨w, process⟩ .crash ⟨w, .stopped⟩
  | expire {w w' : World} {process : Process} (h : w.Expires w') :
      Step maxJobs lookupsFail ⟨w, process⟩ .expire ⟨w', process⟩

/-- Before the first process, with an empty bucket. -/
def initialState : WorkerState := ⟨⟨fun _ => none, []⟩, .stopped⟩

/-- **The worker.** -/
def worker (maxJobs : ℕ) (lookupsFail : Bool) : System WorkerState Label where
  init s := s = initialState
  step := Step maxJobs lookupsFail

/-! ### What is claimed -/

/-- The broker acknowledged an event for a render. -/
def Announced (log : List Entry) (id : Uuid) : Prop :=
  ∃ event : Event, .published event.subject event ∈ log ∧ event.renderId = id

/-- The deliveries of the current process: how many of the earlier ones published an event, and
whether the last one did. -/
structure Tally where
  earlier : ℕ
  published : Bool

namespace Tally

/-- The deliveries that published an event. -/
def total (t : Tally) : ℕ := t.earlier + t.published.toNat

/-- One more entry. -/
def next (t : Tally) : Entry → Tally
  | .started => ⟨0, false⟩
  | .received _ => ⟨t.total, false⟩
  | .published _ _ => ⟨t.earlier, true⟩
  | .acknowledged _ => t

end Tally

/-- The tally of the current process. -/
def World.tally (w : World) : Tally := w.log.foldl Tally.next ⟨0, false⟩

/-- What holds whatever fails. -/
structure WorkerState.Delivered (s : WorkerState) : Prop where
  /-- A well-formed command is acknowledged after an event for it. -/
  acknowledged : ∀ pre message post command,
    s.world.log = pre ++ .acknowledged message :: post → message.payload = .ok command →
      Announced pre command.renderId
  /-- A marker exists after an event. -/
  marked : ∀ id, s.world.markers id ≠ none → Announced s.world.log id
  /-- While a delivery is handled, the counter counts the earlier ones that published an event. -/
  handling : ∀ handled message rest, s.process = .handling handled message rest →
    handled = s.world.tally.earlier
  /-- Between deliveries and at the end, the counter counts all of them. -/
  counted : ∀ handled, s.process = .waiting handled ∨ s.process = .returned handled →
    handled = s.world.tally.total

/-- The whole protocol. -/
structure WorkerState.Protocol (maxJobs : ℕ) (s : WorkerState) : Prop extends s.Delivered where
  /-- A command that is about to be rendered has no marker. -/
  unmarked : ∀ handled message command k, s.process = .handling handled message
    (.ask (.render command) k) → s.world.markers command.renderId = none
  /-- No delivery is handled once the counter is at the limit. -/
  limited : ∀ handled message rest, s.process = .handling handled message rest → handled < maxJobs

/-! ### The history -/

variable {maxJobs : ℕ} {lookupsFail : Bool} {w w' : World} {s t : WorkerState}

/-- More happens. -/
theorem Announced.append {log : List Entry} {id : Uuid} (h : Announced log id)
    (more : List Entry) : Announced (log ++ more) id := by
  obtain ⟨event, hevent, hid⟩ := h
  exact ⟨event, List.mem_append_left more hevent, hid⟩

/-- An event that was just acknowledged. -/
theorem announced_published (w : World) (event : Event) :
    Announced (w.append (.published event.subject event)).log event.renderId :=
  ⟨event, List.mem_append_right _ List.mem_cons_self, rfl⟩

@[simp]
theorem tally_append (w : World) (entry : Entry) : (w.append entry).tally = w.tally.next entry := by
  simp [World.tally, World.append]

namespace World

theorem Expires.refl (w : World) : w.Expires w := ⟨rfl, fun _ => Or.inl rfl⟩

theorem Expires.trans {u v w : World} (huv : u.Expires v) (hvw : v.Expires w) : u.Expires w := by
  refine ⟨hvw.1.trans huv.1, fun id => ?_⟩
  rcases hvw.2 id with heq | hnone
  · rw [heq]
    exact huv.2 id
  · exact Or.inr hnone

/-- No marker appears. -/
theorem Expires.none (h : w.Expires w') {id : Uuid} (hid : w.markers id = none) :
    w'.markers id = none := by
  rcases h.2 id with heq | hnone
  · rw [heq, hid]
  · exact hnone

theorem Expires.tally (h : w.Expires w') : w'.tally = w.tally := by
  rw [World.tally, h.1, World.tally]

/-- Events come before acknowledgements and before markers. -/
structure Sound (w : World) : Prop where
  acknowledged : ∀ pre message post command,
    w.log = pre ++ .acknowledged message :: post → message.payload = .ok command →
      Announced pre command.renderId
  marked : ∀ id, w.markers id ≠ none → Announced w.log id

/-- Something happens; where it is an acknowledgement, the event is there. -/
theorem Sound.append (h : w.Sound) {e : Entry}
    (he : ∀ message command, e = .acknowledged message → message.payload = .ok command →
      Announced w.log command.renderId) : (w.append e).Sound where
  acknowledged pre message post command heq hpayload := by
    rcases List.eq_nil_or_concat post with rfl | ⟨post, last, rfl⟩
    · obtain ⟨rfl, hlast⟩ := List.append_inj' heq rfl
      exact he message command (List.cons.inj hlast).1 hpayload
    · have hsplit : w.log ++ [e] = (pre ++ .acknowledged message :: post) ++ [last] :=
        heq.trans (by simp)
      exact h.acknowledged pre message post command (List.append_inj' hsplit rfl).1 hpayload
  marked id hid := (h.marked id hid).append [e]

theorem Sound.mark (h : w.Sound) {id : Uuid} (hid : Announced w.log id) (value : String) :
    (w.mark id value).Sound where
  acknowledged := h.acknowledged
  marked id' hmarked := by
    by_cases heq : id' = id
    · rw [heq]
      exact hid
    · refine h.marked id' fun hnone => hmarked ?_
      exact (Function.update_of_ne heq _ _).trans hnone

theorem Sound.expire (h : w.Sound) (hexpires : w.Expires w') : w'.Sound where
  acknowledged := by
    rw [hexpires.1]
    exact h.acknowledged
  marked id hid := by
    rw [hexpires.1]
    exact h.marked id fun hnone => hid (hexpires.none hnone)

end World

/-! ### A delivery -/

/-- What a delivery takes care of before each request. -/
def condition (lookupsFail : Bool) (w : World) {β : Type} (e : Request β) : Prop :=
  match e with
  | .render command => lookupsFail = false → w.markers command.renderId = none
  | .publishEvent subject event => subject = event.subject
  | .putMarker id _ => Announced w.log id
  | .ack message => ∀ command, message.payload = .ok command → Announced w.log command.renderId
  | _ => True

/-- A delivery is terminal where it published an event. -/
def settled (w : World) (outcome : DeliveryOutcome) : Prop :=
  outcome = .terminal ↔ w.tally.published = true

/-- A request that is made with care keeps the order of events. -/
theorem World.Sound.effect (h : w.Sound) {β : Type} {e : Request β} {x : β}
    (he : condition lookupsFail w e) (heffect : BrowserWorker.effect lookupsFail w ⟨e, x⟩ w') :
    w'.Sound := by
  cases e with
  | getMarker id =>
      rw [heffect.1]
      exact h
  | render command =>
      rw [show w' = w from heffect]
      exact h
  | store mediaType bytes =>
      rw [show w' = w from heffect]
      exact h
  | publishEvent subject event =>
      cases x with
      | error error =>
          rw [show w' = w from heffect]
          exact h
      | ok =>
          rw [show w' = w.append (.published subject event) from heffect]
          exact h.append fun _ _ heq => (nomatch heq)
  | putMarker id value =>
      cases x with
      | error error =>
          rcases (heffect : w' = w ∨ w' = w.mark id value) with rfl | rfl
          · exact h
          · exact h.mark he value
      | ok =>
          rw [show w' = w.mark id value from heffect]
          exact h.mark he value
  | ack message =>
      rcases (heffect : w' = w ∨ w' = w.append (.acknowledged message)) with rfl | rfl
      · exact h
      · refine h.append fun message' command heq hpayload => he command ?_
        obtain rfl : message = message' := Entry.acknowledged.inj heq
        exact hpayload

/-- A request never touches the earlier deliveries. -/
theorem effect_earlier {β : Type} {e : Request β} {x : β}
    (heffect : effect lookupsFail w ⟨e, x⟩ w') : w'.tally.earlier = w.tally.earlier := by
  cases e with
  | getMarker id => rw [heffect.1]
  | render command => rw [show w' = w from heffect]
  | store mediaType bytes => rw [show w' = w from heffect]
  | publishEvent subject event =>
      cases x with
      | error error => rw [show w' = w from heffect]
      | ok =>
          rw [show w' = w.append (.published subject event) from heffect, tally_append]
          rfl
  | putMarker id value =>
      cases x with
      | error error =>
          rcases (heffect : w' = w ∨ w' = w.mark id value) with rfl | rfl
          · rfl
          · rfl
      | ok =>
          rw [show w' = w.mark id value from heffect]
          rfl
  | ack message =>
      rcases (heffect : w' = w ∨ w' = w.append (.acknowledged message)) with rfl | rfl
      · rfl
      · rw [tally_append]
        rfl

/-- An acknowledgement does not count. -/
theorem tally_of_ack {message : Message} {x : Except String Unit}
    (heffect : effect lookupsFail w ⟨.ack message, x⟩ w') : w'.tally = w.tally := by
  rcases (heffect : w' = w ∨ w' = w.append (.acknowledged message)) with rfl | rfl
  · rfl
  · exact tally_append w _

/-- A marker does not count. -/
theorem log_of_putMarker {id : Uuid} {value : String} {x : Except String Unit}
    (heffect : effect lookupsFail w ⟨.putMarker id value, x⟩ w') : w'.log = w.log := by
  cases x with
  | error error =>
      rcases (heffect : w' = w ∨ w' = w.mark id value) with rfl | rfl
      · rfl
      · rfl
  | ok =>
      rw [show w' = w.mark id value from heffect]
      rfl

/-- A program of a delivery, beside markers that expire. -/
abbrev Handles (lookupsFail : Bool) (p : Program Request DeliveryOutcome) (w : World) : Prop :=
  p.Beside World.Expires (effect lookupsFail) (condition lookupsFail) w settled

/-- A delivery ends as skipped. -/
theorem handles_skipped (h : w.tally.published = false) :
    Handles lookupsFail (.done .skipped) w := by
  intro t ht
  rw [settled, ht.tally, h]
  exact ⟨fun heq => (nomatch heq), fun heq => (nomatch heq)⟩

/-- A delivery acknowledges and ends. -/
theorem handles_ack {message : Message} {outcome : DeliveryOutcome}
    (hack : ∀ command, message.payload = .ok command → Announced w.log command.renderId)
    (h : settled w outcome) :
    Handles lookupsFail (Program.request (.ack message) >>= fun _ => .done outcome) w := by
  intro t ht
  refine ⟨fun command hpayload => ?_, fun x u heffect v hv => ?_⟩
  · rw [ht.1]
    exact hack command hpayload
  · rw [settled, hv.tally, tally_of_ack heffect, ht.tally]
    exact h

/-- Marking and acknowledging, after the event. -/
theorem handles_conclude {message : Message} {command : RenderCommand}
    (hpayload : message.payload = .ok command) (hevent : Announced w.log command.renderId)
    (h : w.tally.published = true) : Handles lookupsFail (conclude message command) w := by
  intro t ht
  have hmark : Announced t.log command.renderId := by
    rw [ht.1]
    exact hevent
  refine ⟨hmark, fun x u heffect => ?_⟩
  have hlog := log_of_putMarker heffect
  refine handles_ack (fun command' hpayload' => ?_) ?_
  · obtain rfl : command = command' := Except.ok.inj (hpayload.symm.trans hpayload')
    rw [hlog]
    exact hmark
  · rw [settled, World.tally, hlog]
    exact ⟨fun _ => by rw [← h, ← ht.tally]; rfl, fun _ => rfl⟩

/-- Publishing, and then the end. -/
theorem handles_publish {message : Message} {command : RenderCommand} (event : Event)
    (hpayload : message.payload = .ok command) (hid : event.renderId = command.renderId)
    (h : w.tally.published = false) :
    Handles lookupsFail (Program.request (.publishEvent event.subject event) >>= fun x =>
      match x with
      | .error _ => return .skipped
      | .ok () => conclude message command) w := by
  intro t ht
  refine ⟨rfl, fun x u heffect => ?_⟩
  cases x with
  | error error =>
      rw [show u = t from heffect]
      exact handles_skipped (by rw [ht.tally, h])
  | ok =>
      rw [show u = t.append (.published event.subject event) from heffect]
      refine handles_conclude hpayload ?_ ?_
      · rw [← hid]
        exact announced_published t event
      · rw [tally_append]
        rfl

/-- Rendering, where no marker was found. -/
theorem handles_renderCommand {message : Message} {command : RenderCommand}
    (hpayload : message.payload = .ok command)
    (hmarker : lookupsFail = false → w.markers command.renderId = none)
    (h : w.tally.published = false) : Handles lookupsFail (renderCommand message command) w := by
  intro t ht
  refine ⟨fun hfail => ht.none (hmarker hfail), fun x u heffect => ?_⟩
  have hu : u.tally.published = false := by rw [show u = t from heffect, ht.tally, h]
  rcases x with (failureClass | error | error) | outcome
  · exact handles_publish (.failed ⟨command.renderId, failureClass⟩) hpayload rfl hu
  · exact handles_skipped hu
  · exact handles_skipped hu
  · intro v hv
    refine ⟨trivial, fun stored z heffect => ?_⟩
    have hz : z.tally.published = false := by rw [show z = v from heffect, hv.tally, hu]
    cases stored with
    | error error => exact handles_skipped hz
    | ok blob =>
        exact handles_publish
          (.completed ⟨⟨command.renderId, outcome.finalUrl, blob⟩, outcome.evidence⟩) hpayload rfl hz

/-- **A delivery**, whatever its requests are answered: its requests are made with care, and it is
terminal where it published an event. -/
theorem handleDelivery_beside (hsound : w.Sound) (h : w.tally.published = false)
    (message : Message) : Handles lookupsFail (handleDelivery message) w := by
  cases hpayload : message.payload with
  | error error =>
      rw [handleDelivery, hpayload]
      refine handles_ack (fun command heq => ?_) ?_
      · cases hpayload.symm.trans heq
      · rw [settled, h]
        exact ⟨fun heq => (nomatch heq), fun heq => (nomatch heq)⟩
  | ok command =>
      rw [handleDelivery, hpayload]
      intro t ht
      refine ⟨trivial, fun x u heffect => ?_⟩
      obtain ⟨rfl, hx⟩ := heffect
      have hu : u.tally.published = false := by rw [ht.tally, h]
      rcases x with error | _ | value
      · refine handles_renderCommand hpayload (fun hfail => ?_) hu
        rcases hx with hx | ⟨hfails, -⟩
        · cases hx
        · cases hfail.symm.trans hfails
      · refine handles_renderCommand hpayload (fun _ => ?_) hu
        rcases hx with hx | ⟨-, error, hx⟩
        · exact (Except.ok.inj hx).symm
        · cases hx
      · refine handles_ack (fun command' heq => ?_) ?_
        · obtain rfl : command = command' := Except.ok.inj (hpayload.symm.trans heq)
          refine (hsound.expire ht).marked _ fun hnone => ?_
          rcases hx with hx | ⟨-, error, hx⟩
          · rw [hnone] at hx
            cases hx
          · cases hx
        · rw [settled, hu]
          exact ⟨fun heq => (nomatch heq), fun heq => (nomatch heq)⟩

/-! ### Runs -/

/-- What holds of the process: its counter, and the rest of the delivery it handles. -/
def Process.Sound (maxJobs : ℕ) (lookupsFail : Bool) (w : World) : Process → Prop
  | .stopped => True
  | .waiting handled => handled = w.tally.total ∧ (handled = 0 ∨ handled < maxJobs)
  | .handling handled _ rest =>
      handled = w.tally.earlier ∧ (handled = 0 ∨ handled < maxJobs) ∧ Handles lookupsFail rest w
  | .returned handled => handled = w.tally.total

/-- What holds between all steps. -/
structure WorkerState.Inv (maxJobs : ℕ) (lookupsFail : Bool) (s : WorkerState) : Prop where
  world : s.world.Sound
  process : s.process.Sound maxJobs lookupsFail s.world

/-- The loop after a delivery. -/
theorem afterDelivery_sound {handled : ℕ} {outcome : DeliveryOutcome}
    (hearlier : handled = w.tally.earlier) (hlimit : handled = 0 ∨ handled < maxJobs)
    (h : settled w outcome) :
    (afterDelivery maxJobs handled outcome).Sound maxJobs lookupsFail w := by
  cases outcome with
  | terminal =>
      have htotal : handled + 1 = w.tally.total := by
        rw [Tally.total, h.mp rfl, hearlier]
        rfl
      rw [afterDelivery]
      by_cases hmax : maxJobs ≤ handled + 1
      · rw [if_pos hmax]
        exact htotal
      · rw [if_neg hmax]
        exact ⟨htotal, Or.inr (by omega)⟩
  | skipped =>
      have hpublished : w.tally.published = false := by
        cases hp : w.tally.published with
        | false => rfl
        | true => exact absurd (h.mpr hp) (fun heq => nomatch heq)
      refine ⟨?_, hlimit⟩
      rw [Tally.total, hpublished, hearlier]
      rfl

/-- Expired markers leave the process alone. -/
theorem Process.Sound.expire {process : Process} (h : process.Sound maxJobs lookupsFail w)
    (hexpires : w.Expires w') : process.Sound maxJobs lookupsFail w' := by
  cases process with
  | stopped => trivial
  | waiting handled =>
      rw [Process.Sound, hexpires.tally]
      exact h
  | handling handled message rest =>
      obtain ⟨hearlier, hlimit, hrest⟩ := h
      refine ⟨?_, hlimit, hrest.others World.Expires.trans hexpires⟩
      rw [hexpires.tally]
      exact hearlier
  | returned handled =>
      rw [Process.Sound, hexpires.tally]
      exact h

/-- A process that starts. -/
theorem WorkerState.Inv.start {process : Process}
    (h : WorkerState.Inv maxJobs lookupsFail ⟨w, process⟩) :
    WorkerState.Inv maxJobs lookupsFail ⟨w.append .started, .waiting 0⟩ := by
  refine ⟨h.world.append fun _ _ heq => (nomatch heq), ?_, Or.inl rfl⟩
  rw [tally_append]
  rfl

/-- **One step.** -/
theorem WorkerState.Inv.step (h : s.Inv maxJobs lookupsFail) {label : Label}
    (hst : Step maxJobs lookupsFail s label t) : t.Inv maxJobs lookupsFail := by
  cases hst with
  | start => exact h.start
  | restart => exact h.start
  | deliver message =>
      obtain ⟨hcount, hlimit⟩ := h.process
      have hworld := h.world.append (e := .received message) fun _ _ heq => (nomatch heq)
      refine ⟨hworld, ?_, hlimit, handleDelivery_beside hworld ?_ message⟩
      · rw [tally_append]
        exact hcount
      · rw [tally_append]
        rfl
  | deliveryError => exact h
  | exchange x heffect =>
      obtain ⟨hearlier, hlimit, hrest⟩ := h.process
      obtain ⟨hcondition, hnext⟩ := hrest.ask World.Expires.refl
      refine ⟨h.world.effect hcondition heffect, ?_, hlimit, hnext x _ heffect⟩
      rw [effect_earlier heffect]
      exact hearlier
  | finish =>
      obtain ⟨hearlier, hlimit, hrest⟩ := h.process
      exact ⟨h.world, afterDelivery_sound hearlier hlimit (hrest.done World.Expires.refl)⟩
  | stop => exact ⟨h.world, h.process.1⟩
  | crash => exact ⟨h.world, trivial⟩
  | expire hexpires => exact ⟨h.world.expire hexpires, h.process.expire hexpires⟩

/-- Every reachable state. -/
theorem reachable_inv (h : (worker maxJobs lookupsFail).Reachable s) :
    s.Inv maxJobs lookupsFail := by
  refine h.invariant ?_ fun _ _ _ _ hinv hst => hinv.step hst
  rintro s₀ rfl
  refine ⟨⟨fun pre message post command heq => ?_, fun id hid => absurd rfl hid⟩, trivial⟩
  exact absurd (congrArg List.length heq) (by simp [initialState])

/-- What the invariant says of events, acknowledgements, markers and the counter. -/
theorem WorkerState.Inv.delivered (h : s.Inv maxJobs lookupsFail) : s.Delivered where
  acknowledged := h.world.acknowledged
  marked := h.world.marked
  handling handled message rest heq := by
    have hprocess := h.process
    rw [heq] at hprocess
    exact hprocess.1
  counted handled hor := by
    have hprocess := h.process
    rcases hor with heq | heq
    · rw [heq] at hprocess
      exact hprocess.1
    · rw [heq] at hprocess
      exact hprocess

/-- The whole protocol, where the limit is positive and lookups do not fail. -/
theorem WorkerState.Inv.protocol (h : s.Inv maxJobs false) (hmax : 1 ≤ maxJobs) :
    s.Protocol maxJobs where
  toDelivered := h.delivered
  unmarked handled message command k heq := by
    have hprocess := h.process
    rw [heq] at hprocess
    exact (hprocess.2.2.ask World.Expires.refl).1 rfl
  limited handled message rest heq := by
    have hprocess := h.process
    rw [heq] at hprocess
    have hlimit := hprocess.2.1
    omega

/-! ### What goes wrong elsewhere -/

/-- A well-formed message. -/
def exampleMessage : Message :=
  ⟨.ok ⟨1, 2, "correlation", 3, "https://example.com/", ⟨1000, 2000, 4096⟩⟩⟩

/-- The first delivery to a process. -/
theorem reachable_delivery (h : (worker maxJobs lookupsFail).Reachable ⟨w, .stopped⟩)
    (message : Message) :
    (worker maxJobs lookupsFail).Reachable ⟨(w.append .started).append (.received message),
      .handling 0 message (handleDelivery message)⟩ := by
  have hstart : (worker maxJobs lookupsFail).Reachable ⟨w.append .started, .waiting 0⟩ :=
    h.step (a := .start) Step.start
  exact hstart.step (a := .deliver) (Step.deliver message)

/-- A request of a delivery. -/
theorem reachable_exchange {handled : ℕ} {message : Message} {β : Type} {e : Request β}
    {k : β → Program Request DeliveryOutcome}
    (h : (worker maxJobs lookupsFail).Reachable ⟨w, .handling handled message (.ask e k)⟩) (x : β)
    (heffect : effect lookupsFail w ⟨e, x⟩ w') :
    (worker maxJobs lookupsFail).Reachable ⟨w', .handling handled message (k x)⟩ :=
  h.step (a := .exchange) (Step.exchange x heffect)

/-- A limit of zero is not kept. -/
theorem limit_zero : ∃ s, (worker 0 lookupsFail).Reachable s ∧ ¬ s.Protocol 0 := by
  have hinit : (worker 0 lookupsFail).Reachable initialState := .init rfl
  exact ⟨_, reachable_delivery hinit exampleMessage,
    fun h => absurd (h.limited _ _ _ rfl) (Nat.not_lt_zero 0)⟩

/-- The worker crashes after it has written a marker. -/
theorem reachable_marked : ∃ w : World, w.markers 1 ≠ none ∧
    (worker maxJobs lookupsFail).Reachable ⟨w, .stopped⟩ := by
  have hinit : (worker maxJobs lookupsFail).Reachable initialState := .init rfl
  have hget := reachable_exchange (reachable_delivery hinit exampleMessage) (.ok none)
    ⟨rfl, Or.inl rfl⟩
  have hrender := reachable_exchange hget (.error (.failed .navigationFailed)) rfl
  have hpublish := reachable_exchange hrender (.ok ()) rfl
  have hput := reachable_exchange hpublish (.ok ()) rfl
  exact ⟨_, Option.some_ne_none "done", hput.step (a := .crash) Step.crash⟩

/-- A marked command is rendered again after a failed lookup. -/
theorem lookup_failed : ∃ s, (worker maxJobs true).Reachable s ∧ ¬ s.Protocol maxJobs := by
  obtain ⟨w, hmarker, hw⟩ := reachable_marked
  have hget := reachable_exchange (reachable_delivery hw exampleMessage) (.error "unavailable")
    ⟨rfl, Or.inr ⟨rfl, _, rfl⟩⟩
  exact ⟨_, hget, fun hprotocol => hmarker (hprotocol.unmarked _ _ _ _ rfl)⟩

end BrowserWorker

open BrowserWorker

/-- **The delivery protocol of the browser worker**, over every run, with crashes and restarts: the
events come before acknowledgements and markers, and the counter is right, whatever fails. A marked
command is not rendered and the limit is kept where the limit is positive and lookups do not fail,
and only there. -/
theorem render_delivery (maxJobs : ℕ) (lookupsFail : Bool) :
    (∀ s, (worker maxJobs lookupsFail).Reachable s → s.Delivered) ∧
      ((∀ s, (worker maxJobs lookupsFail).Reachable s → s.Protocol maxJobs) ↔
        1 ≤ maxJobs ∧ lookupsFail = false) := by
  refine ⟨fun s hs => (reachable_inv hs).delivered, ?_, ?_⟩
  · intro h
    constructor
    · refine Nat.one_le_iff_ne_zero.mpr fun hzero => ?_
      subst hzero
      obtain ⟨s, hs, hnot⟩ := limit_zero
      exact hnot (h s hs)
    · cases lookupsFail with
      | false => rfl
      | true =>
          obtain ⟨s, hs, hnot⟩ := lookup_failed
          exact absurd (h s hs) hnot
  · rintro ⟨hmax, rfl⟩ s hs
    exact (reachable_inv hs).protocol hmax

/-- A worker whose limit is zero handles a delivery, and a worker whose lookup failed is about to
render a marked command. -/
theorem render_delivery_broken :
    (∃ s, (worker 0 false).Reachable s ∧ ¬ s.Protocol 0) ∧
      ∃ s, (worker 500 true).Reachable s ∧ ¬ s.Protocol 500 :=
  ⟨limit_zero, lookup_failed⟩

end Extractor
