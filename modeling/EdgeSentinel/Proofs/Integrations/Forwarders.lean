import EdgeSentinel.Integrations.Forwarders
import EdgeSentinel.Proofs.Diagnostics.EventText
import EdgeSentinel.Proofs.Diagnostics.Observers
import EdgeSentinel.Library.Run

/-!
# `EdgeSentinel.Proofs.Integrations.Forwarders`: what the receivers of events get

The receiver of the requests decodes their bodies. `webhook_receives` says that it gets the events
that the publisher hears, in order, as dictionaries, and that the log has a line for each failure.
`broker_receives` says the same of the messages of an MQTT client, from the moment that there is a
client. It also says in which order the client is called: `phaseStep` is the order that the methods
of a connection allow.

Both rest on `Watched.run`, which says what an observer hears of a run.
-/

set_option autoImplicit false

namespace EdgeSentinel.Proofs.Integrations

open EdgeSentinel.Core EdgeSentinel.Diagnostics EdgeSentinel.Integrations
open EdgeSentinel.Proofs.Diagnostics
open Run (exec exec_snoc)

variable {φ : Type} {py : Json.Numbers φ}

/-- The events among what is heard. -/
def eventsOf (heard : List (EventRecord φ ⊕ Method)) : List (EventRecord φ) :=
  heard.filterMap Sum.getLeft?

/-- The event can be written as JSON. -/
def sendable (py : Json.Numbers φ) (event : EventRecord φ) : Bool :=
  Json.writable py event.toJson

/-- The receiver decodes the payload of an event that can be sent. -/
theorem eventPayload_of_sendable {event : EventRecord φ} (hdistinct : event.metadata.distinct)
    (h : sendable py event = true) :
    ∃ payload, eventPayload py event = .ok payload ∧ Json.loads py payload = .ok event.toJson := by
  have hpayload : eventPayload py event = .ok (String.ofList (Json.text py event.toJson)) := by
    rw [eventPayload, Json.dumps, if_pos (by exact h)]
  exact ⟨_, hpayload, Json.loads_dumps (distinct_toJson hdistinct) hpayload⟩

theorem eventPayload_of_not_sendable {event : EventRecord φ} (h : sendable py event = false) :
    ∃ e, eventPayload py event = .error e := by
  have hwritable : ¬ Json.writable py event.toJson = true := by
    rw [← sendable, h]
    exact Bool.false_ne_true
  rw [eventPayload, Json.dumps, if_neg hwritable]
  exact ⟨_, rfl⟩

/-! ### The requests -/

/-- What the receiver of a request reads. -/
def readRequest (py : Json.Numbers φ) (request : HttpRequest) :
    Option (Except Json.DecodeError (Json φ)) :=
  (String.fromUTF8? request.body).map (Json.loads py)

/-- A text is decoded from its bytes. -/
theorem fromUTF8?_toUTF8 (s : String) : String.fromUTF8? s.toUTF8 = some s := by
  unfold String.fromUTF8?
  split
  · rfl
  · next h => exact absurd s.isValidUTF8 h

/-- The transport has returned a status below 400. -/
def delivered (answer : Option Int) : Bool := answer.any (· < 400)

/-- What a publisher has done with some events. -/
structure Served (py : Json.Numbers φ) (p : HttpEventPublisher) (events : List (EventRecord φ))
    (w : Webhook) : Prop where
  received : w.requests.map (fun x => readRequest py x.1)
    = (events.filter fun e => severeEnough p.minSeverity e && sendable py e).map fun e =>
      some (Except.ok e.toJson)
  addressed : ∀ x ∈ w.requests,
    x.1.url = p.url ∧ x.1.headers = p.headers ∧ x.1.timeoutSeconds = p.timeout
  logged : w.log.length = (w.requests.filter fun x => !delivered x.2).length
    + (events.filter fun e => severeEnough p.minSeverity e && !sendable py e).length

theorem Served.onEvent {p : HttpEventPublisher} {transport : Transport} {w : Webhook}
    {events : List (EventRecord φ)} (h : Served py p events w) {event : EventRecord φ}
    (hdistinct : event.metadata.distinct) :
    Served py p (events ++ [event]) (p.onEvent py transport w event) := by
  obtain ⟨hreceived, haddressed, hlogged⟩ := h
  unfold HttpEventPublisher.onEvent
  by_cases hsevere : severeEnough p.minSeverity event = true
  · rw [if_neg (by simp [hsevere])]
    cases hsendable : sendable py event with
    | false =>
      -- `json.dumps` raises, so a line is written and no request is made.
      obtain ⟨e, he⟩ := eventPayload_of_not_sendable hsendable
      simp only [httpPayload, he, Except.map]
      refine ⟨?_, haddressed, ?_⟩
      · simp [hreceived, hsendable]
      · simp [hlogged, hsevere, hsendable, Nat.add_assoc]
    | true =>
      obtain ⟨payload, hpayload, hread⟩ := eventPayload_of_sendable hdistinct hsendable
      simp only [httpPayload, hpayload, Except.map]
      generalize hrequest : HttpRequest.mk p.url payload.toUTF8 p.headers p.timeout = request
      have hdecoded : readRequest py request = some (.ok event.toJson) := by
        rw [← hrequest, readRequest, fromUTF8?_toUTF8, Option.map_some, hread]
      refine ⟨?_, fun x hx => ?_, ?_⟩
      · simp [hreceived, hsevere, hsendable, hdecoded]
      · rcases List.mem_append.mp hx with hx | hx
        · exact haddressed x hx
        · obtain rfl := List.mem_singleton.mp hx
          exact hrequest ▸ ⟨rfl, rfl, rfl⟩
      · -- A line is written when the answer is no success.
        rw [List.filter_append, List.length_append, List.filter_append, List.length_append,
          List.filter_singleton, List.filter_singleton]
        cases hanswer : transport w.requests request with
        | none =>
          have hdelivered : delivered none = false := rfl
          simp [hlogged, hsendable, hdelivered]
          omega
        | some status =>
          by_cases hstatus : 400 ≤ status
          · have hdelivered : delivered (some status) = false := by
              simpa [delivered] using hstatus
            simp [hlogged, hsendable, hdelivered, hstatus]
            omega
          · have hdelivered : delivered (some status) = true := by
              simpa [delivered] using not_le.mp hstatus
            simp [hlogged, hsendable, hdelivered, hstatus]
  · rw [if_pos hsevere]
    refine ⟨?_, haddressed, ?_⟩
    · simp [hreceived, hsevere]
    · simp [hlogged, hsevere]

theorem served_foldl (p : HttpEventPublisher) (transport : Transport)
    (events : List (EventRecord φ)) (hdistinct : ∀ e ∈ events, e.metadata.distinct) :
    Served py p events (events.foldl (p.onEvent py transport) {}) := by
  induction events using List.reverseRecOn with
  | nil => exact ⟨rfl, by simp, rfl⟩
  | append_singleton events event ih =>
    rw [List.foldl_append]
    exact (ih fun e he => hdistinct e (List.mem_append_left _ he)).onEvent
      (hdistinct event (by simp))

/-- A publisher does nothing but handle events. -/
theorem foldl_take_http {ι : Type} (i : ι) (p : HttpEventPublisher) (transport : Transport)
    (heard : List (EventRecord φ ⊕ Method)) :
    ∀ w, heard.foldl ((observe py ι).take i) (.http p transport w)
      = .http p transport ((eventsOf heard).foldl (p.onEvent py transport) w) := by
  induction heard with
  | nil => exact fun _ => rfl
  | cons x heard ih =>
    intro w
    cases x with
    | inl event => exact ih _
    | inr method => cases method <;> exact ih w

section
variable {ι κ β : Type} [DecidableEq ι] [DecidableEq β]

theorem distinct_of_mem_heard {home : ι → β} {i : ι}
    {es : List (WatchEvent ι κ β (EventRecord φ) Method)}
    (hdistinct : ∀ b e, .publish b e ∈ es → e.metadata.distinct) :
    ∀ e ∈ eventsOf (heard home i false es), e.metadata.distinct := by
  intro e he
  obtain ⟨x, hx, hleft⟩ := List.mem_filterMap.mp he
  obtain rfl := Sum.getLeft?_eq_some_iff.mp hleft
  obtain ⟨b, hb⟩ := exists_publish_of_mem_heard hx
  exact hdistinct b e hb

end

/-- Two forwarders on one bus. -/
def twoForwarders (transport : Transport) (client : Client) : Bool → Observer Unit
  | false => .http (.create "https://example.com/hooks/edgesentinel" none 10 (some .warning))
      transport {}
  | true => .mqtt (.create "broker.local") client {}

/-- One event before they are attached, and one after the client is connected. -/
def twoEvents : List (WatchEvent Bool Unit Unit (EventRecord Unit) Method) :=
  [.attach false (), .attach true (), .publish () diskEvent, .detach false (),
    .call true (.connect true), .publish () diskEvent]

theorem atHome_twoEvents : ∀ e ∈ twoEvents, AtHome (fun _ => ()) e := by
  simp [twoEvents, AtHome]

theorem distinct_twoEvents : ∀ b e, .publish b e ∈ twoEvents → e.metadata.distinct := by
  intro b e he
  obtain rfl : e = diskEvent := by simpa [twoEvents] using he
  exact distinct_diskEvent

section
variable {ι κ β : Type} [DecidableEq ι] [DecidableEq κ] [DecidableEq β]

/-- The receiver of a webhook gets the events. Take any run of observers on any buses, with a
transport that answers and fails as it likes. The bodies of the requests of a publisher decode, in
order, to the dictionaries of the events that are published on its bus while it is attached, that
are severe enough, and that can be written as JSON. Each has the URL, the headers and the timeout of
the constructor. The log has one line for each request that has not got a status below 400, one for
each event that cannot be written, and no other. -/
theorem webhook_receives (py : Json.Numbers φ) (home : ι → β) (init : ι → Observer φ)
    (es : List (WatchEvent ι κ β (EventRecord φ) Method)) (hhome : ∀ e ∈ es, AtHome home e)
    (hdistinct : ∀ b e, .publish b e ∈ es → e.metadata.distinct) (i : ι) (p : HttpEventPublisher)
    (transport : Transport) (hi : init i = .http p transport {}) :
    ∃ w, (Watching.after (observe py ι) init es).observer i = .http p transport w ∧
      Served py p (eventsOf (heard home i false es)) w := by
  obtain ⟨hobserver, -⟩ := Watched.run (B := observe py ι) es _ _ _
    (Watched.initially home init) hhome
  refine ⟨_, (hobserver i).trans ?_, served_foldl p transport _ (distinct_of_mem_heard hdistinct)⟩
  show (heard home i false es).foldl _ (init i) = _
  rw [hi]
  exact foldl_take_http i p transport _ _

end

/-- A webhook that answers with an error gets the first of two events. -/
theorem webhook_receives_twoForwarders :
    ∃ w, (Watching.after (observe onlyHalf Bool)
        (twoForwarders (fun _ _ => some 503) fun _ _ => true) twoEvents).observer false
          = .http (.create "https://example.com/hooks/edgesentinel" none 10 (some .warning))
            (fun _ _ => some 503) w ∧
      w.requests.map (fun x => readRequest onlyHalf x.1) = [some (.ok diskEvent.toJson)] := by
  obtain ⟨w, hw, hserved⟩ := webhook_receives onlyHalf (fun _ => ())
    (twoForwarders (fun _ _ => some 503) fun _ _ => true) twoEvents atHome_twoEvents
    distinct_twoEvents false _ _ rfl
  exact ⟨w, hw, hserved.received.trans rfl⟩

/-! ### The messages -/

/-- The place of a client in a connection. -/
inductive Phase where
  | apart
  /-- `connect` has returned. -/
  | linked
  | running
  /-- `loop_stop` has returned. -/
  | halting
  deriving DecidableEq, Repr

/-- The order of the calls of a client. A call that raises leads back to where its method began.
Messages go at any time. -/
def phaseStep : Phase → ClientCall × Bool → Option Phase
  | phase, (.publish _ _ _, _) => some phase
  | .apart, (.connect _ _, returns) => some (if returns then .linked else .apart)
  | .linked, (.loopStart, returns) => some (if returns then .running else .apart)
  | .running, (.loopStop, returns) => some (if returns then .halting else .running)
  | .halting, (.disconnect, returns) => some (if returns then .apart else .running)
  | _, _ => none

/-- A message, as its receiver reads it. -/
def readMessage (py : Json.Numbers φ) :
    ClientCall × Bool → Option (String × Except Json.DecodeError (Json φ) × Int)
  | (.publish topic payload qos, _) => some (topic, Json.loads py payload, qos)
  | _ => none

/-- The message of an event. -/
def messageOf (py : Json.Numbers φ) (p : MqttPublisher φ) (event : EventRecord φ) :
    Option (String × Except Json.DecodeError (Json φ) × Int) :=
  if severeEnough p.minSeverity event && sendable py event then
    (p.topic event).map fun topic => (topic, .ok event.toJson, p.qos)
  else none

/-- The events among what is heard, and whether there is a client when they are heard. -/
def withClient : Bool → List (EventRecord φ ⊕ Method) → List (EventRecord φ × Bool)
  | _, [] => []
  | hasClient, .inl event :: heard => (event, hasClient) :: withClient hasClient heard
  | hasClient, .inr (.connect builds) :: heard => withClient (hasClient || builds) heard
  | hasClient, .inr _ :: heard => withClient hasClient heard

/-- The publisher does something. -/
def relay (py : Json.Numbers φ) (p : MqttPublisher φ) (client : Client) (b : Broker) :
    EventRecord φ ⊕ Method → Broker
  | .inl event => p.onEvent py client b event
  | .inr (.connect builds) => (p.connect client builds b).2
  | .inr .disconnect => (MqttPublisher.disconnect client b).2
  | .inr (.pruneOlderThan _) => b

theorem foldl_take_mqtt {ι : Type} (i : ι) (p : MqttPublisher φ) (client : Client)
    (heard : List (EventRecord φ ⊕ Method)) :
    ∀ b, heard.foldl ((observe py ι).take i) (.mqtt p client b)
      = .mqtt p client (heard.foldl (relay py p client) b) := by
  induction heard with
  | nil => exact fun _ => rfl
  | cons x heard ih =>
    intro b
    cases x with
    | inl event => exact ih _
    | inr method => cases method <;> exact ih _

/-- The flag of the connection says where the client is. -/
structure InPhase (b : Broker) : Prop where
  hasClient : b.connected = true → b.hasClient = true
  phase : exec phaseStep .apart b.calls = some (if b.connected then .running else .apart)

/-- What a publisher has done from `b` to `b'`, with these events heard meanwhile. -/
structure Relayed (py : Json.Numbers φ) (p : MqttPublisher φ) (offered : List (EventRecord φ × Bool))
    (b b' : Broker) : Prop where
  inPhase : InPhase b'
  messages : b'.calls.filterMap (readMessage py) = b.calls.filterMap (readMessage py)
    ++ (offered.filter (·.2)).filterMap fun x => messageOf py p x.1
  dropped : b'.log.count .notConnected = b.log.count .notConnected
    + (offered.filter fun x => !x.2 && severeEnough p.minSeverity x.1).length

namespace Relayed

variable {p : MqttPublisher φ} {b b' b'' : Broker}
  {offered offered' : List (EventRecord φ × Bool)}

theorem refl (h : InPhase b) : Relayed py p [] b b := ⟨h, by simp, rfl⟩

theorem trans (h : Relayed py p offered b b') (h' : Relayed py p offered' b' b'') :
    Relayed py p (offered ++ offered') b b'' := by
  refine ⟨h'.inPhase, ?_, ?_⟩
  · simp [h'.messages, h.messages]
  · simp [h'.dropped, h.dropped, Nat.add_assoc]

/-- An event. -/
theorem onEvent (py : Json.Numbers φ) (p : MqttPublisher φ) (client : Client) (h : InPhase b)
    {event : EventRecord φ} (hdistinct : event.metadata.distinct) :
    Relayed py p [(event, b.hasClient)] b (p.onEvent py client b event) ∧
      (p.onEvent py client b event).hasClient = b.hasClient := by
  -- A message does not move the client.
  have hpublish : ∀ topic payload qos returns, exec phaseStep .apart
      (b.calls ++ [(.publish topic payload qos, returns)])
        = some (if b.connected then .running else .apart) :=
    fun topic payload qos returns => exec_snoc h.phase (by cases b.connected <;> rfl)
  unfold MqttPublisher.onEvent
  by_cases hsevere : severeEnough p.minSeverity event = true
  · rw [if_neg (by simp [hsevere])]
    by_cases hclient : b.hasClient = true
    · rw [if_neg (by simp [hclient])]
      cases htopic : p.topic event with
      | none => exact ⟨⟨h, by simp [messageOf, htopic], by simp [hclient]⟩, rfl⟩
      | some topic =>
        cases hsendable : sendable py event with
        | false =>
          obtain ⟨e, he⟩ := eventPayload_of_not_sendable hsendable
          simp only [he]
          exact ⟨⟨⟨h.hasClient, h.phase⟩, by simp [messageOf, hsendable], by simp [hclient]⟩, trivial⟩
        | true =>
          obtain ⟨payload, hpayload, hread⟩ := eventPayload_of_sendable hdistinct hsendable
          simp only [hpayload, Broker.perform]
          cases client b.calls (.publish topic payload p.qos) with
          | true =>
            refine ⟨⟨⟨h.hasClient, hpublish ..⟩, ?_, by simp [hclient]⟩, rfl⟩
            simp [messageOf, hsevere, hsendable, htopic, readMessage, hread, hclient]
          | false =>
            refine ⟨⟨⟨h.hasClient, hpublish ..⟩, ?_, by simp [hclient]⟩, rfl⟩
            simp [messageOf, hsevere, hsendable, htopic, readMessage, hread, hclient]
    · rw [if_pos hclient]
      exact ⟨⟨⟨h.hasClient, h.phase⟩, by simp [hclient], by simp [hsevere, hclient]⟩, rfl⟩
  · rw [if_pos hsevere]
    exact ⟨⟨h, by simp [messageOf, hsevere], by simp [hsevere]⟩, rfl⟩

/-- Two calls of the client that begin in one phase and end in another. -/
theorem performBoth (client : Client) (first second : ClientCall) (connected : Bool)
    (middle : Phase) (hclient : b.hasClient = true)
    (h : exec phaseStep .apart b.calls = some (if b.connected then .running else .apart))
    (hfirst : ∀ returns, phaseStep (if b.connected then .running else .apart) (first, returns)
      = some (if returns then middle else if b.connected then .running else .apart))
    (hsecond : ∀ returns, phaseStep middle (second, returns) = some
      (if returns then (if connected then .running else .apart)
        else if b.connected then .running else .apart))
    (hread : ∀ returns, readMessage py (first, returns) = none ∧
      readMessage py (second, returns) = none) :
    Relayed py p [] b (b.performBoth client first second connected).2 ∧
      (b.performBoth client first second connected).2.hasClient = true := by
  unfold Broker.performBoth Broker.perform
  cases client b.calls first with
  | false =>
    refine ⟨⟨⟨fun _ => hclient, exec_snoc h (hfirst false)⟩, ?_, rfl⟩, hclient⟩
    simp [(hread false).1]
  | true =>
    have hmiddle := exec_snoc h (hfirst true)
    simp only
    cases client (b.calls ++ [(first, true)]) second with
    | false =>
      refine ⟨⟨⟨fun _ => hclient, exec_snoc hmiddle (hsecond false)⟩, ?_, rfl⟩, hclient⟩
      simp [(hread true).1, (hread false).2]
    | true =>
      refine ⟨⟨⟨fun _ => hclient, exec_snoc hmiddle (hsecond true)⟩, ?_, rfl⟩, hclient⟩
      simp [(hread true).1, (hread true).2]

theorem connect (py : Json.Numbers φ) (p : MqttPublisher φ) (client : Client) (h : InPhase b)
    (builds : Bool) :
    Relayed py p [] b (p.connect client builds b).2 ∧
      (p.connect client builds b).2.hasClient = (b.hasClient || builds) := by
  unfold MqttPublisher.connect
  by_cases hconnected : b.connected = true
  · rw [if_pos hconnected]
    exact ⟨refl h, by simp [h.hasClient hconnected]⟩
  · rw [if_neg hconnected]
    by_cases hbuilds : ¬ b.hasClient ∧ ¬ builds
    · rw [if_pos hbuilds]
      exact ⟨refl h, by simp_all⟩
    · rw [if_neg hbuilds]
      have hboth : Relayed py p [] { b with hasClient := true } _ ∧ _ :=
        performBoth client (.connect p.host p.port) .loopStart true .linked rfl h.phase
          (by simp [hconnected, phaseStep]) (by simp [hconnected, phaseStep]) fun _ => ⟨rfl, rfl⟩
      obtain ⟨⟨hinPhase, hmessages, hdropped⟩, hclient⟩ := hboth
      refine ⟨⟨hinPhase, hmessages, hdropped⟩, hclient.trans ?_⟩
      cases hgiven : b.hasClient <;> simp_all

theorem disconnect (py : Json.Numbers φ) (p : MqttPublisher φ) (client : Client) (h : InPhase b) :
    Relayed py p [] b (MqttPublisher.disconnect client b).2 ∧
      (MqttPublisher.disconnect client b).2.hasClient = b.hasClient := by
  unfold MqttPublisher.disconnect
  by_cases hconnected : b.connected = true
  · have hclient := h.hasClient hconnected
    rw [if_neg (by simp [hconnected, hclient]), hclient]
    exact performBoth client .loopStop .disconnect false .halting hclient h.phase
      (by simp [hconnected, phaseStep]) (by simp [hconnected, phaseStep]) fun _ => ⟨rfl, rfl⟩
  · rw [if_pos (.inl hconnected)]
    exact ⟨refl h, rfl⟩

/-- A run. -/
theorem foldl (py : Json.Numbers φ) (p : MqttPublisher φ) (client : Client)
    (heard : List (EventRecord φ ⊕ Method)) (hdistinct : ∀ e ∈ eventsOf heard, e.metadata.distinct) :
    ∀ b, InPhase b →
      Relayed py p (withClient b.hasClient heard) b (heard.foldl (relay py p client) b) := by
  -- The events that are still to come are offered to the client that there is now, or later.
  induction heard with
  | nil => exact fun _ h => refl h
  | cons x heard ih =>
    intro b h
    rw [List.foldl_cons]
    cases x with
    | inl event =>
      obtain ⟨hevent, hrest⟩ := List.forall_mem_cons.mp
        (show ∀ e ∈ event :: eventsOf heard, e.metadata.distinct from hdistinct)
      obtain ⟨hrelayed, hclient⟩ := onEvent py p client h hevent
      have hih := ih hrest _ hrelayed.inPhase
      rw [hclient] at hih
      exact hrelayed.trans hih
    | inr method =>
      have hrest : ∀ e ∈ eventsOf heard, e.metadata.distinct := hdistinct
      cases method with
      | pruneOlderThan olderThan => exact ih hrest b h
      | connect builds =>
        obtain ⟨hrelayed, hclient⟩ := connect py p client h builds
        have hih := ih hrest _ hrelayed.inPhase
        rw [hclient] at hih
        exact hrelayed.trans hih
      | disconnect =>
        obtain ⟨hrelayed, hclient⟩ := disconnect py p client h
        have hih := ih hrest _ hrelayed.inPhase
        rw [hclient] at hih
        exact hrelayed.trans hih

end Relayed

section
variable {ι κ β : Type} [DecidableEq ι] [DecidableEq κ] [DecidableEq β]

/-- The receiver of the messages gets the events. Take any run of observers on any buses, of
connecting and disconnecting, with a client that returns and raises as it likes. The messages that
the client is given decode, in order, to the dictionaries of the events that are heard when there is
a client, that are severe enough, and that can be written. Each has its topic. An event that is
heard before there is a client leaves a line in the log. The client is called in the order of
`phaseStep`: its loop is not started twice, and stopped only when it runs. -/
theorem broker_receives (py : Json.Numbers φ) (home : ι → β) (init : ι → Observer φ)
    (es : List (WatchEvent ι κ β (EventRecord φ) Method)) (hhome : ∀ e ∈ es, AtHome home e)
    (hdistinct : ∀ b e, .publish b e ∈ es → e.metadata.distinct) (i : ι) (p : MqttPublisher φ)
    (client : Client) (given : Bool) (hi : init i = .mqtt p client { hasClient := given }) :
    ∃ b, (Watching.after (observe py ι) init es).observer i = .mqtt p client b ∧
      b.calls.filterMap (readMessage py)
        = ((withClient given (heard home i false es)).filter (·.2)).filterMap
          (fun x => messageOf py p x.1) ∧
      b.log.count .notConnected = ((withClient given (heard home i false es)).filter
        fun x => !x.2 && severeEnough p.minSeverity x.1).length ∧
      exec phaseStep .apart b.calls = some (if b.connected then .running else .apart) := by
  obtain ⟨hobserver, -⟩ := Watched.run (B := observe py ι) es _ _ _
    (Watched.initially home init) hhome
  have hrelayed : Relayed py p (withClient given (heard home i false es)) _ _ :=
    Relayed.foldl py p client (heard home i false es) (distinct_of_mem_heard hdistinct)
      { hasClient := given } ⟨fun h => absurd h Bool.false_ne_true, rfl⟩
  refine ⟨_, (hobserver i).trans ?_, hrelayed.messages, hrelayed.dropped.trans (Nat.zero_add _),
    hrelayed.inPhase.phase⟩
  show (heard home i false es).foldl _ (init i) = _
  rw [hi]
  exact foldl_take_mqtt i p client _ _

end

/-- The first of two events comes before there is a client. -/
theorem broker_receives_twoForwarders :
    ∃ b, (Watching.after (observe onlyHalf Bool)
        (twoForwarders (fun _ _ => none) fun _ _ => true) twoEvents).observer true
          = .mqtt (.create "broker.local") (fun _ _ => true) b ∧
      b.calls.filterMap (readMessage onlyHalf)
        = [("edgesentinel/storage/storage_low", .ok diskEvent.toJson, 0)] ∧
      b.log.count .notConnected = 1 := by
  obtain ⟨b, hb, hmessages, hdropped, -⟩ := broker_receives onlyHalf (fun _ => ())
    (twoForwarders (fun _ _ => none) fun _ _ => true) twoEvents atHome_twoEvents
    distinct_twoEvents true _ _ false rfl
  exact ⟨b, hb, hmessages.trans rfl, hdropped.trans rfl⟩

end EdgeSentinel.Proofs.Integrations
