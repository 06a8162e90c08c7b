import EdgeSentinel.Diagnostics.EventText
import EdgeSentinel.Diagnostics.Observers
import Mathlib.Data.Rat.Defs

/-!
# `EdgeSentinel.Integrations.Forwarders`: the forwarders of events

`HttpEventPublisher` sends an event as the body of a request, and `MqttPublisher` as a message of
an MQTT client. What is outside answers: the transport of the one and the client of the other may
raise at any call, as a function of the calls so far.

`Observer` is one of the three observers of a bus that write texts. `observe` is what it makes of
an event, and of a call of another method.
-/

set_option autoImplicit false

namespace EdgeSentinel.Integrations

open EdgeSentinel.Core EdgeSentinel.Diagnostics

variable {φ : Type} (py : Json.Numbers φ)

/-- The event is not below `min_severity`. -/
def severeEnough (minSeverity : Option Severity) (event : EventRecord φ) : Bool :=
  minSeverity.all fun threshold => threshold.rank ≤ event.severity.rank

/-! ### `HttpEventPublisher` -/

/-- The dictionary `{**d, **other}`: a key that `d` has keeps its place. -/
def mergeHeaders (d other : List (String × String)) : List (String × String) :=
  other.foldl (fun d (key, value) =>
    if (d.lookup key).isSome then d.map fun item => if item.1 = key then (key, value) else item
    else d ++ [(key, value)]) d

/-- The attributes of the constructor. -/
structure HttpEventPublisher where
  url : String
  headers : List (String × String)
  timeout : ℚ
  minSeverity : Option Severity
  deriving DecidableEq

/-- `HttpEventPublisher.__init__`. -/
def HttpEventPublisher.create (url : String) (headers : Option (List (String × String)) := none)
    (timeout : ℚ := 10) (minSeverity : Option Severity := none) : HttpEventPublisher where
  url := url
  headers := mergeHeaders [("Content-Type", "application/json")] (headers.getD [])
  timeout := timeout
  minSeverity := minSeverity

/-- What the transport is called with. -/
structure HttpRequest where
  url : String
  body : ByteArray
  headers : List (String × String)
  timeoutSeconds : ℚ

/-- A line of the log. -/
inductive HttpLogLine where
  | returnedStatus (url : String) (status : Int)
  | failedToPost (url : String)
  deriving DecidableEq, Repr

/-- A call of the transport returns a status, or raises an `Exception`. -/
structure Webhook where
  requests : List (HttpRequest × Option Int) := []
  log : List HttpLogLine := []

/-- What the transport answers, by the requests so far. -/
abbrev Transport := List (HttpRequest × Option Int) → HttpRequest → Option Int

/-- `_event_payload` of `integrations/http.py`. -/
def httpPayload (event : EventRecord φ) : Except String ByteArray :=
  (eventPayload py event).map String.toUTF8

/-- `_on_event`. -/
def HttpEventPublisher.onEvent (p : HttpEventPublisher) (transport : Transport) (w : Webhook)
    (event : EventRecord φ) : Webhook :=
  if ¬ severeEnough p.minSeverity event then w
  else
    match httpPayload py event with
    | .error _ => { w with log := w.log ++ [.failedToPost p.url] }
    | .ok body =>
      let request := { url := p.url, body, headers := p.headers, timeoutSeconds := p.timeout }
      let answer := transport w.requests request
      { requests := w.requests ++ [(request, answer)]
        log := match answer with
          | none => w.log ++ [.failedToPost p.url]
          | some status =>
            if 400 ≤ status then w.log ++ [.returnedStatus p.url status] else w.log }

/-! ### `MqttPublisher` -/

/-- A `TopicBuilder`. `none` is that it raises. -/
abbrev TopicBuilder (φ : Type) := EventRecord φ → Option String

/-- `_default_topic`. -/
def defaultTopic (start : String) : TopicBuilder φ :=
  fun event => some (start ++ "/" ++ event.component ++ "/" ++ event.type)

/-- The attributes of the constructor. -/
structure MqttPublisher (φ : Type) where
  host : String
  port : Int
  topic : TopicBuilder φ
  qos : Int
  minSeverity : Option Severity

/-- `MqttPublisher.__init__`. The topic is a text or a function. -/
def MqttPublisher.create (host : String) (port : Int := 1883)
    (topic : String ⊕ TopicBuilder φ := .inr (defaultTopic "edgesentinel")) (qos : Int := 0)
    (minSeverity : Option Severity := none) : MqttPublisher φ where
  host := host
  port := port
  topic := topic.elim (fun topic _ => some topic) id
  qos := qos
  minSeverity := minSeverity

/-- The methods of `MqttClient`. -/
inductive ClientCall where
  | connect (host : String) (port : Int)
  | loopStart
  | loopStop
  | disconnect
  | publish (topic payload : String) (qos : Int)
  deriving DecidableEq, Repr

/-- A line of the log. -/
inductive MqttLogLine where
  | notConnected
  | failedToPublish (topic : String)
  deriving DecidableEq, Repr

/-- A publisher and its client. A call of the client returns, or raises an `Exception`. -/
structure Broker where
  /-- `_client is not None` -/
  hasClient : Bool := false
  connected : Bool := false
  calls : List (ClientCall × Bool) := []
  log : List MqttLogLine := []
  deriving DecidableEq, Repr

/-- Whether a call of the client returns, by the calls so far. -/
abbrev Client := List (ClientCall × Bool) → ClientCall → Bool

/-- What `connect` and `disconnect` raise. -/
inductive MqttError where
  /-- `_build_default_client` -/
  | build
  | client (call : ClientCall)
  deriving DecidableEq, Repr

namespace Broker

/-- Call the client. -/
def perform (client : Client) (b : Broker) (call : ClientCall) : Bool × Broker :=
  let returns := client b.calls call
  (returns, { b with calls := b.calls ++ [(call, returns)] })

/-- Call the client with one method and then with another, then set `_connected`. -/
def performBoth (client : Client) (b : Broker) (first second : ClientCall) (connected : Bool) :
    Except MqttError Unit × Broker :=
  match b.perform client first with
  | (false, b) => (.error (.client first), b)
  | (true, b) =>
    match b.perform client second with
    | (false, b) => (.error (.client second), b)
    | (true, b) => (.ok (), { b with connected := connected })

end Broker

namespace MqttPublisher

/-- `connect`. `builds` is that `_build_default_client` returns a client. -/
def connect (p : MqttPublisher φ) (client : Client) (builds : Bool) (b : Broker) :
    Except MqttError Unit × Broker :=
  if b.connected then (.ok (), b)
  else if ¬ b.hasClient ∧ ¬ builds then (.error .build, b)
  else { b with hasClient := true }.performBoth client (.connect p.host p.port) .loopStart true

/-- `disconnect`. -/
def disconnect (client : Client) (b : Broker) : Except MqttError Unit × Broker :=
  if ¬ b.connected ∨ ¬ b.hasClient then (.ok (), b)
  else b.performBoth client .loopStop .disconnect false

/-- `_on_event`. The bus logs what the topic builder raises. -/
def onEvent (p : MqttPublisher φ) (client : Client) (b : Broker) (event : EventRecord φ) :
    Broker :=
  if ¬ severeEnough p.minSeverity event then b
  else if ¬ b.hasClient then { b with log := b.log ++ [.notConnected] }
  else
    match p.topic event with
    | none => b
    | some topic =>
      match eventPayload py event with
      | .error _ => { b with log := b.log ++ [.failedToPublish topic] }
      | .ok payload =>
        match b.perform client (.publish topic payload p.qos) with
        | (true, b) => b
        | (false, b) => { b with log := b.log ++ [.failedToPublish topic] }

end MqttPublisher

/-! ### Observers that write texts -/

/-- A timeline, or a forwarder with what answers it. -/
inductive Observer (φ : Type) where
  | timeline (table : TextTable)
  | http (publisher : HttpEventPublisher) (transport : Transport) (state : Webhook)
  | mqtt (publisher : MqttPublisher φ) (client : Client) (state : Broker)

/-- The other methods. -/
inductive Method where
  | pruneOlderThan (olderThan : DateTime)
  | connect (builds : Bool)
  | disconnect

namespace Observer

/-- `_on_event`. -/
def onEvent (o : Observer φ) (event : EventRecord φ) : Observer φ :=
  match o with
  | .timeline table => .timeline (TextLog.onEvent py table event)
  | .http p transport w => .http p transport (p.onEvent py transport w event)
  | .mqtt p client b => .mqtt p client (p.onEvent py client b event)

/-- A method of its class is called. -/
def call (o : Observer φ) (method : Method) : Observer φ :=
  match o, method with
  | .timeline table, .pruneOlderThan olderThan =>
    .timeline (TextLog.pruneOlderThan table olderThan).1
  | .mqtt p client b, .connect builds => .mqtt p client (p.connect client builds b).2
  | .mqtt p client b, .disconnect => .mqtt p client (MqttPublisher.disconnect client b).2
  | o, _ => o

end Observer

/-- Any number of observers that write texts. -/
def observe (ι : Type) : Behaviour ι (EventRecord φ) Method (Observer φ) where
  onEvent _ o event := o.onEvent py event
  call _ o method := o.call method

end EdgeSentinel.Integrations
