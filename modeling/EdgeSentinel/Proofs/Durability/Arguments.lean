import EdgeSentinel.Proofs.Durability.AtLeastOnce
import EdgeSentinel.Library.JsonRoundtrip

/-!
# `EdgeSentinel.Proofs.Durability.Arguments`: the arguments of a durable call

The arguments of a durable call outlive the process as the text that `json.dumps` writes. A replay
reads the text again and calls the function with what `json.loads` makes of it.

`Traced` is the invariant. Every row of the journal, and every row that an execution can still
insert, is of a call in the past of the run, and its payload is the text of the call's arguments.
With the round trip of the texts, each invocation gets the arguments of the call
(`invoked_with_arguments`).
-/

set_option autoImplicit false

namespace EdgeSentinel.Proofs.Durability

open Coroutine EdgeSentinel.Durability

variable {π ρ : Type}

/-- `json.dumps` and `json.loads` on JSON values. A row holds what `dumps` has written, so `loads`
can read it. -/
def jsonCodec {φ : Type} (py : Json.Numbers φ) : JsonCodec (Json φ) where
  dumps := Json.dumps py
  loads text := match Json.loads py text with
    | .ok v => v
    | .error _ => .null

/-! ### Where the rows come from -/

/-- A call in `past` has this id and operation, and its arguments have this text. -/
def Called (cfg : Config π) (past : List (Event π ρ)) (id : IntentId)
    (operation payload : String) : Prop :=
  ∃ arguments, .call id operation arguments ∈ past ∧ cfg.codec.dumps arguments = .ok payload

/-- The rows that an operation can insert are of calls in `past`. -/
def InsertsCalled (cfg : Config π) (past : List (Event π ρ)) : Op π → Prop
  | .insertIntent id operation payload => Called cfg past id operation payload
  | _ => True

section
variable {cfg : Config π} {past : List (Event π ρ)} {id : IntentId} {operation payload : String}

theorem Called.snoc (h : Called cfg past id operation payload) (e : Event π ρ) :
    Called cfg (past ++ [e]) id operation payload := by
  obtain ⟨arguments, hmem, hdumps⟩ := h
  exact ⟨arguments, List.mem_append_left _ hmem, hdumps⟩

theorem InsertsCalled.snoc (e : Event π ρ) :
    ∀ o, InsertsCalled cfg past o → InsertsCalled cfg (past ++ [e]) o
  | .insertIntent .., h => Called.snoc h e
  | .updateIntent .., _ => trivial
  | .loadIntent _, _ => trivial
  | .call .., _ => trivial
  | .outcome .., _ => trivial
  | .publish .., _ => trivial

theorem asks_get : (IntentJournal.get cfg.codec id : Execution π ρ _).Asks
    (InsertsCalled cfg past) :=
  Prog.asks_bind (Prog.asks_perform trivial) fun _ => trivial

theorem asks_require : (IntentJournal.require cfg.codec id : Execution π ρ _).Asks
    (InsertsCalled cfg past) := by
  refine Prog.asks_bind asks_get fun intent => ?_
  cases intent <;> exact trivial

/-- A mark reads a row and writes it. -/
theorem asks_mark {status : IntentStatus} {lastError : Option String} :
    (do
      let current ← IntentJournal.require cfg.codec id
      Op.ask (.updateIntent id status current.attempts lastError) : Execution π ρ Unit).Asks
        (InsertsCalled cfg past) :=
  Prog.asks_bind asks_require fun _ => Prog.asks_perform trivial

/-- An attempt inserts no row. -/
theorem asks_execute (operation : String) (op : Operation) (intent : Intent π) :
    (execute cfg operation op intent : Execution π ρ ρ).Asks (InsertsCalled cfg past) := by
  unfold execute
  refine Prog.asks_bind ?_ fun updated => ?_
  · unfold IntentJournal.markInProgress
    exact Prog.asks_bind asks_require fun _ => Prog.asks_bind (Prog.asks_perform trivial)
      fun _ => trivial
  refine Prog.asks_bind (Prog.asks_perform trivial) fun _ => ?_
  refine Prog.asks_bind (Prog.asks_perform trivial) fun _ => ?_
  refine Prog.asks_bind (Prog.asks_perform trivial) fun result => ?_
  cases result with
  | ok value =>
    exact Prog.asks_bind asks_mark fun _ => Prog.asks_bind (Prog.asks_perform trivial)
      fun _ => trivial
  | error exc =>
    dsimp only
    split
    · exact Prog.asks_bind asks_mark fun _ => Prog.asks_bind (Prog.asks_perform trivial)
        fun _ => trivial
    · exact Prog.asks_bind asks_mark fun _ => Prog.asks_bind (Prog.asks_perform trivial)
        fun _ => trivial

/-- A durable call inserts the row of its own arguments. -/
theorem asks_wrapper (op : Operation) (started : Bool) {arguments : π}
    (hmem : .call id operation arguments ∈ past) :
    (wrapper cfg operation op started id arguments : Execution π ρ ρ).Asks
      (InsertsCalled cfg past) := by
  unfold wrapper
  cases started with
  | false => exact trivial
  | true =>
    refine Prog.asks_bind ?_ fun intent => asks_execute operation op intent
    unfold IntentJournal.record
    cases hdumps : cfg.codec.dumps arguments with
    | error cause => exact trivial
    | ok serialized =>
      refine Prog.asks_bind (Prog.asks_perform ⟨arguments, hmem, hdumps⟩) fun inserted => ?_
      cases inserted with
      | error message => exact trivial
      | ok _ =>
        refine Prog.asks_bind asks_get fun intent => ?_
        cases intent <;> exact trivial

/-- Every stored row, and every row that an execution can still insert, is of a call in `past`. -/
structure Traced (cfg : Config π) (past : List (Event π ρ)) (s : System π ρ) : Prop where
  rows : ∀ row ∈ s.store.intents, Called cfg past row.id row.operation row.payload
  asks : ∀ id p, s.executing id = some p → p.Asks (InsertsCalled cfg past)

namespace Traced

variable {s s' : System π ρ} {e : Event π ρ}

/-- One more event in the past. -/
theorem snoc (h : Traced cfg past s) (e : Event π ρ) : Traced cfg (past ++ [e]) s where
  rows row hmem := (h.rows row hmem).snoc e
  asks id p hex := (h.asks id p hex).mono (InsertsCalled.snoc e)

/-- A new execution, or an execution that goes on. -/
theorem put (h : Traced cfg past s) {p : Execution π ρ ρ} (hp : p.Asks (InsertsCalled cfg past)) :
    Traced cfg past (s.put id p) where
  rows := h.rows
  asks id' p' hex := by
    by_cases hid : id' = id
    · subst hid
      simp only [System.put, Function.update_self] at hex
      split at hex
      · cases hex
      · cases hex
        exact hp
    · exact h.asks id' p' (by simpa [System.put, hid] using hex)

/-- An operation that inserts the rows of calls only. An UPDATE keeps what it does not set. -/
theorem perform {intents : List IntentRow}
    (h : ∀ row ∈ intents, Called cfg past row.id row.operation row.payload) {store : Store π}
    (hstore : store.intents = intents) {o : Op π} (ho : InsertsCalled cfg past o) (x : Answer ρ) :
    ∀ row ∈ (store.perform o x).2.intents, Called cfg past row.id row.operation row.payload := by
  subst hstore
  cases o with
  | insertIntent id operation payload =>
    simp only [Store.perform, insertIntent]
    cases loadIntent store.intents id with
    | some row => exact h
    | none =>
      intro row hmem
      rcases List.mem_append.mp hmem with hmem | hmem
      · exact h row hmem
      · obtain rfl := List.mem_singleton.mp hmem
        exact ho
  | updateIntent id status attempts lastError =>
    intro row hmem
    obtain ⟨old, hold, rfl⟩ := List.mem_map.mp hmem
    split
    · exact h old hold
    · exact h old hold
  | _ => exact h

theorem advance (h : Traced cfg past s) {x : Answer ρ} : Traced cfg past (s.advance id x) := by
  unfold System.advance
  split
  · rename_i o k hask
    obtain ⟨ho, hk⟩ := h.asks id _ hask
    exact put (s := { s with store := (s.store.perform o x).2 })
      ⟨perform h.rows rfl ho x, h.asks⟩ (hk _)
  · exact h

/-- One step of the process. The call is in the past of its execution. -/
theorem step (h : Traced cfg past s) (hstep : step cfg s e = some s') :
    Traced cfg (past ++ [e]) s' := by
  obtain ⟨-, rfl⟩ := Run.guarded_eq_some.mp hstep
  have hpast := h.snoc e
  cases e with
  | call id operation arguments =>
    simp only [System.next]
    split
    · exact hpast
    · exact hpast.put (asks_wrapper _ _ (by simp))
  | advance id x => exact hpast.advance
  | crash => exact ⟨hpast.rows, fun _ _ hex => by cases hex⟩
  | start => exact ⟨hpast.rows, hpast.asks⟩
  | replay now =>
    simp only [System.next]
    split
    · rename_i current intent queue hmode
      unfold System.replay
      split
      · exact ⟨hpast.rows, hpast.asks⟩
      · exact put (s := { s with mode := .replaying (some intent.id) queue })
          ⟨hpast.rows, hpast.asks⟩ (asks_execute _ _ _)
    · exact hpast
  | ready => exact ⟨hpast.rows, hpast.asks⟩

/-- The invariant holds in every reachable state. -/
theorem of_run {es : List (Event π ρ)} (hrun : Run.exec (Durability.step cfg) {} es = some s) :
    Traced cfg es s :=
  Run.exec_history_of_step (Traced cfg) (fun _ _ _ _ h hstep => h.step hstep)
    ⟨fun _ hmem => (by cases hmem), fun _ _ hex => (by cases hex)⟩ hrun

end Traced

end

/-! ### The same arguments again -/

/-- A function is always invoked with the arguments of the call. Take any run of calls, steps of
executions, crashes, restarts and replays, whose calls have JSON values as arguments. Each
invocation in the history of an intent, live or in a replay, has the arguments of a call of the
run with the id of the intent and the operation in its row. The row holds their text. -/
theorem invoked_with_arguments {φ : Type} (py : Json.Numbers φ) (cfg : Config (Json φ))
    (hcodec : cfg.codec = jsonCodec py) (es : List (Event (Json φ) ρ)) (s : System (Json φ) ρ)
    (hrun : Run.exec (step cfg) {} es = some s)
    (hdistinct : ∀ id operation arguments, .call id operation arguments ∈ es →
      Json.distinct arguments)
    (id : IntentId) (arguments : Json φ) (stored : Option IntentRow)
    (hinvoked : .invoked arguments stored ∈ s.store.history id) :
    ∃ row, loadIntent s.store.intents id = some row ∧
      .call id row.operation arguments ∈ es ∧ Json.dumps py arguments = .ok row.payload := by
  have hcell := keptCell_of_run hrun id
  unfold KeptCell at hcell
  cases hrow : (s.store.cell id).row with
  | none =>
    rw [hrow] at hcell
    have hnil : s.store.history id = [] := hcell
    rw [hnil] at hinvoked
    cases hinvoked
  | some row =>
    rw [hrow] at hcell
    obtain ⟨hpayload, -⟩ := hcell.invoked arguments stored hinvoked
    have hload : loadIntent s.store.intents id = some row := hrow
    have hid : row.id = id := by simpa using List.find?_some hload
    obtain ⟨called, hcall, hdumps⟩ :=
      (Traced.of_run hrun).rows row (List.mem_of_find?_eq_some hload)
    rw [hid] at hcall
    rw [hcodec] at hpayload hdumps
    -- The text of the call's arguments is read back as these arguments.
    have hsame : arguments = called := by
      rw [hpayload]
      show (match Json.loads py row.payload with
        | .ok v => v
        | .error _ => .null) = called
      rw [Json.loads_dumps (hdistinct id _ called hcall) hdumps]
    subst hsame
    exact ⟨row, hload, hcall, hdumps⟩

/-- Python's numbers without the floats. -/
def onlyIntegers : Json.Numbers Empty where
  maxStrDigits := 4300
  repr x := x.elim
  float _ := .inr .nan
  float_repr x := x.elim

/-- A runtime with one durable operation, whose arguments are JSON values. -/
def publishReadings : Config (Json Empty) where
  codec := jsonCodec onlyIntegers
  component := "edge"
  registry operation := if operation = "publish_reading" then some ⟨some 3, by simp⟩ else none

/-- The arguments of a call. -/
def celsius : Json Empty := .obj [("celsius", .int 21)]

/-- A call, a crash while its function runs, and the replay up to the function. -/
def replayedCall : List (Event (Json Empty) Unit) :=
  [.start, .ready, .call "a" "publish_reading" celsius] ++
    List.replicate 6 (.advance "a" ⟨"", .ok ()⟩) ++ [.crash, .start, .replay ""] ++
      List.replicate 4 (.advance "a" ⟨"", .ok ()⟩)

/-- Both invocations of the replayed call have its arguments. -/
theorem invoked_with_arguments_replayedCall : ∃ s,
    Run.exec (step publishReadings) {} replayedCall = some s ∧
      (invocations (s.store.history "a")).length = 2 ∧
        ∀ arguments stored, .invoked arguments stored ∈ s.store.history "a" →
          ∃ operation, .call "a" operation arguments ∈ replayedCall := by
  have hrun : (Run.exec (step publishReadings) {} replayedCall).map (fun s =>
      (invocations (s.store.history "a")).length) = some 2 := by
    rfl
  obtain ⟨s, hs, hcount⟩ := Option.map_eq_some_iff.mp hrun
  refine ⟨s, hs, hcount, fun arguments stored hinvoked => ?_⟩
  have hdistinct : ∀ id operation arguments,
      .call id operation arguments ∈ replayedCall → Json.distinct arguments := by
    intro id operation arguments hmem
    obtain ⟨-, -, rfl⟩ : id = "a" ∧ operation = "publish_reading" ∧ arguments = celsius := by
      simpa [replayedCall] using hmem
    simp [celsius, Json.distinct, Json.distinctMembers]
  obtain ⟨row, -, hcall, -⟩ := invoked_with_arguments onlyIntegers publishReadings rfl replayedCall
    s hs hdistinct "a" arguments stored hinvoked
  exact ⟨row.operation, hcall⟩

end EdgeSentinel.Proofs.Durability
