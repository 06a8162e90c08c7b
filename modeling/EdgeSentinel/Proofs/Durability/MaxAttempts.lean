import EdgeSentinel.Proofs.Durability.AtLeastOnce

/-!
# `EdgeSentinel.Proofs.Durability.MaxAttempts`: how often an intent is executed

`max_attempts` is compared with the stored attempts only where the function raises. A crash
during the last attempt leaves an IN_PROGRESS row whose attempts are used up, and the next
replay executes it again (`crash_exceeds_max_attempts`).

`lastAttemptOpen` is that situation. When no crash falls into it, the bound holds over the
whole life of the intent: `attempts_le_maxAttempts`. An unfinished intent that does not
execute has attempts left, and the invariant carries this from one attempt to the next.
-/

set_option autoImplicit false

namespace EdgeSentinel.Proofs.Durability

open Coroutine EdgeSentinel.Durability

variable {π ρ : Type}

/-- The intent is not finished, and its attempts are used up: its last attempt is between
the IN_PROGRESS mark and the final mark. -/
def lastAttemptOpen (cfg : Config π) (rows : List IntentRow) (id : IntentId) : Bool :=
  (loadIntent rows id).any fun row =>
    row.status ∈ [IntentStatus.pending, IntentStatus.inProgress] &&
      (cfg.registry row.operation).any fun op => op.exhausted row.attempts

/-- A crash does not fall into the last attempt of the intent. -/
def SparesLastAttempt (cfg : Config π) (id : IntentId) (s : System π ρ) (e : Event π ρ)
    (_ : System π ρ) : Prop :=
  e.isCrash = true → lastAttemptOpen cfg s.store.intents id = false

instance (cfg : Config π) (id : IntentId) (s : System π ρ) (e : Event π ρ) (s' : System π ρ) :
    Decidable (SparesLastAttempt cfg id s e s') :=
  inferInstanceAs (Decidable (_ → _))

/-- The stored attempts are within `max_attempts`. -/
def Within (cfg : Config π) (target id : IntentId) (c : Cell π) : Prop :=
  id = target → ∀ row op m, c.row = some row → cfg.registry row.operation = some op →
    op.maxAttempts = some m → row.attempts ≤ m

/-- While the intent is not finished, an attempt is left. -/
def AttemptLeft (cfg : Config π) (target id : IntentId) (c : Cell π) : Prop :=
  id = target → ∀ row op m, c.row = some row → cfg.registry row.operation = some op →
    op.maxAttempts = some m → row.attempts ≤ m ∧
      (row.status ∈ [IntentStatus.pending, IntentStatus.inProgress] → row.attempts < m)

theorem exhausted_iff {op : Operation} {m : Nat} (hm : op.maxAttempts = some m) (attempts : Nat) :
    op.exhausted attempts = true ↔ m ≤ attempts := by
  simp [Operation.exhausted, hm]

/-- The final mark leaves an attempt or finishes the intent. -/
theorem attemptLeft_settled {cfg : Config π} {target id : IntentId} {op : Operation}
    {row : IntentRow} (hop : cfg.registry row.operation = some op)
    (hle : id = target → ∀ m, op.maxAttempts = some m → row.attempts ≤ m)
    (result : Except String ρ) (now : String) (h : List (Entry π)) :
    AttemptLeft cfg target id ⟨some (settled op row result now), h⟩ := by
  intro hid row' op' m hrow' hop' hm
  cases hrow'
  cases result with
  | ok value =>
    obtain rfl : op = op' := Option.some.inj (hop.symm.trans hop')
    exact ⟨hle hid m hm, fun hs => by simp [settled, IntentRow.update] at hs⟩
  | error e =>
    obtain rfl : op = op' := Option.some.inj (hop.symm.trans hop')
    refine ⟨hle hid m hm, fun hs => ?_⟩
    -- PENDING means that the attempts are not exhausted.
    by_cases hexhausted : op.exhausted row.attempts = true
    · simp [settled, IntentRow.update, hexhausted] at hs
    · rw [exhausted_iff hm] at hexhausted
      show row.attempts < m
      omega

/-- The bound meets the obligations of a property of each intent. -/
theorem upholds_attemptLeft (ρ : Type) (cfg : Config π) (target : IntentId) :
    Upholds ρ cfg (Within cfg target) (AttemptLeft cfg target) where
  inv_of_idle _ _ h hid row op m hrow hop hm := (h hid row op m hrow hop hm).1
  fresh _ _ _ _ _ hrow := by cases hrow
  recorded id operation payload now _ h _ _ row op m hrow _ hm := by
    cases hrow
    have hpos : 1 ≤ m := op.maxAttempts_pos m hm
    exact ⟨Nat.zero_le m, fun _ => hpos⟩
  execute op intent c hop hready hidle := by
    obtain ⟨row, h⟩ := c
    obtain ⟨row, rfl, rfl, hstatus⟩ := hready
    have hop : cfg.registry row.operation = some op := hop
    -- The IN_PROGRESS mark uses up an attempt that was left.
    have hmarked : row.id = target → ∀ m, op.maxAttempts = some m → row.attempts + 1 ≤ m :=
      fun hid m hm => (hidle hid row op m rfl hop hm).2 hstatus
    have hwithin : ∀ now h, Within cfg target row.id ⟨some (attempted row now), h⟩ := by
      intro now h hid row' op' m hrow' hop' hm
      cases hrow'
      obtain rfl : op = op' := Option.some.inj (hop.symm.trans hop')
      exact hmarked hid m hm
    refine safe_execute ?_ ?_ (fun now => hwithin now _) (fun now => hwithin now _)
      (fun now _ => hwithin now _) ?_ _
    · intro c hc hid row op m hrow hop hm
      exact (hc hid row op m hrow hop hm).1
    · intro hid row op m hrow hop hm
      exact (hidle hid row op m hrow hop hm).1
    · intro now now' result
      have hopMarked : cfg.registry (attempted row now).operation = some op := hop
      have hwithinMarked : row.id = target → ∀ m, op.maxAttempts = some m →
          (attempted row now).attempts ≤ m := hmarked
      exact attemptLeft_settled hopMarked hwithinMarked result now' _

/-- A crash that spares the last attempt finds an attempt left. -/
theorem attemptLeft_of_spares {cfg : Config π} {target : IntentId} {s : System π ρ}
    (h : Within cfg target target (s.store.cell target))
    (hopen : lastAttemptOpen cfg s.store.intents target = false) :
    AttemptLeft cfg target target (s.store.cell target) := by
  intro hid row op m hrow hop hm
  refine ⟨h hid row op m hrow hop hm, fun hs => ?_⟩
  have hrow : loadIntent s.store.intents target = some row := hrow
  have hnot : ¬ op.exhausted row.attempts = true := by
    intro hexhausted
    simp only [lastAttemptOpen, hrow, hop, Option.any_some, hexhausted, hs, decide_true,
      Bool.and_self] at hopen
    cases hopen
  rw [exhausted_iff hm] at hnot
  omega

/-- When no crash falls into the last attempt of an intent, its function is invoked at most
`max_attempts` times over the whole life of the intent, and so many attempts are stored. -/
theorem attempts_le_maxAttempts (cfg : Config π) (es : List (Event π ρ)) (s : System π ρ)
    (hrun : Run.exec (step cfg) {} es = some s) (id : IntentId)
    (hspares : Run.Along (step cfg) (SparesLastAttempt cfg id) {} es) (row : IntentRow)
    (op : Operation) (m : Nat) (hrow : loadIntent s.store.intents id = some row)
    (hop : cfg.registry row.operation = some op) (hm : op.maxAttempts = some m) :
    (invocations (s.store.history id)).length ≤ m ∧ row.attempts ≤ m := by
  have hup := upholds_attemptLeft ρ cfg id
  -- The property of an executing intent is weaker than that of an idle one, and a crash that
  -- spares the last attempt takes it from the first to the second.
  have hinv : SystemInv cfg (Within cfg id) (AttemptLeft cfg id) s := by
    refine SystemInv.of_run hup (fun t e t' ht hspare hcrash id' => ?_) hrun hspares
    by_cases hid : id' = id
    · subst hid
      exact attemptLeft_of_spares (ht.inv_cell hup id') (hspare hcrash)
    · exact fun h => absurd h hid
  have hle : row.attempts ≤ m := hinv.inv_cell hup id rfl row op m hrow hop hm
  -- The journal counts every invocation.
  have hcell := keptCell_of_run hrun id
  unfold KeptCell at hcell
  have hrow' : (s.store.cell id).row = some row := hrow
  rw [hrow'] at hcell
  exact ⟨hcell.count.trans hle, hle⟩

/-- A call of the durable operation whose single attempt raises. -/
def failedCall : List (Event Nat Unit) :=
  [.start, .ready, .call "a" "publish_reading" 0] ++
    List.replicate 10 (.advance "a" ⟨"", .error "offline"⟩)

/-- The failed call used its one attempt. -/
theorem attempts_le_maxAttempts_failedCall : ∃ s row,
    Run.exec (step publishOnce) {} failedCall = some s ∧
      loadIntent s.store.intents "a" = some row ∧
        (invocations (s.store.history "a")).length ≤ 1 ∧ row.attempts ≤ 1 := by
  have hrun : (Run.exec (step publishOnce) {} failedCall).map (fun s => s.store.intents)
      = some [reading .failed 1 (some "offline")] := by
    rfl
  obtain ⟨s, hs, hrows⟩ := Option.map_eq_some_iff.mp hrun
  have hrow : loadIntent s.store.intents "a" = some (reading .failed 1 (some "offline")) := by
    rw [hrows]
    rfl
  exact ⟨s, _, hs, hrow, attempts_le_maxAttempts publishOnce failedCall s hs "a"
    (by decide +kernel) _ ⟨some 1, by simp⟩ 1 hrow rfl rfl⟩

/-- The crashed call is replayed after its only attempt: two invocations, two attempts. -/
theorem crash_exceeds_max_attempts :
    ¬ ∀ (cfg : Config Nat) (es : List (Event Nat Unit)) (s : System Nat Unit) (id : IntentId)
      (row : IntentRow) (op : Operation) (m : Nat), Run.exec (step cfg) {} es = some s →
      loadIntent s.store.intents id = some row → cfg.registry row.operation = some op →
      op.maxAttempts = some m →
      (invocations (s.store.history id)).length ≤ m ∧ row.attempts ≤ m := by
  intro h
  have hrun : (Run.exec (step publishOnce) {} (crashedCall ++ [.start, .replay ""] ++
      List.replicate 4 (.advance "a" ⟨"", .ok ()⟩))).map (fun s =>
        (s.store.intents, (invocations (s.store.history "a")).length))
      = some ([reading .inProgress 2 none], 2) := by
    rfl
  obtain ⟨s, hs, hdata⟩ := Option.map_eq_some_iff.mp hrun
  obtain ⟨hrows, htwo⟩ := Prod.mk.inj hdata
  have hrow : loadIntent s.store.intents "a" = some (reading .inProgress 2 none) := by
    rw [hrows]
    rfl
  have hone := (h publishOnce _ s "a" _ ⟨some 1, by simp⟩ 1 hs hrow rfl rfl).1
  rw [htwo] at hone
  exact absurd hone (by decide)

end EdgeSentinel.Proofs.Durability
