import Mathlib.Data.List.Forall2
import EdgeSentinel.Durability.Signature
import EdgeSentinel.Library.Keyed
import EdgeSentinel.Proofs.Durability.AtLeastOnce

/-!
# `EdgeSentinel.Proofs.Durability.Rebinding`: the journaled arguments, bound again

`apply_defaults` gives every parameter a value, so the payload has every parameter's name. Passed
by keyword, it binds to the same values when every parameter accepts a keyword
(`callByName_of_accepts`). A positional-only parameter does not: its name in the payload is an
unexpected keyword, and every execution of the intent raises a `TypeError`
(`callByName_of_positionalOnly`).
-/

set_option autoImplicit false

namespace EdgeSentinel.Proofs.Durability

open EdgeSentinel.Durability FixedSignature

variable {ν : Type} {sig : FixedSignature ν} {args : List ν} {kwargs payload : Arguments ν}

/-- The payload has the names of the parameters, in their order. -/
def Complete (ps : List (Parameter ν)) (payload : Arguments ν) : Prop :=
  payload.map Prod.fst = ps.map (·.name)

/-- A parameter is bound, or it is left out and has a default. -/
theorem bindFrom_cons {p : Parameter ν} {ps : List (Parameter ν)} {bound : Arguments ν}
    (h : bindFrom kwargs (p :: ps) args = .ok bound) :
    ∃ args' rest, bindFrom kwargs ps args' = .ok rest ∧
      ((∃ value, bound = (p.name, value) :: rest) ∨ (bound = rest ∧ p.default.isSome)) := by
  cases args with
  | cons arg args =>
    simp only [bindFrom] at h
    split at h
    · cases h
    · split at h
      · cases h
      · cases hrest : bindFrom kwargs ps args with
        | error e =>
          rw [hrest] at h
          cases h
        | ok rest =>
          rw [hrest] at h
          cases h
          exact ⟨args, rest, hrest, Or.inl ⟨arg, rfl⟩⟩
  | nil =>
    simp only [bindFrom] at h
    split at h
    · rename_i value hvalue
      cases hrest : bindFrom kwargs ps [] with
      | error e =>
        rw [hrest] at h
        cases h
      | ok rest =>
        rw [hrest] at h
        cases h
        exact ⟨[], rest, hrest, Or.inl ⟨value, rfl⟩⟩
    · split at h
      · rename_i hdefault
        exact ⟨[], bound, h, Or.inr ⟨rfl, hdefault⟩⟩
      · cases h

/-- A parameter that a binding leaves out has a default. -/
theorem bindFrom_covers {ps : List (Parameter ν)} : ∀ {args : List ν} {bound : Arguments ν},
    bindFrom kwargs ps args = .ok bound →
      ∀ p ∈ ps, p.name ∈ bound.map Prod.fst ∨ p.default.isSome := by
  induction ps with
  | nil => intro _ _ _ p hp; cases hp
  | cons q ps ih =>
    intro args bound h p hp
    obtain ⟨args', rest, hrest, hbound⟩ := bindFrom_cons h
    rcases List.mem_cons.mp hp with rfl | hp
    · rcases hbound with ⟨value, rfl⟩ | ⟨-, hdefault⟩
      · exact Or.inl (by simp)
      · exact Or.inr hdefault
    · rcases hbound with ⟨value, rfl⟩ | ⟨rfl, -⟩
      · exact (ih hrest p hp).imp_left fun hmem => by simp [hmem]
      · exact ih hrest p hp

/-- With the defaults, a binding has every parameter's name. -/
theorem complete_filterMap {bound : Arguments ν} : ∀ {ps : List (Parameter ν)},
    (∀ p ∈ ps, p.name ∈ bound.map Prod.fst ∨ p.default.isSome) →
      Complete ps (ps.filterMap fun p =>
        match bound.lookup p.name with
        | some value => some (p.name, value)
        | none => p.default.map fun value => (p.name, value)) := by
  intro ps
  induction ps with
  | nil => intro _; rfl
  | cons p ps ih =>
    intro h
    have hrest := ih fun q hq => h q (by simp [hq])
    unfold Complete at hrest ⊢
    cases hlookup : bound.lookup p.name with
    | some value =>
      rw [List.filterMap_cons_some (b := (p.name, value)) (by rw [hlookup])]
      simp only [List.map_cons, hrest]
    | none =>
      -- The parameter was left out of the call, so its default stands in.
      have hnot : p.name ∉ bound.map Prod.fst := by
        intro hmem
        obtain ⟨entry, hentry, hname⟩ := List.mem_map.mp hmem
        have hno := List.lookup_eq_none_iff.mp hlookup entry hentry
        simp [hname] at hno
      obtain ⟨value, hvalue⟩ := Option.isSome_iff_exists.mp ((h p (by simp)).resolve_left hnot)
      rw [List.filterMap_cons_some (b := (p.name, value)) (by rw [hlookup, hvalue]; rfl)]
      simp only [List.map_cons, hrest]

/-- A call binds when its arguments fit the parameters and no keyword is left over. -/
theorem call_eq_ok :
    sig.call args kwargs = .ok payload ↔ ∃ bound, bindFrom kwargs sig.parameters args = .ok bound ∧
      kwargs.find? (fun entry => !sig.acceptsKeyword entry.1) = none ∧
      payload = sig.applyDefaults bound := by
  unfold FixedSignature.call FixedSignature.bind
  cases bindFrom kwargs sig.parameters args with
  | error e =>
    constructor
    · intro h
      cases h
    · rintro ⟨bound, h, -⟩
      cases h
  | ok bound =>
    cases hfind : kwargs.find? fun entry => !sig.acceptsKeyword entry.1 with
    | none =>
      constructor
      · intro h
        cases h
        exact ⟨bound, rfl, rfl, rfl⟩
      · rintro ⟨bound, h, -, rfl⟩
        cases h
        rfl
    | some entry =>
      constructor
      · intro h
        dsimp only [Bind.bind, Except.bind] at h
        by_cases hname : entry.1 ∈ sig.parameters.map (·.name)
        · rw [if_pos hname] at h
          cases h
        · rw [if_neg hname] at h
          cases h
      · rintro ⟨-, -, h, -⟩
        cases h

/-- The values of a call have every parameter's name. -/
theorem complete_of_call (h : sig.call args kwargs = .ok payload) :
    Complete sig.parameters payload := by
  obtain ⟨bound, hbound, -, rfl⟩ := call_eq_ok.mp h
  exact complete_filterMap (bindFrom_covers hbound)

/-- The entry is the keyword for the parameter. -/
def KeywordFor (kwargs : Arguments ν) (entry : String × ν) (p : Parameter ν) : Prop :=
  kwargs.lookup entry.1 = some entry.2 ∧ entry.1 = p.name

/-- Every parameter has its keyword. -/
theorem Complete.keywords {ps : List (Parameter ν)} {values : Arguments ν}
    (hcomplete : Complete ps values)
    (hlookup : ∀ entry ∈ values, kwargs.lookup entry.1 = some entry.2) :
    List.Forall₂ (KeywordFor kwargs) values ps := by
  have hnames : List.Forall₂ (fun (entry : String × ν) (p : Parameter ν) => entry.1 = p.name)
      values ps := by
    rw [Complete, ← List.forall₂_eq_eq_eq, List.forall₂_map_left_iff,
      List.forall₂_map_right_iff] at hcomplete
    exact hcomplete
  exact (List.forall₂_and_left values ps).mpr ⟨hlookup, hnames⟩

/-- Keywords for all parameters bind to themselves. -/
theorem bindFrom_keywords {ps : List (Parameter ν)} {values : Arguments ν}
    (h : List.Forall₂ (KeywordFor kwargs) values ps) (hkind : ∀ p ∈ ps, p.kind ≠ .positionalOnly) :
    bindFrom kwargs ps [] = .ok values := by
  induction h with
  | nil => rfl
  | @cons entry p values ps hentry _ ih =>
    obtain ⟨hvalue, hname⟩ := hentry
    have htail := ih fun q hq => hkind q (List.mem_cons_of_mem p hq)
    rw [hname] at hvalue
    simp only [bindFrom, if_neg (hkind p List.mem_cons_self), hvalue, htail]
    rw [← hname]
    rfl

/-- Defaults change nothing where every parameter has a keyword. -/
theorem filterMap_keywords {ps : List (Parameter ν)} {values : Arguments ν}
    (h : List.Forall₂ (KeywordFor kwargs) values ps) :
    (ps.filterMap fun p =>
      match kwargs.lookup p.name with
      | some value => some (p.name, value)
      | none => p.default.map fun value => (p.name, value)) = values := by
  induction h with
  | nil => rfl
  | @cons entry p values ps hentry _ ih =>
    obtain ⟨hvalue, hname⟩ := hentry
    rw [hname] at hvalue
    rw [List.filterMap_cons_some (b := (p.name, entry.2)) (by rw [hvalue]), ih, ← hname]

/-- A payload with every parameter's name binds to itself when every parameter accepts a
keyword. -/
theorem callByName_of_accepts (hcomplete : Complete sig.parameters payload)
    (hkind : ∀ p ∈ sig.parameters, p.kind ≠ .positionalOnly) :
    sig.callByName payload = .ok payload := by
  have hkeys : (payload.map Prod.fst).Nodup := by
    rw [hcomplete]
    exact sig.distinct
  have hkeywords : List.Forall₂ (KeywordFor payload) payload sig.parameters :=
    hcomplete.keywords fun entry hentry => Keyed.lookup_of_mem hkeys hentry
  refine call_eq_ok.mpr ⟨payload, bindFrom_keywords hkeywords hkind, ?_,
    (filterMap_keywords hkeywords).symm⟩
  rw [List.find?_eq_none]
  intro entry hentry
  have hname : entry.1 ∈ sig.parameters.map (·.name) := hcomplete ▸ List.mem_map_of_mem hentry
  obtain ⟨p, hp, hpname⟩ := List.mem_map.mp hname
  have haccepts : sig.acceptsKeyword entry.1 = true :=
    List.any_eq_true.mpr ⟨p, hp, by simp [hpname, hkind p hp]⟩
  simp [haccepts]

/-- It does not bind when a parameter is positional-only. -/
theorem callByName_of_positionalOnly (hcomplete : Complete sig.parameters payload)
    {p : Parameter ν} (hp : p ∈ sig.parameters) (hkind : p.kind = .positionalOnly) :
    ∃ e, sig.callByName payload = .error e := by
  cases hcall : sig.callByName payload with
  | error e => exact ⟨e, rfl⟩
  | ok values =>
    obtain ⟨-, -, hfind, -⟩ := call_eq_ok.mp hcall
    have hname : p.name ∈ payload.map Prod.fst := hcomplete ▸ List.mem_map_of_mem hp
    obtain ⟨entry, hentry, hentryname⟩ := List.mem_map.mp hname
    have haccepts : sig.acceptsKeyword entry.1 = true := by
      simpa using List.find?_eq_none.mp hfind entry hentry
    obtain ⟨q, hq, hqname⟩ := List.any_eq_true.mp haccepts
    simp only [Bool.and_eq_true, decide_eq_true_eq] at hqname
    -- The names are distinct, so the parameter that accepts it is `p`.
    have hsame : q = p := Keyed.eq_of_key_eq sig.distinct hq hp (hqname.1.trans hentryname)
    rw [hsame] at hqname
    exact absurd hkind hqname.2

/-! ### Executions of recorded intents -/

/-- Take an intent that was recorded for a call, with a payload that JSON gives back. Every
invocation for it, live or on replay, gives the parameters the values of the call exactly when no
parameter is positional-only, and otherwise it does not even bind. -/
theorem invoked_binds_iff {ρ : Type} (cfg : Config (Arguments ν)) (es : List (Event (Arguments ν) ρ))
    (s : System (Arguments ν) ρ) (hrun : Run.exec (step cfg) {} es = some s) (id : IntentId)
    (operation text : String) (sig : FixedSignature ν) (args : List ν)
    (kwargs payload : Arguments ν) (hcall : sig.call args kwargs = .ok payload)
    (hdumps : cfg.codec.dumps payload = .ok text) (hround : ∀ text,
      cfg.codec.dumps payload = .ok text → cfg.codec.loads text = payload)
    (hrecorded : .recorded operation text ∈ s.store.history id)
    (passed : Arguments ν) (stored : Option IntentRow)
    (hinvoked : .invoked passed stored ∈ s.store.history id) :
    (sig.callByName passed = .ok payload ↔ ∀ p ∈ sig.parameters, p.kind ≠ .positionalOnly) ∧
    ((∃ values, sig.callByName passed = .ok values) ↔
      ∀ p ∈ sig.parameters, p.kind ≠ .positionalOnly) := by
  -- An invocation passes what the row of the intent holds, and the row holds what was recorded.
  have hpassed : passed = payload := by
    obtain ⟨row, -, hkept⟩ := kept_of_recorded hrun hrecorded
    rw [(hkept.invoked passed stored hinvoked).1, ← (hkept.recorded operation text hrecorded).2]
    exact hround text hdumps
  subst hpassed
  have hcomplete := complete_of_call hcall
  have hkind : (∃ values, sig.callByName passed = .ok values) →
      ∀ p ∈ sig.parameters, p.kind ≠ .positionalOnly := by
    rintro ⟨values, hvalues⟩ p hp hkind
    obtain ⟨e, he⟩ := callByName_of_positionalOnly hcomplete hp hkind
    rw [he] at hvalues
    cases hvalues
  exact ⟨⟨fun h => hkind ⟨_, h⟩, callByName_of_accepts hcomplete⟩,
    ⟨hkind, fun h => ⟨_, callByName_of_accepts hcomplete h⟩⟩⟩

/-- A runtime with one durable operation, whose payloads have one number. -/
def sendReading : Config (Arguments Nat) where
  codec := ⟨fun _ => .ok "[x]", fun _ => [("x", 7)]⟩
  component := "edge"
  registry operation := if operation = "send_reading" then some ⟨none, by simp⟩ else none

/-- `send_reading(7)`, up to the invocation. -/
def sentReading : List (Event (Arguments Nat) Unit) :=
  [.start, .ready, .call "a" "send_reading" [("x", 7)]] ++
    List.replicate 6 (.advance "a" ⟨"", .ok ()⟩)

theorem history_sentReading : ∃ s stored, Run.exec (step sendReading) {} sentReading = some s ∧
    s.store.history "a" = [.recorded "send_reading" "[x]", .invoked [("x", 7)] stored] := by
  have hrun : (Run.exec (step sendReading) {} sentReading).map (fun s => s.store.history "a")
      = some [.recorded "send_reading" "[x]", .invoked [("x", 7)]
          (some ⟨"a", "send_reading", "[x]", .inProgress, 1, none, "", ""⟩)] := by
    rfl
  obtain ⟨s, hs, hhistory⟩ := Option.map_eq_some_iff.mp hrun
  exact ⟨s, _, hs, hhistory⟩

/-- `def send_reading(x)`. -/
def byName : FixedSignature Nat where
  parameters := [⟨"x", .positionalOrKeyword, none⟩]
  distinct := by decide
  ordered := by decide
  fixed := by decide

/-- The call binds again as it was. -/
theorem invoked_binds_iff_sentReading : byName.callByName [("x", 7)] = .ok [("x", 7)] := by
  obtain ⟨s, stored, hs, hhistory⟩ := history_sentReading
  exact ((invoked_binds_iff sendReading sentReading s hs "a" "send_reading" "[x]" byName [7] []
    [("x", 7)] rfl rfl (fun _ _ => rfl) (by simp [hhistory]) _ stored (by simp [hhistory])).1).mpr
      (by decide)

/-- `def send_reading(x, /)`. -/
def positionalOnly : Signature Nat where
  parameters := [⟨"x", .positionalOnly, none⟩]
  distinct := by decide
  ordered := by decide

/-- The decorator accepts a positional-only parameter, the live call binds and is journaled, and
the invocation with its payload does not bind. -/
theorem positionalOnly_not_rebound : ∃ (sig : FixedSignature Nat) (s : System (Arguments Nat) Unit)
    (stored : Option IntentRow),
    rejectVariadicParameters id "send_reading" "send_reading" positionalOnly = .ok sig ∧
    sig.call [7] [] = .ok [("x", 7)] ∧ sendReading.codec.loads "[x]" = [("x", 7)] ∧
    Run.exec (step sendReading) {} sentReading = some s ∧
    s.store.history "a" = [.recorded "send_reading" "[x]", .invoked [("x", 7)] stored] ∧
    sig.callByName [("x", 7)] = .error (.missing "x") := by
  obtain ⟨s, stored, hs, hhistory⟩ := history_sentReading
  exact ⟨{ positionalOnly with fixed := by decide }, s, stored, rfl, rfl, rfl, hs, hhistory, rfl⟩

end EdgeSentinel.Proofs.Durability
