import Mathlib.Logic.Function.Basic
import EdgeSentinel.Resilience.Reliable

/-!
# `EdgeSentinel.Resilience.Decorators`: the decorated functions of a program

`buildReliableDecorator` is `build_reliable_decorator` of `resilience/policy.py`, and `decorate`
is the `decorator` that it returns. A breaker is an object: a `BreakerId` says where it was
constructed. The decorator values of a `Program` are numbered by the calls of `reliable`.

A `Process` is the program with its breakers while calls are made. A call arrives, and when it is
admitted it ends some time later. Calls overlap as they like. `Proofs.Resilience.Isolation` shows
that these are the two steps of a `wrapper` whose events can be reported.
-/

set_option autoImplicit false

namespace EdgeSentinel.Resilience

open Async

/-- The argument `circuit_breaker`. -/
inductive BreakerArgument where
  /-- `False`. -/
  | off
  /-- `True`. -/
  | on
  /-- An existing `CircuitBreaker`. -/
  | given (object : Nat)
  deriving DecidableEq, Repr

/-- A breaker object: the one that a call of `reliable` constructs, or an existing one. -/
inductive BreakerId where
  | made (build : Nat)
  | given (object : Nat)
  deriving DecidableEq, Repr

/-- The arguments of `build_reliable_decorator`. `retry` is the policy that is given, or the one
that is made of the shorthand parameters. -/
structure ReliableArguments (ε : Type) where
  retry : RetryPolicy (ResilienceError ε)
  circuitBreaker : BreakerArgument
  name : Option String
  hasEvents : Bool
  component : String

/-- `name or default`. -/
def nameOr (name : Option String) (default : String) : String :=
  match name with
  | none => default
  | some name => if name = "" then default else name

/-- The parameters of a breaker without a store. -/
abbrev StorelessSettings : Type := {cfg : Settings // cfg.hasStore = false}

/-- `CircuitBreaker(name=name)`. -/
def defaultSettings (name : String) : StorelessSettings :=
  ⟨⟨5, 60, name, false, by norm_num, by norm_num⟩, rfl⟩

/-- A value of `build_reliable_decorator`: the arguments and the breaker that it holds. -/
structure Decorator (ε : Type) where
  arguments : ReliableArguments ε
  breaker : Option (BreakerId × StorelessSettings)

/-- `build_reliable_decorator`, called for the `build`-th time. `objects` are the parameters of
the existing breakers. -/
def buildReliableDecorator {ε : Type} (objects : Nat → StorelessSettings) (build : Nat)
    (arguments : ReliableArguments ε) : Decorator ε where
  arguments := arguments
  breaker :=
    match arguments.circuitBreaker with
    | .on => some (.made build, defaultSettings (nameOr arguments.name "reliable"))
    | .given object => some (.given object, objects object)
    | .off => none

/-- `decorator`, applied to a function of this name. -/
def Decorator.decorate {ε : Type} (d : Decorator ε) (func : String) : ReliableSettings ε where
  opName := nameOr d.arguments.name func
  component := d.arguments.component
  hasEvents := d.arguments.hasEvents
  retry := d.arguments.retry
  breaker := d.breaker.map fun b => b.2.1
  no_store := by
    intro cfg hcfg
    obtain ⟨b, -, rfl⟩ := Option.map_eq_some_iff.mp hcfg
    exact b.2.2

/-- The decorated functions of a program. -/
structure Program (F ε : Type) where
  /-- The calls of `reliable`, one decorator value each. -/
  builds : Nat → ReliableArguments ε
  objects : Nat → StorelessSettings
  /-- The decorator value that is applied to a function. -/
  decoratedBy : F → Nat
  /-- `func.__name__`. -/
  funcName : F → String

/-- The breakers, and for each function its calls that have been admitted and have not ended. -/
structure Process (F : Type) where
  breakers : BreakerId → CircuitBreaker
  inFlight : F → List Nat

/-- What happens next. The outcome is that of the attempts of the call. -/
inductive CallStep (F ε α : Type) where
  | arrive (func : F) (call : Nat) (monotonic : ℚ)
  | finish (func : F) (call : Nat) (outcome : Outcome (ResilienceError ε) α)
      (monotonic wallclock : ℚ)

def CallStep.func {F ε α : Type} : CallStep F ε α → F
  | .arrive func _ _ => func
  | .finish func _ _ _ _ => func

/-- What a caller sees of its call. -/
inductive Seen (ε α : Type) where
  | admitted (call : Nat)
  | rejected (call : Nat) (error : CircuitBreakerOpenError)
  | ended (call : Nat) (outcome : Outcome (ResilienceError ε) α)
  deriving DecidableEq

/-- The process before any call. The existing breakers may have been used before. -/
def Process.start {F : Type} (used : Nat → CircuitBreaker) : Process F where
  breakers
    | .made _ => .fresh
    | .given object => used object
  inFlight := fun _ => []

namespace Program

variable {F ε α : Type} [DecidableEq F] (p : Program F ε) (s : Process F)

/-- The arguments of the decorator of a function. -/
def argumentsOf (func : F) : ReliableArguments ε := p.builds (p.decoratedBy func)

/-- The decorator of a function. -/
def decorator (func : F) : Decorator ε :=
  buildReliableDecorator p.objects (p.decoratedBy func) (p.argumentsOf func)

/-- The wrapper of a function. -/
def wrapperOf (func : F) : ReliableSettings ε := (p.decorator func).decorate (p.funcName func)

/-- The breaker object that the wrapper of a function holds. -/
def breakerOf (func : F) : Option BreakerId := (p.decorator func).breaker.map (·.1)

/-- The breaker as a call of the function finds it. Without a breaker it does not matter. -/
def breaker (func : F) : CircuitBreaker := (p.breakerOf func).elim .fresh s.breakers

/-- The breaker as a call of the function leaves it. -/
def keep (func : F) (cb : CircuitBreaker) : Process F :=
  match p.breakerOf func with
  | none => s
  | some id => { s with breakers := Function.update s.breakers id cb }

/-- What a step does. The end of a call that was not admitted is none. -/
def next : CallStep F ε α → Process F
  | .arrive func call monotonic =>
    match (p.wrapperOf func).admission monotonic (p.breaker s func) with
    | .ok cb =>
      { p.keep s func cb with
        inFlight := Function.update s.inFlight func (call :: s.inFlight func) }
    | .error _ => s
  | .finish func call outcome monotonic wallclock =>
    if call ∈ s.inFlight func then
      { p.keep s func
          ((p.wrapperOf func).recorded monotonic wallclock (p.breaker s func) outcome) with
        inFlight := Function.update s.inFlight func ((s.inFlight func).erase call) }
    else s

/-- What the caller sees of a step. -/
def seen : CallStep F ε α → List (Seen ε α)
  | .arrive func call monotonic =>
    match (p.wrapperOf func).admission monotonic (p.breaker s func) with
    | .ok _ => [.admitted call]
    | .error e => [.rejected call e]
  | .finish func call outcome _ _ => if call ∈ s.inFlight func then [.ended call outcome] else []

/-- What the callers of a function see of a step. -/
def seenBy (func : F) (step : CallStep F ε α) : List (Seen ε α) :=
  if step.func = func then p.seen s step else []

end Program

end EdgeSentinel.Resilience
