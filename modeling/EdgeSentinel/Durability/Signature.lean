import EdgeSentinel.Durability.Operations

/-!
# `EdgeSentinel.Durability.Signature`: the arguments of a durable call

A durable call binds its arguments to the parameters of its function and journals them by name.
An execution of the intent passes them all as keywords: `func(**intent.payload)`. Values are in
`ν`, and a payload is a dictionary in the order of its keys.

`bind` and `applyDefaults` are `inspect.Signature.bind` and `BoundArguments.apply_defaults`, for
a signature that `_reject_variadic_parameters` lets through. Calling a function binds its
arguments by the same rules.
-/

set_option autoImplicit false

namespace EdgeSentinel.Durability

/-- `inspect.Parameter.kind`. -/
inductive ParameterKind where
  | positionalOnly
  | positionalOrKeyword
  | varPositional
  | keywordOnly
  | varKeyword
  deriving DecidableEq, Repr

namespace ParameterKind

/-- Kinds come in this order in a signature. -/
def rank : ParameterKind → Nat
  | positionalOnly => 0
  | positionalOrKeyword => 1
  | varPositional => 2
  | keywordOnly => 3
  | varKeyword => 4

/-- `kind.description`. -/
def description : ParameterKind → String
  | positionalOnly => "positional-only"
  | positionalOrKeyword => "positional or keyword"
  | varPositional => "variadic positional"
  | keywordOnly => "keyword-only"
  | varKeyword => "variadic keyword"

/-- `*args` or `**kwargs`. -/
def isVariadic (kind : ParameterKind) : Bool := kind ∈ [varPositional, varKeyword]

end ParameterKind

/-- A parameter of a function. -/
structure Parameter (ν : Type) where
  name : String
  kind : ParameterKind
  default : Option ν

/-- `inspect.signature` of a function. -/
structure Signature (ν : Type) where
  parameters : List (Parameter ν)
  distinct : (parameters.map (·.name)).Nodup
  ordered : parameters.Pairwise fun p p' => p.kind.rank ≤ p'.kind.rank

/-- The signature of a function that may be decorated. -/
structure FixedSignature (ν : Type) extends Signature ν where
  fixed : ∀ p ∈ parameters, p.kind.isVariadic = false

/-- A dictionary of arguments. -/
abbrev Arguments (ν : Type) : Type := List (String × ν)

/-- The `TypeError` of a call whose arguments do not bind. -/
inductive BindError where
  | tooManyPositional
  | multipleValues (name : String)
  | missing (name : String)
  | positionalOnlyAsKeyword (name : String)
  | unexpectedKeyword (name : String)
  deriving DecidableEq, Repr

variable {ν : Type}

/-- `_reject_variadic_parameters`, with the message of its `InvalidDurablePayloadError`. `repr` is
the `repr` of strings, and `function` the function's `__name__`. -/
def rejectVariadicParameters (repr : String → String) (operation function : String)
    (sig : Signature ν) : Except String (FixedSignature ν) :=
  match h : sig.parameters.find? (·.kind.isVariadic) with
  | some param =>
    .error (s!"durable operation {repr operation}: function {repr function} must not "
      ++ "declare *args or **kwargs -- every parameter needs a fixed name so its "
      ++ "bound arguments can be journaled and replayed by name (found "
      ++ s!"{param.kind.description} parameter {repr param.name})")
  | none => .ok { sig with fixed := by simpa using h }

namespace FixedSignature

/-- Binding from a parameter on: the positional arguments that are left go to the parameters in
their order, and the keywords to the others. -/
def bindFrom (kwargs : Arguments ν) :
    List (Parameter ν) → List ν → Except BindError (Arguments ν)
  | [], [] => .ok []
  | [], _ :: _ => .error .tooManyPositional
  | p :: ps, arg :: args =>
    if p.kind = .keywordOnly then .error .tooManyPositional
    else if p.kind ≠ .positionalOnly ∧ (kwargs.lookup p.name).isSome then
      .error (.multipleValues p.name)
    else do
      let rest ← bindFrom kwargs ps args
      return (p.name, arg) :: rest
  | p :: ps, [] =>
    -- A positional-only parameter takes nothing from the keywords.
    match if p.kind = .positionalOnly then none else kwargs.lookup p.name with
    | some arg => do
      let rest ← bindFrom kwargs ps []
      return (p.name, arg) :: rest
    | none => if p.default.isSome then bindFrom kwargs ps [] else .error (.missing p.name)

variable (sig : FixedSignature ν)

/-- A parameter that may be passed by keyword has the name. -/
def acceptsKeyword (name : String) : Bool :=
  sig.parameters.any fun p => p.name = name && p.kind ≠ .positionalOnly

/-- `signature.bind(*args, **kwargs)`. -/
def bind (args : List ν) (kwargs : Arguments ν) : Except BindError (Arguments ν) := do
  let bound ← bindFrom kwargs sig.parameters args
  match kwargs.find? fun entry => !sig.acceptsKeyword entry.1 with
  | none => return bound
  | some (name, _) =>
    if name ∈ sig.parameters.map (·.name) then .error (.positionalOnlyAsKeyword name)
    else .error (.unexpectedKeyword name)

/-- `bound.apply_defaults()`. -/
def applyDefaults (bound : Arguments ν) : Arguments ν :=
  sig.parameters.filterMap fun p =>
    match bound.lookup p.name with
    | some value => some (p.name, value)
    | none => p.default.map fun value => (p.name, value)

/-- The values that the parameters have in a call. They are also what `wrapper` journals for the
call: `dict(bound.arguments)`. -/
def call (args : List ν) (kwargs : Arguments ν) : Except BindError (Arguments ν) := do
  let bound ← sig.bind args kwargs
  return sig.applyDefaults bound

/-- `func(**payload)`: the values that the parameters have when the intent is executed. -/
def callByName (payload : Arguments ν) : Except BindError (Arguments ν) := sig.call [] payload

end FixedSignature

end EdgeSentinel.Durability
