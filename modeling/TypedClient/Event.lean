import TypedClient.Registry

/-! What a run reports beside its result. -/
namespace TypedClient

inductive Level where
  | debug
  | info
  | warn
  deriving DecidableEq

inductive Event where
  | collision (clash : Collision)
  | discriminatorPinned (schema property variant : String)
  | nullTypeWidened (place : String)
  | typeUnrecognized (place kind : String)
  | componentsRegistered (count : Nat)
  | redirectIgnored (operation status : String)
  | placeholderUnmatched (operation placeholder : String)
  | methodSkipped (route method : String)
  | documentSynthesized (types operations collisions : Nat)
  | clientWritten (path : String) (types operations collisions : Nat) (flavor : String)
  deriving DecidableEq

namespace Event

def level : Event → Level
  | .collision _ | .typeUnrecognized .. | .placeholderUnmatched .. => .warn
  | .clientWritten .. => .info
  | _ => .debug

def message : Event → String
  | .collision clash => clash.message
  | .discriminatorPinned .. => "pinning discriminator value"
  | .nullTypeWidened _ => "bare null type synthesized as any"
  | .typeUnrecognized .. => "unrecognized schema type, using any"
  | .componentsRegistered _ => "component definitions registered"
  | .redirectIgnored .. => "ignoring 3xx response"
  | .placeholderUnmatched .. => "path placeholder has no matching parameter, assuming string"
  | .methodSkipped .. => "skipping unsupported method"
  | .documentSynthesized .. => "synthesis complete"
  | .clientWritten .. => "client generated"

def details : Event → List (String × String)
  | .collision _ => []
  | .discriminatorPinned schema property variant =>
    [("schema", schema), ("property", property), ("variant", variant)]
  | .nullTypeWidened place => [("schema", place)]
  | .typeUnrecognized place kind => [("schema", place), ("kind", kind)]
  | .componentsRegistered count => [("count", toString count)]
  | .redirectIgnored operation status => [("operation", operation), ("status", status)]
  | .placeholderUnmatched operation placeholder =>
    [("operation", operation), ("placeholder", placeholder)]
  | .methodSkipped route method => [("route", route), ("method", method)]
  | .documentSynthesized types operations collisions =>
    [("types", toString types), ("operations", toString operations),
      ("collisions", toString collisions)]
  | .clientWritten path types operations collisions flavor =>
    [("path", path), ("types", toString types), ("operations", toString operations),
      ("collisions", toString collisions), ("flavor", flavor)]

end Event

/-- The collision that an insertion reports, before it is made. -/
def Registry.reports (registry : Registry) (entry : Registration) : List Event :=
  (registry.collision? entry.definition.name entry.source).toList.map .collision

/-- A result with the events that led to it; a failure keeps the events before it. -/
structure Traced (ε α : Type) where
  events : List Event
  outcome : Except ε α

namespace Traced

variable {ε α β : Type}

def ofExcept (outcome : Except ε α) : Traced ε α :=
  ⟨[], outcome⟩

def report (event : Event) : Traced ε Unit :=
  ⟨[event], .ok ()⟩

instance : Monad (Traced ε) where
  pure x := ⟨[], .ok x⟩
  bind x f :=
    match x.outcome with
    | .error cause => ⟨x.events, .error cause⟩
    | .ok value => ⟨x.events ++ (f value).events, (f value).outcome⟩

instance : MonadLift (Except ε) (Traced ε) := ⟨ofExcept⟩

@[simp] theorem outcome_pure (x : α) : (pure x : Traced ε α).outcome = .ok x := rfl

@[simp] theorem outcome_ofExcept (x : Except ε α) : (ofExcept x).outcome = x := rfl

@[simp] theorem outcome_report (event : Event) : (report event : Traced ε Unit).outcome = .ok () :=
  rfl

@[simp] theorem outcome_bind (x : Traced ε α) (f : α → Traced ε β) :
    (x >>= f).outcome = x.outcome.bind fun value => (f value).outcome := by
  change (match x.outcome with
    | .error cause => (⟨x.events, .error cause⟩ : Traced ε β)
    | .ok value => ⟨x.events ++ (f value).events, (f value).outcome⟩).outcome = _
  cases x.outcome <;> rfl

end Traced
end TypedClient
