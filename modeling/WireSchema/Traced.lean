import WireSchema.Event

/-!
# Computations that report events

A traced computation gives an outcome and the events that it reported on the way, also when it
fails. The outcome never depends on the events, which is what `outcome_bind` says.
-/

namespace WireSchema

/-- Events and an outcome. -/
structure Traced (ε α : Type) where
  events : List Event
  outcome : Except ε α

namespace Traced

variable {ε α β : Type}

/-- A computation that reports nothing. -/
def ofExcept (outcome : Except ε α) : Traced ε α := ⟨[], outcome⟩

/-- Reports one event. -/
def log (e : Event) : Traced ε Unit := ⟨[e], .ok ()⟩

/-- Reports one event when `b` holds. -/
def logIf (b : Bool) (e : Event) : Traced ε Unit := ⟨if b then [e] else [], .ok ()⟩

def fail (error : ε) : Traced ε α := ⟨[], .error error⟩

/-- Runs `f` on the result of `x`; the events of `x` come first. -/
def bind (x : Traced ε α) (f : α → Traced ε β) : Traced ε β :=
  match x.outcome with
  | .error error => ⟨x.events, .error error⟩
  | .ok a => ⟨x.events ++ (f a).events, (f a).outcome⟩

instance : Monad (Traced ε) where
  pure a := ⟨[], .ok a⟩
  bind := bind

instance : MonadLift (Except ε) (Traced ε) := ⟨ofExcept⟩

@[simp] theorem outcome_pure (a : α) : (pure a : Traced ε α).outcome = .ok a := rfl

@[simp] theorem outcome_ofExcept (x : Except ε α) : (ofExcept x).outcome = x := rfl

@[simp] theorem outcome_log (e : Event) : (log e : Traced ε Unit).outcome = .ok () := rfl

@[simp] theorem outcome_logIf (b : Bool) (e : Event) :
    (logIf b e : Traced ε Unit).outcome = .ok () := rfl

@[simp] theorem outcome_fail (error : ε) : (fail error : Traced ε α).outcome = .error error := rfl

@[simp] theorem outcome_bind (x : Traced ε α) (f : α → Traced ε β) :
    (x >>= f).outcome = x.outcome >>= fun a => (f a).outcome := by
  show (Traced.bind x f).outcome = _
  unfold Traced.bind
  cases x.outcome <;> rfl

end Traced

end WireSchema
