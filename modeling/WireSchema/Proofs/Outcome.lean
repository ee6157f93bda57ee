import WireSchema.Traced

/-!
# Steps that may fail

A computation that succeeds has succeeded at every step, and the proofs take it apart with these
statements, one step at a time. How it can fail is put together in the same way: `FailsOnly P` says
that all errors of a computation satisfy `P`, and it holds of a computation when it holds of the
steps. Both are about outcomes, so that events never matter.

`InPlace` is for callers that hold a state in place and change it bit by bit: a failure must not
leave half of a change behind.
-/

namespace WireSchema

namespace Outcome

variable {ε α β : Type}

/-! ## Success -/

theorem ok_bind (a : α) (f : α → Except ε β) : (Except.ok a >>= f) = f a := rfl

theorem bind_eq_ok {x : Except ε α} {f : α → Except ε β} {b : β} :
    (x >>= f) = .ok b ↔ ∃ a, x = .ok a ∧ f a = .ok b := by
  cases x with
  | error e =>
    constructor
    · intro h
      cases h
    · rintro ⟨_, h, _⟩
      cases h
  | ok a =>
    constructor
    · intro h
      exact ⟨a, rfl, h⟩
    · rintro ⟨_, h, hf⟩
      cases h
      exact hf

/-- A check that was passed. -/
theorem check_eq_ok {c : Prop} [Decidable c] {e : ε} {next : PUnit → Except ε α} {a : α} :
    (if c then throw e >>= next else next ⟨⟩) = .ok a ↔ ¬c ∧ next ⟨⟩ = .ok a := by
  by_cases hc : c
  · rw [if_pos hc]
    constructor
    · intro h
      cases h
    · intro h
      exact absurd hc h.1
  · rw [if_neg hc]
    exact ⟨fun h => ⟨hc, h⟩, fun h => h.2⟩

theorem mapM_cons_eq_ok {f : α → Except ε β} {a : α} {items : List α} {results : List β} :
    (a :: items).mapM f = .ok results ↔
      ∃ b rest, f a = .ok b ∧ items.mapM f = .ok rest ∧ results = b :: rest := by
  rw [List.mapM_cons]
  constructor
  · intro h
    obtain ⟨b, hb, h⟩ := bind_eq_ok.1 h
    obtain ⟨rest, hrest, h⟩ := bind_eq_ok.1 h
    cases h
    exact ⟨b, rest, hb, hrest, rfl⟩
  · rintro ⟨b, rest, hb, hrest, rfl⟩
    exact bind_eq_ok.2 ⟨b, hb, bind_eq_ok.2 ⟨rest, hrest, rfl⟩⟩

theorem mapError_eq_ok {δ : Type} {g : δ → ε} {x : Except δ α} {a : α} :
    x.mapError g = .ok a ↔ x = .ok a := by
  cases x with
  | error e =>
    constructor
    · intro h
      cases h
    · intro h
      cases h
  | ok b =>
    constructor
    · intro h
      cases h
      rfl
    · intro h
      cases h
      rfl

theorem of_toOption {x : Except ε α} {a : α} (h : x.toOption = some a) : x = .ok a := by
  cases x with
  | error e => cases h
  | ok b =>
    cases h
    rfl

/-! ## Failure -/

def FailsOnly (P : ε → Prop) (x : Except ε α) : Prop := ∀ e, x = .error e → P e

variable {P : ε → Prop}

theorem failsOnly_ok (a : α) : FailsOnly P (.ok a) := nofun

theorem failsOnly_error {e : ε} (h : P e) : FailsOnly P (.error e : Except ε α) := by
  rintro _ ⟨⟩
  exact h

theorem failsOnly_mapError {δ : Type} {g : δ → ε} (h : ∀ e, P (g e)) (x : Except δ α) :
    FailsOnly P (x.mapError g) := by
  cases x with
  | ok a => exact failsOnly_ok a
  | error e => exact failsOnly_error (h e)

theorem FailsOnly.bind {x : Except ε α} {f : α → Except ε β} (hx : FailsOnly P x)
    (hf : ∀ a, FailsOnly P (f a)) : FailsOnly P (x >>= f) := by
  cases x with
  | error e => exact failsOnly_error (hx e rfl)
  | ok a => exact hf a

theorem FailsOnly.check {c : Prop} [Decidable c] {e : ε} {next : PUnit → Except ε α} (he : P e)
    (h : FailsOnly P (next ⟨⟩)) : FailsOnly P (if c then throw e >>= next else next ⟨⟩) := by
  by_cases hc : c
  · rw [if_pos hc]
    exact failsOnly_error he
  · rwa [if_neg hc]

theorem FailsOnly.mapM {f : α → Except ε β} (h : ∀ a, FailsOnly P (f a)) (items : List α) :
    FailsOnly P (items.mapM f) := by
  induction items with
  | nil => exact failsOnly_ok []
  | cons a items ih =>
    rw [List.mapM_cons]
    exact (h a).bind fun b => ih.bind fun bs => failsOnly_ok (b :: bs)

theorem FailsOnly.foldlM {f : β → α → Except ε β} {items : List α}
    (h : ∀ b, ∀ a ∈ items, FailsOnly P (f b a)) (b : β) : FailsOnly P (items.foldlM f b) := by
  induction items generalizing b with
  | nil => exact failsOnly_ok b
  | cons a items ih =>
    rw [List.foldlM_cons]
    exact (h b a List.mem_cons_self).bind fun next =>
      ih (fun b a ha => h b a (List.mem_cons_of_mem _ ha)) next

/-! ## Changes in place -/

theorem get_bind {σ : Type} (f : σ → EStateM ε σ α) (s : σ) : (get >>= f) s = f s s := rfl

theorem ofExcept_ok_bind {σ : Type} (a : α) (f : α → EStateM ε σ β) (s : σ) :
    (MonadExcept.ofExcept (Except.ok a : Except ε α) >>= f) s = f a s := rfl

/-- `action` does in place what `attempt` does to a copy. Where the attempt fails, so does the
action, and it leaves the state as it found it. -/
def InPlace {σ : Type} (action : EStateM ε σ α) (attempt : σ → Except ε (α × σ)) : Prop :=
  ∀ s, action s = match attempt s with
    | .ok (a, next) => .ok a next
    | .error e => .error e s

/-- A refused action leaves no trace. -/
theorem InPlace.unchanged {σ : Type} {action : EStateM ε σ α} {attempt : σ → Except ε (α × σ)}
    (h : InPlace action attempt) {s next : σ} {e : ε} (herror : action s = .error e next) :
    next = s := by
  rw [h s] at herror
  split at herror <;> cases herror
  rfl

end Outcome

/-! ## Outcomes of traced computations -/

namespace Traced

variable {ε α β : Type}

theorem bind_eq_ok {x : Traced ε α} {f : α → Traced ε β} {b : β} :
    (x >>= f).outcome = .ok b ↔ ∃ a, x.outcome = .ok a ∧ (f a).outcome = .ok b := by
  rw [outcome_bind, Outcome.bind_eq_ok]

theorem failsOnly_bind {P : ε → Prop} {x : Traced ε α} {f : α → Traced ε β}
    (hx : Outcome.FailsOnly P x.outcome) (hf : ∀ a, Outcome.FailsOnly P (f a).outcome) :
    Outcome.FailsOnly P (x >>= f).outcome := by
  rw [outcome_bind]
  exact hx.bind hf

theorem outcome_foldlM (f : β → α → Traced ε β) (b : β) (items : List α) :
    (items.foldlM f b).outcome = items.foldlM (fun b a => (f b a).outcome) b := by
  induction items generalizing b with
  | nil => rfl
  | cons a items ih =>
    rw [List.foldlM_cons, List.foldlM_cons, outcome_bind]
    simp only [ih]

end Traced

end WireSchema
