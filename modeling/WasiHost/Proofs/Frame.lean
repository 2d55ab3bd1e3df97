import WasiHost.Error

/-!
# Frames of computations that may fail

Accesses to guest memory and bodies of host calls are computations that work on a state and may fail
on the way, keeping what they did before. What is said of them below is handed on by sequencing, so
it is proved of a body by following its steps:

* **`Keeps`** — a part of the state is the same afterwards, however the computation ends.
* **`FailsClean`** — a part of the state is the same afterwards if the computation fails. A
  computation that first does what can fail and then what cannot be undone has this property:
  `Keeps.bind_failsClean`.
* **`Respects`** — on related states the computation ends alike, in related states.
* **`Sequential`**, **`LeadsTo`** — what it takes of a property to be proved so. The steps of a body
  are then followed once, for all such properties, and not once for each.
-/

namespace WasiHost

variable {ε σ α β γ : Type} {s s' : σ}

/-- The state a computation ends in, however it ends. -/
def endState : EStateM.Result ε σ α → σ
  | .ok _ s => s
  | .error _ s => s

/-! ## Taking a sequence apart

A computation ends with a value or an error and with a state in either case. What a sequence does is
said by the ends of its two parts; the equations `bind_of_ok` and `bind_of_error` serve to run one
forwards, the equivalences to read one backwards. -/

/-- A sequence `x >>= f` succeeds exactly if `x` does and then `f` does, from where `x` ended. -/
theorem bind_eq_ok_iff {x : EStateM ε σ α} {f : α → EStateM ε σ β} {b : β} :
    (x >>= f) s = .ok b s' ↔ ∃ a t, x s = .ok a t ∧ f a t = .ok b s' := by
  change EStateM.bind x f s = _ ↔ _
  unfold EStateM.bind
  cases hx : x s with
  | ok a t =>
    constructor
    · intro h
      exact ⟨a, t, rfl, h⟩
    · rintro ⟨_, _, heq, h⟩
      cases heq
      exact h
  | error e t => simp

/-- A sequence fails in its first part, or in its second after `bind_eq_ok_iff` has let the first
one through. -/
theorem bind_eq_error_iff {x : EStateM ε σ α} {f : α → EStateM ε σ β} {e : ε} :
    (x >>= f) s = .error e s' ↔
      x s = .error e s' ∨ ∃ a t, x s = .ok a t ∧ f a t = .error e s' := by
  change EStateM.bind x f s = _ ↔ _
  unfold EStateM.bind
  cases hx : x s with
  | ok a t =>
    constructor
    · intro h
      exact .inr ⟨a, t, rfl, h⟩
    · rintro (heq | ⟨_, _, heq, h⟩)
      · cases heq
      · cases heq
        exact h
  | error e t => simp

/-- The half of `bind_eq_ok_iff` for rewriting: after a success the sequence is the rest of it. -/
theorem bind_of_ok {x : EStateM ε σ α} {f : α → EStateM ε σ β} {a : α} (h : x s = .ok a s') :
    (x >>= f) s = f a s' := by
  change EStateM.bind x f s = _
  rw [EStateM.bind, h]

/-- After a failure nothing follows: the rest of a `>>=` is not even looked at. -/
theorem bind_of_error {x : EStateM ε σ α} {f : α → EStateM ε σ β} {e : ε}
    (h : x s = .error e s') : (x >>= f) s = .error e s' := by
  change EStateM.bind x f s = _
  rw [EStateM.bind, h]

/-- A sequence that begins with `get` goes on with the state it asks for. -/
theorem bind_get (f : σ → EStateM ε σ β) : (get >>= f) s = f s s := rfl

/-- A sequence that begins with `set` goes on from the new state. -/
theorem bind_set (f : PUnit → EStateM ε σ β) : (set s' >>= f) s = f ⟨⟩ s' := rfl

/-- Two sequences end alike if they begin alike, and go on alike from where their first parts
succeed. -/
theorem bind_congr_of_ok {x x' : EStateM ε σ α} {f f' : α → EStateM ε σ β} (hx : x s = x' s)
    (hf : ∀ a t, x s = .ok a t → f a t = f' a t) : (x >>= f) s = (x' >>= f') s := by
  cases h : x s with
  | ok a t =>
    rw [bind_of_ok h, bind_of_ok (hx.symm.trans h)]
    exact hf a t h
  | error e t => rw [bind_of_error h, bind_of_error (hx.symm.trans h)]

/-- Outcomes that are the same under a function fail alike, or succeed with the same under it. -/
theorem cases_of_map_eq_map {x x' : Except ε α} {f : α → β} (h : x.map f = x'.map f) :
    (∃ e, x = .error e ∧ x' = .error e) ∨ ∃ a a', x = .ok a ∧ x' = .ok a' ∧ f a = f a' := by
  cases x with
  | error e =>
    cases x' with
    | error e' =>
      cases h
      exact .inl ⟨e, rfl, rfl⟩
    | ok a' => cases h
  | ok a =>
    cases x' with
    | error e' => cases h
    | ok a' => exact .inr ⟨a, a', rfl, rfl, Except.ok.inj h⟩

/-! ## Parts of the state that stay

A part of the state is given by a function `part`, so that one notion serves for the whole state
(`id`), for guest memory and for what is left of it. Parts are made coarser by `Keeps.map`. -/

/-- The part of the state is the same afterwards, however the computation ends. -/
def Keeps (part : σ → γ) (x : EStateM ε σ α) : Prop :=
  ∀ s, part (endState (x s)) = part s

/-- The part of the state is the same afterwards if the computation fails. -/
def FailsClean (part : σ → γ) (x : EStateM ε σ α) : Prop :=
  ∀ s e s', x s = .error e s' → part s' = part s

section

variable {part : σ → γ}

/-- What `Keeps` says of a computation that has succeeded. -/
theorem Keeps.ok {x : EStateM ε σ α} (h : Keeps part x) {a : α} (hx : x s = .ok a s') :
    part s' = part s := by
  have := h s
  rwa [hx] at this

/-- What `Keeps` says of one that has failed, which is `FailsClean`. -/
theorem Keeps.failsClean {x : EStateM ε σ α} (h : Keeps part x) : FailsClean part x := by
  intro s e s' hx
  have := h s
  rwa [hx] at this

/-- What keeps a state keeps each part of it: `Keeps part` is weakest where `part` tells least. -/
theorem Keeps.map {δ : Type} {x : EStateM ε σ α} (h : Keeps part x) (g : γ → δ) :
    Keeps (fun s => g (part s)) x := by
  intro s
  exact congrArg g (h s)

/-- The same for a computation that is clean only when it fails: see `Keeps.map`. -/
theorem FailsClean.map {δ : Type} {x : EStateM ε σ α} (h : FailsClean part x) (g : γ → δ) :
    FailsClean (fun s => g (part s)) x := by
  intro s e s' hx
  exact congrArg g (h s e s' hx)

theorem keeps_pure (a : α) : Keeps part (pure a : EStateM ε σ α) :=
  fun _ => rfl

theorem keeps_throw (e : ε) : Keeps part (throw e : EStateM ε σ α) :=
  fun _ => rfl

/-- `Keeps` is handed on by a sequence: each step leaves the part as the one before has left it. -/
theorem Keeps.bind {x : EStateM ε σ α} {f : α → EStateM ε σ β} (hx : Keeps part x)
    (hf : ∀ a, Keeps part (f a)) : Keeps part (x >>= f) := by
  intro s
  cases h : x s with
  | ok a t =>
    rw [bind_of_ok h, hf a t]
    exact hx.ok h
  | error e t =>
    rw [bind_of_error h]
    exact hx.failsClean s e t h

/-- After `Keeps`, `FailsClean` need only hold of what comes next. -/
theorem Keeps.bind_failsClean {x : EStateM ε σ α} {f : α → EStateM ε σ β} (hx : Keeps part x)
    (hf : ∀ a, FailsClean part (f a)) : FailsClean part (x >>= f) := by
  intro s e s' h
  -- a failure of the first step is one of `Keeps`; one of the second begins where `hx` has ended
  rcases bind_eq_error_iff.mp h with h | ⟨a, t, ha, h⟩
  · exact hx.failsClean s e s' h
  · rw [hf a t e s' h]
    exact hx.ok ha

end

/-! ## Related states

Two runs of one computation are compared by a relation that holds of the states they begin in. They
must return the same value or fail the same way; only the states may differ, within the relation. -/

/-- Two computations have ended alike, in related states. -/
inductive SameEnd (R : σ → σ → Prop) : EStateM.Result ε σ α → EStateM.Result ε σ α → Prop where
  | ok (a : α) {s s' : σ} (h : R s s') : SameEnd R (.ok a s) (.ok a s')
  | error (e : ε) {s s' : σ} (h : R s s') : SameEnd R (.error e s) (.error e s')

/-- If `SameEnd` relates two results, it relates the states they ended in. -/
theorem SameEnd.endState {R : σ → σ → Prop} {r r' : EStateM.Result ε σ α} (h : SameEnd R r r') :
    R (endState r) (endState r') := by
  cases h with
  | ok _ h => exact h
  | error _ h => exact h

/-- On related states the computation ends alike, in related states. -/
def Respects (R : σ → σ → Prop) (x : EStateM ε σ α) : Prop :=
  ∀ s s', R s s' → SameEnd R (x s) (x s')

section

variable {R : σ → σ → Prop}

theorem respects_pure (a : α) : Respects R (pure a : EStateM ε σ α) :=
  fun _ _ h => .ok a h

theorem respects_throw (e : ε) : Respects R (throw e : EStateM ε σ α) :=
  fun _ _ h => .error e h

/-- From two states on: what comes next need only end alike where the first step has succeeded on
both. -/
theorem SameEnd.bind {x : EStateM ε σ α} {f : α → EStateM ε σ β} (hx : SameEnd R (x s) (x s'))
    (hf : ∀ a t t', x s = .ok a t → x s' = .ok a t' → R t t' → SameEnd R (f a t) (f a t')) :
    SameEnd R ((x >>= f) s) ((x >>= f) s') := by
  -- the ends of the two runs of the first step are matched, and `SameEnd` excludes the mixed cases
  cases hs : x s with
  | ok a t =>
    rw [hs] at hx
    rw [bind_of_ok hs]
    cases hs' : x s' with
    | ok a' t' =>
      rw [hs'] at hx
      rw [bind_of_ok hs']
      cases hx with
      | ok _ ht => exact hf a t t' hs hs' ht
    | error e t' =>
      rw [hs'] at hx
      cases hx
  | error e t =>
    rw [hs] at hx
    rw [bind_of_error hs]
    cases hs' : x s' with
    | ok a' t' =>
      rw [hs'] at hx
      cases hx
    | error e' t' =>
      rw [hs'] at hx
      rw [bind_of_error hs']
      cases hx with
      | error _ ht => exact .error e ht

/-- `Respects` is handed on by a sequence. The case of `SameEnd.bind` in which nothing has to be
remembered of the first step. -/
theorem Respects.bind {x : EStateM ε σ α} {f : α → EStateM ε σ β} (hx : Respects R x)
    (hf : ∀ a, Respects R (f a)) : Respects R (x >>= f) :=
  fun s s' h => (hx s s' h).bind fun a t t' _ _ ht => hf a t t' ht

end

/-! ## Properties that sequences hand on

A property that `pure` and a refusal have, and that `>>=` hands on, is proved of any body by looking
at its steps. Often less is known of the steps: all but the last only look, which is a property `Q`
of its own, and what the last one does is told by `P`. Then `LeadsTo Q P` is what it takes. -/

/-- A property that computations have which do nothing or refuse at once, and that a sequence has if
its parts do. -/
structure Sequential (P : ∀ {α : Type}, EStateM CallError σ α → Prop) : Prop where
  pure : ∀ {α : Type} (a : α), P (Pure.pure a : EStateM CallError σ α)
  refuse : ∀ {α : Type} (errno : ErrNo), P (throw (.guest errno) : EStateM CallError σ α)
  bind : ∀ {α β : Type} {x : EStateM CallError σ α} {f : α → EStateM CallError σ β},
    P x → (∀ a, P (f a)) → P (x >>= f)

/-- Steps that have `Q` may come before one that has `P`, and the whole has `P`. -/
structure LeadsTo (Q P : ∀ {α : Type}, EStateM CallError σ α → Prop) : Prop where
  sequential : Sequential Q
  refuse : ∀ {α : Type} (errno : ErrNo), P (throw (.guest errno) : EStateM CallError σ α)
  bind : ∀ {α β : Type} {x : EStateM CallError σ α} {f : α → EStateM CallError σ β},
    Q x → (∀ a, P (f a)) → P (x >>= f)

/-- A `Sequential` property needs no second one: its own steps may come before the last. -/
theorem Sequential.leadsTo {P : ∀ {α : Type}, EStateM CallError σ α → Prop} (h : Sequential P) :
    LeadsTo P P :=
  ⟨h, h.refuse, h.bind⟩

/-- To show that a body keeps a part of the state it is enough that each step does, whatever `part`
is. -/
theorem Keeps.sequential (part : σ → γ) : Sequential (Keeps part) where
  pure := keeps_pure
  refuse _ := keeps_throw _
  bind hx hf := hx.bind hf

/-- The rule of `FailsClean`: steps with `Keeps` may come before a last step that fails clean. -/
theorem FailsClean.leadsTo (part : σ → γ) : LeadsTo (Keeps part) (FailsClean part) where
  sequential := Keeps.sequential part
  refuse _ := (keeps_throw _).failsClean
  bind hx hf := hx.bind_failsClean hf

/-- The rule of `Respects`: two runs of a body are compared step by step, whatever the relation
is. -/
theorem Respects.sequential (R : σ → σ → Prop) : Sequential (Respects R) where
  pure := respects_pure
  refuse _ := respects_throw _
  bind hx hf := hx.bind hf

end WasiHost
