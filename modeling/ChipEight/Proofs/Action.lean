/-!
# Actions in two parts

An action changes a state and may be stopped by an error. What an action in two parts does follows
from what its parts do; the proofs about machines, emulators and sessions take their actions apart
with these lemmas and never open the monad.
-/

namespace ChipEight

variable {ε σ α β : Type} {action : EStateM ε σ α} {next : α → EStateM ε σ β} {s s' : σ}

theorem bind_of_ok {a : α} (h : action s = .ok a s') : (action >>= next) s = next a s' := by
  show EStateM.bind action next s = _
  rw [EStateM.bind, h]

theorem bind_of_error {error : ε} (h : action s = .error error s') :
    (action >>= next) s = .error error s' := by
  show EStateM.bind action next s = _
  rw [EStateM.bind, h]

/-- Only what its first part does matters to an action. -/
theorem bind_of_eq {other : EStateM ε σ α} {t : σ} (h : action s = other t) :
    (action >>= next) s = (other >>= next) t := by
  show EStateM.bind action next s = EStateM.bind other next t
  rw [EStateM.bind, EStateM.bind, h]

theorem get_bind (next : σ → EStateM ε σ β) : ((get : EStateM ε σ σ) >>= next) s = next s s := rfl

/-- An action ends with a result if both of its parts do. -/
theorem bind_eq_ok {b : β} :
    (action >>= next) s = .ok b s' ↔
      ∃ a middle, action s = .ok a middle ∧ next a middle = .ok b s' := by
  cases h : action s with
  | ok a middle =>
    rw [bind_of_ok h]
    constructor
    · exact fun hnext => ⟨a, middle, rfl, hnext⟩
    · rintro ⟨_, _, hfirst, hnext⟩
      cases hfirst
      exact hnext
  | error error middle =>
    rw [bind_of_error h]
    constructor
    · intro hok
      cases hok
    · rintro ⟨_, _, hfirst, -⟩
      cases hfirst

/-- An action is stopped in its first part, or in its second after the first ended. -/
theorem bind_eq_error {error : ε} :
    (action >>= next) s = .error error s' ↔
      action s = .error error s' ∨
        ∃ a middle, action s = .ok a middle ∧ next a middle = .error error s' := by
  cases h : action s with
  | ok a middle =>
    rw [bind_of_ok h]
    constructor
    · exact fun hnext => .inr ⟨a, middle, rfl, hnext⟩
    · rintro (hfirst | ⟨_, _, hfirst, hnext⟩)
      · cases hfirst
      · cases hfirst
        exact hnext
  | error first middle =>
    rw [bind_of_error h]
    constructor
    · intro herror
      cases herror
      exact .inl rfl
    · rintro (hfirst | ⟨_, _, hfirst, -⟩)
      · cases hfirst
        rfl
      · cases hfirst

/-- The state that an action leaves, with a result or with an error. -/
def leftBy (action : EStateM ε σ α) (s : σ) : σ :=
  match action s with
  | .ok _ s' => s'
  | .error _ s' => s'

theorem leftBy_of_ok {a : α} (h : action s = .ok a s') : leftBy action s = s' := by
  rw [leftBy, h]

theorem leftBy_bind (action : EStateM ε σ α) (next : α → EStateM ε σ β) (s : σ) :
    leftBy (action >>= next) s =
      match action s with
      | .ok a s' => leftBy (next a) s'
      | .error _ s' => s' := by
  unfold leftBy
  show (match EStateM.bind action next s with | .ok _ s' => s' | .error _ s' => s') = _
  rw [EStateM.bind]
  cases action s <;> rfl

/-- An action whose result is known has left some state. -/
theorem exists_of_run_eq {a : α} (h : EStateM.run' action s = some a) :
    ∃ s', action s = .ok a s' := by
  unfold EStateM.run' EStateM.run at h
  cases haction : action s with
  | ok b s' =>
    rw [haction] at h
    cases h
    exact ⟨s', rfl⟩
  | error _ _ =>
    rw [haction] at h
    cases h

/-! ## Changes of the state -/

/-- What an action does, with the state that it leaves changed. -/
def leaving (f : σ → σ) : EStateM.Result ε σ α → EStateM.Result ε σ α
  | .ok a s => .ok a (f s)
  | .error error s => .error error (f s)

theorem leaving_ok (f : σ → σ) (a : α) (s : σ) :
    leaving f (.ok a s : EStateM.Result ε σ α) = .ok a (f s) := rfl

theorem leaving_error (f : σ → σ) (error : ε) (s : σ) :
    leaving f (.error error s : EStateM.Result ε σ α) = .error error (f s) := rfl

theorem leftBy_of_leaving {f : σ → σ} (h : action (f s) = leaving f (action s)) :
    leftBy action (f s) = f (leftBy action s) := by
  rw [leftBy, leftBy, h]
  cases action s <;> rfl

/-- If a change may be made before or after each part of an action, it may be made before or after
the whole. -/
theorem bind_leaving {f : σ → σ} (hfirst : action (f s) = leaving f (action s))
    (hnext : ∀ a s', action s = .ok a s' → next a (f s') = leaving f (next a s')) :
    (action >>= next) (f s) = leaving f ((action >>= next) s) := by
  cases h : action s with
  | ok a s' =>
    rw [h] at hfirst
    rw [bind_of_ok hfirst, bind_of_ok h]
    exact hnext a s' h
  | error error s' =>
    rw [h] at hfirst
    rw [bind_of_error hfirst, bind_of_error h]
    rfl

end ChipEight
