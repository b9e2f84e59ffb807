/-!
# Results that may be errors

What a computation in two parts gives follows from what its parts give, and so does what it gives
when its errors are told in another way. The proofs about the assembler take the passes and the
readers of operands apart with these lemmas.
-/

namespace ChipEight

variable {ε ε' α β : Type}

section Parts

variable {first : Except ε α} {next : α → Except ε β} {a : α} {b : β}

theorem ok_bind (h : first = .ok a) : first >>= next = next a := by
  rw [h]
  rfl

/-- A result comes of two parts that both give one. -/
theorem bind_ok_iff : first >>= next = .ok b ↔ ∃ a, first = .ok a ∧ next a = .ok b := by
  constructor
  · intro h
    cases hfirst : first with
    | error e =>
      rw [hfirst] at h
      cases h
    | ok a =>
      rw [ok_bind hfirst] at h
      exact ⟨a, rfl, h⟩
  · rintro ⟨a, hfirst, hnext⟩
    rw [ok_bind hfirst, hnext]

/-- An error comes of the first part, or of the second one after the first gave a result. -/
theorem bind_error_iff {e : ε} :
    first >>= next = .error e ↔ first = .error e ∨ ∃ a, first = .ok a ∧ next a = .error e := by
  constructor
  · intro h
    cases hfirst : first with
    | error e' =>
      rw [hfirst] at h
      cases h
      exact .inl rfl
    | ok a =>
      rw [ok_bind hfirst] at h
      exact .inr ⟨a, rfl, h⟩
  · rintro (hfirst | ⟨a, hfirst, hnext⟩)
    · rw [hfirst]
      rfl
    · rw [ok_bind hfirst, hnext]

theorem pure_ok_iff {c : α} : (pure a : Except ε α) = .ok c ↔ a = c := by
  constructor
  · intro h
    cases h
    rfl
  · rintro rfl
    rfl

theorem map_ok_iff {f : α → β} : first.map f = .ok b ↔ ∃ a, first = .ok a ∧ f a = b := by
  cases first <;> simp [Except.map]

end Parts

/-! ## Errors told in another way -/

section Errors

variable (g : ε → ε')

theorem mapError_ok_iff {g : ε → ε'} {x : Except ε α} {a : α} :
    x.mapError g = .ok a ↔ x = .ok a := by
  constructor
  · intro h
    cases x with
    | ok b =>
      cases h
      rfl
    | error e => cases h
  · rintro rfl
    rfl

theorem mapError_bind (first : Except ε α) (next : α → Except ε β) :
    (first >>= next).mapError g = first.mapError g >>= fun a => (next a).mapError g := by
  cases first <;> rfl

theorem mapError_map (f : α → β) (x : Except ε α) :
    (x.map f).mapError g = (x.mapError g).map f := by
  cases x <;> rfl

theorem mapError_pure (a : α) : (pure a : Except ε α).mapError g = pure a := rfl

theorem mapError_throw (e : ε) : (throw e : Except ε α).mapError g = throw (g e) := rfl

end Errors

end ChipEight
