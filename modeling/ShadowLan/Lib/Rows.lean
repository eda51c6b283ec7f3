import Mathlib.Logic.Equiv.Fin.Basic

/-!
# Tables with a fixed number of rows

A table is a function from its row numbers; a row is looked up by the first one that a test
accepts, and a new entry takes the first free row.

* `first`     the first row that a test accepts;
* `claim`     the row of a key, or the first free row, filled in for the key;
* `claim_some`, `claim_keeps`   what `claim` finds, and that it changes free rows only.
-/

namespace ShadowLan

section
variable {ρ : Type*} {n : Nat} {T : Fin n → ρ} {p free : ρ → Bool} {mk : ρ → ρ}

/-- the first row that `p` accepts -/
@[irreducible] def first (T : Fin n → ρ) (p : ρ → Bool) : Option (Fin n) := Fin.find? fun i => p (T i)

theorem first_eq_some_iff {i : Fin n} :
    first T p = some i ↔ p (T i) = true ∧ ∀ j < i, p (T j) = false := by
  unfold first
  rw [Fin.find?_eq_some_iff]

theorem first_eq_none_iff : first T p = none ↔ ∀ i, p (T i) = false := by
  unfold first
  rw [Fin.find?_eq_none_iff]

theorem first_mem {i : Fin n} (h : first T p = some i) : p (T i) = true :=
  (first_eq_some_iff.mp h).1

theorem first_le {i j : Fin n} (h : first T p = some i) (hj : p (T j) = true) : i ≤ j := by
  by_contra hlt
  have hno := (first_eq_some_iff.mp h).2 j (not_le.mp hlt)
  rw [hj] at hno
  cases hno

theorem first_isSome {i : Fin n} (h : p (T i) = true) : ∃ j ≤ i, first T p = some j := by
  cases hf : first T p with
  | none =>
    have hno := first_eq_none_iff.mp hf i
    rw [h] at hno
    cases hno
  | some j => exact ⟨j, first_le hf h, rfl⟩

theorem first_congr {ρ' : Type*} {T' : Fin n → ρ'} {q : ρ' → Bool} (h : ∀ i, p (T i) = q (T' i)) :
    first T p = first T' q := by
  unfold first
  exact congrArg Fin.find? (funext h)

/-- new content that the test takes like the old -/
theorem first_update {i : Fin n} {r : ρ} (h : p r = p (T i)) :
    first (Function.update T i r) p = first T p := by
  apply first_congr
  intro j
  by_cases hj : j = i
  · rw [hj, Function.update_self, h]
  · rw [Function.update_of_ne hj]

/-- the only row that the test accepts -/
theorem first_update_new {i : Fin n} {r : ρ} (h : first T p = none) (hr : p r = true) :
    first (Function.update T i r) p = some i := by
  rw [first_eq_some_iff, Function.update_self]
  refine ⟨hr, fun j hj => ?_⟩
  rw [Function.update_of_ne hj.ne]
  exact first_eq_none_iff.mp h j

/-- the row of a key, which `p` tests for; else the first free row, which `mk` fills in -/
@[irreducible] def claim (T : Fin n → ρ) (p free : ρ → Bool) (mk : ρ → ρ) : (Fin n → ρ) × Option (Fin n) :=
  match first T p with
  | some i => (T, some i)
  | none =>
    match first T free with
    | some i => (Function.update T i (mk (T i)), some i)
    | none => (T, none)

theorem claim_found {i : Fin n} (h : first T p = some i) :
    claim T p free mk = (T, some i) := by
  unfold claim
  rw [h]

theorem claim_fresh {i : Fin n} (h : first T p = none) (hf : first T free = some i) :
    claim T p free mk = (Function.update T i (mk (T i)), some i) := by
  unfold claim
  rw [h, hf]

theorem claim_full (h : first T p = none) (hf : first T free = none) :
    claim T p free mk = (T, none) := by
  unfold claim
  rw [h, hf]

/-- the row that is found belongs to the key -/
theorem claim_some (hmk : ∀ r, p (mk r) = true) {i : Fin n}
    (h : (claim T p free mk).2 = some i) : p ((claim T p free mk).1 i) = true := by
  revert h
  cases hp : first T p with
  | some j =>
    rw [claim_found hp]
    intro h
    rw [← Option.some.inj h]
    exact first_mem hp
  | none =>
    cases hf : first T free with
    | some j =>
      rw [claim_fresh hp hf]
      intro h
      rw [← Option.some.inj h]
      show p (Function.update T j (mk (T j)) j) = true
      rw [Function.update_self]
      exact hmk _
    | none =>
      rw [claim_full hp hf]
      exact nofun

/-- a row that is not free stays as it is -/
theorem claim_keeps {j : Fin n} (h : free (T j) = false) : (claim T p free mk).1 j = T j := by
  cases hp : first T p with
  | some i => rw [claim_found hp]
  | none =>
    cases hf : first T free with
    | none => rw [claim_full hp hf]
    | some i =>
      rw [claim_fresh hp hf]
      show Function.update T i (mk (T i)) j = T j
      apply Function.update_of_ne
      rintro rfl
      rw [first_mem hf] at h
      cases h

end

end ShadowLan
