import ShadowLan.Lib.Rows

/-!
# Tables whose rows have keys

A row has a key, or it is free.  The row of a key is the first one that has it; when no two rows share
a key, it is the only one, and what happens to one row is not seen through the other keys.

* `keyed T key k`     the row of the key `k`;
* `UniqueKeys`        no two rows share a key;
* `keyed_eq_some_iff` then the row of a key is any row that has it;
* `keyed_update_*`    the row of a key after one row has changed, and `keyed_map` after all have.
-/

namespace ShadowLan

section
variable {ρ κ : Type*} {n : Nat} {T : Fin n → ρ} {key : ρ → Option κ} {k : κ}
  {i : Fin n} {r : ρ}

/-- no two rows share a key -/
def UniqueKeys (T : Fin n → ρ) (key : ρ → Option κ) : Prop :=
  ∀ i j k, key (T i) = some k → key (T j) = some k → i = j

theorem UniqueKeys.alone (hu : UniqueKeys T key) (hi : key (T i) = some k) :
    ∀ j ≠ i, key (T j) ≠ some k :=
  fun j hj hk => hj (hu j i k hk hi)

/-- one row changes, and has no key of another row -/
theorem UniqueKeys.update (hu : UniqueKeys T key)
    (hr : ∀ k, key r = some k → ∀ j ≠ i, key (T j) ≠ some k) :
    UniqueKeys (Function.update T i r) key := by
  intro a b k ha hb
  by_cases hai : a = i <;> by_cases hbi : b = i
  · rw [hai, hbi]
  · rw [hai, Function.update_self] at ha
    rw [Function.update_of_ne hbi] at hb
    exact absurd hb (hr k ha b hbi)
  · rw [hbi, Function.update_self] at hb
    rw [Function.update_of_ne hai] at ha
    exact absurd ha (hr k hb a hai)
  · rw [Function.update_of_ne hai] at ha
    rw [Function.update_of_ne hbi] at hb
    exact hu a b k ha hb

/-- every row keeps its key or loses it -/
theorem UniqueKeys.map {f : ρ → ρ} (hu : UniqueKeys T key)
    (hf : ∀ r, key (f r) = key r ∨ key (f r) = none) : UniqueKeys (fun i => f (T i)) key := by
  intro a b k ha hb
  have hold : ∀ j, key (f (T j)) = some k → key (T j) = some k := by
    intro j hj
    rcases hf (T j) with h | h
    · rw [← h, hj]
    · rw [h] at hj
      cases hj
  exact hu a b k (hold a ha) (hold b hb)

section
variable [DecidableEq κ]

/-- the row of the key -/
def keyed (T : Fin n → ρ) (key : ρ → Option κ) (k : κ) : Option ρ :=
  (first T fun r => key r == some k).map T

theorem keyed_key (h : keyed T key k = some r) : key r = some k := by
  obtain ⟨j, hj, rfl⟩ := Option.map_eq_some_iff.mp h
  exact eq_of_beq (first_mem hj)

theorem keyed_eq_none_iff : keyed T key k = none ↔ ∀ j, key (T j) ≠ some k := by
  unfold keyed
  rw [Option.map_eq_none_iff, first_eq_none_iff]
  exact forall_congr' fun j => beq_eq_false_iff_ne

theorem keyed_eq_some_iff (hu : UniqueKeys T key) :
    keyed T key k = some r ↔ ∃ j, T j = r ∧ key r = some k := by
  constructor
  · intro h
    obtain ⟨j, -, hj⟩ := Option.map_eq_some_iff.mp h
    exact ⟨j, hj, keyed_key h⟩
  · rintro ⟨j, rfl, hk⟩
    obtain ⟨m, -, hm⟩ := first_isSome (p := fun r => key r == some k) (beq_iff_eq.mpr hk)
    have hkm : key (T m) = some k := eq_of_beq (first_mem hm)
    unfold keyed
    rw [hm, hu m j k hkm hk]
    rfl

/-- a row with another key, or none, before and after -/
theorem keyed_update_other (hi : key (T i) ≠ some k) (hr : key r ≠ some k) :
    keyed (Function.update T i r) key k = keyed T key k := by
  have hsame : first (Function.update T i r) (fun r => key r == some k)
      = first T fun r => key r == some k := by
    apply first_update
    rw [beq_eq_false_iff_ne.mpr hr, beq_eq_false_iff_ne.mpr hi]
  unfold keyed
  rw [hsame]
  cases hf : first T fun r => key r == some k with
  | none => rfl
  | some j =>
    have hj : j ≠ i := by
      rintro rfl
      exact hi (eq_of_beq (first_mem hf))
    show some (Function.update T i r j) = some (T j)
    rw [Function.update_of_ne hj]

/-- a row that takes a key which no other row has -/
theorem keyed_update_self (hr : key r = some k) (hi : ∀ j ≠ i, key (T j) ≠ some k) :
    keyed (Function.update T i r) key k = some r := by
  have hfirst : first (Function.update T i r) (fun r => key r == some k) = some i := by
    rw [first_eq_some_iff, Function.update_self]
    refine ⟨beq_iff_eq.mpr hr, fun j hj => ?_⟩
    rw [Function.update_of_ne hj.ne]
    exact beq_eq_false_iff_ne.mpr (hi j hj.ne)
  unfold keyed
  rw [hfirst]
  show some (Function.update T i r i) = some r
  rw [Function.update_self]

/-- the row of the key is freed -/
theorem keyed_update_free (hr : key r = none) (hi : ∀ j ≠ i, key (T j) ≠ some k) :
    keyed (Function.update T i r) key k = none := by
  refine keyed_eq_none_iff.mpr fun j => ?_
  by_cases hj : j = i
  · rw [hj, Function.update_self, hr]
    exact nofun
  · rw [Function.update_of_ne hj]
    exact hi j hj

theorem keyed_map {f : ρ → ρ} (hu : UniqueKeys T key)
    (hf : ∀ r, key (f r) = key r ∨ key (f r) = none) :
    keyed (fun i => f (T i)) key k = ((keyed T key k).map f).filter fun r => (key r).isSome := by
  ext r
  rw [keyed_eq_some_iff (hu.map hf), Option.filter_eq_some_iff, Option.map_eq_some_iff]
  constructor
  · rintro ⟨j, rfl, hk⟩
    refine ⟨⟨T j, (keyed_eq_some_iff hu).mpr ⟨j, rfl, ?_⟩, rfl⟩, by rw [hk]; rfl⟩
    rcases hf (T j) with h | h
    · rw [← h, hk]
    · rw [h] at hk
      cases hk
  · rintro ⟨⟨r₀, h₀, rfl⟩, hs⟩
    obtain ⟨j, rfl, hk⟩ := (keyed_eq_some_iff hu).mp h₀
    refine ⟨j, rfl, ?_⟩
    rcases hf (T j) with h | h
    · rw [h, hk]
    · rw [h] at hs
      cases hs

end

end

end ShadowLan
