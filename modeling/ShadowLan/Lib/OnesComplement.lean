import Mathlib.Data.Nat.ModEq
import Mathlib.Tactic.Common

/-!
# One's-complement sums

Words are the numbers up to `m`; a carry out of the top is added in again at the bottom.  A sum of
words is kept in one word as its residue modulo `m`, with the one exception that 0 stands for
nothing but an empty sum.

* `addc`, `osum`    the sum of two words, and of a list of words;
* `Folded m s n`    the word `s` stands for the number `n`: there is one such word (`unique`);
* `folded_osum`     the sum of words stands for the sum of the numbers;
* `Folded.carry`    the carry can be added in later, and all at once;
* `folded_compl`    a number and the complement of its word make up the word `m`.
-/

namespace ShadowLan

/-- the sum of two words, with the carry put in again at the bottom -/
def addc (m a b : Nat) : Nat := if a + b ≤ m then a + b else a + b - m

/-- the sum of a list of words -/
def osum (m : Nat) (ws : List Nat) : Nat := ws.foldl (addc m) 0

section
variable {m s s' n : Nat}

/-- the word `s` stands for the number `n` -/
structure Folded (m s n : Nat) : Prop where
  le : s ≤ m
  modEq : s ≡ n [MOD m]
  zero : s = 0 ↔ n = 0

theorem folded_self (h : n ≤ m) : Folded m n n := ⟨h, rfl, Iff.rfl⟩

/-- a number has one word: only 0 and `m` have one residue, and 0 stands for 0 alone -/
theorem Folded.unique (h : Folded m s n) (h' : Folded m s' n) : s = s' := by
  have hmod : s ≡ s' [MOD m] := h.modEq.trans h'.modEq.symm
  have hzero : s = 0 ↔ s' = 0 := h.zero.trans h'.zero.symm
  by_cases hs : s = 0
  · rw [hs, hzero.mp hs]
  · have hs' : s' ≠ 0 := fun h0 => hs (hzero.mpr h0)
    have hle := h.le
    have hle' := h'.le
    have hmod : s % m = s' % m := hmod
    rcases Nat.lt_or_eq_of_le hle with hlt | rfl
    · rcases Nat.lt_or_eq_of_le hle' with hlt' | rfl
      · rwa [Nat.mod_eq_of_lt hlt, Nat.mod_eq_of_lt hlt'] at hmod
      · rw [Nat.mod_eq_of_lt hlt, Nat.mod_self] at hmod
        exact absurd hmod hs
    · rcases Nat.lt_or_eq_of_le hle' with hlt' | rfl
      · rw [Nat.mod_self, Nat.mod_eq_of_lt hlt'] at hmod
        exact absurd hmod.symm hs'
      · rfl

theorem addc_modEq (a b : Nat) : addc m a b ≡ a + b [MOD m] := by
  unfold addc
  split
  · rfl
  · rename_i h
    have hsub : a + b - m + m = a + b := Nat.sub_add_cancel (by omega)
    calc a + b - m ≡ a + b - m + m [MOD m] := (Nat.add_mod_right (a + b - m) m).symm
      _ = a + b := hsub

theorem Folded.addc (h : Folded m s n) {w : Nat} (hw : w ≤ m) : Folded m (addc m s w) (n + w) where
  le := by
    have hle := h.le
    unfold ShadowLan.addc
    split <;> omega
  modEq := (addc_modEq s w).trans (h.modEq.add_right w)
  zero := by
    have hz := h.zero
    have hle := h.le
    unfold ShadowLan.addc
    split <;> omega

/-- **The sum of words stands for the sum of the numbers.** -/
theorem folded_osum {ws : List Nat} (h : ∀ w ∈ ws, w ≤ m) : Folded m (osum m ws) ws.sum := by
  have key : ∀ (ws : List Nat) (s n : Nat), (∀ w ∈ ws, w ≤ m) → Folded m s n →
      Folded m (ws.foldl (addc m) s) (n + ws.sum) := by
    intro ws
    induction ws with
    | nil => exact fun s n _ hs => hs
    | cons w ws ih =>
      intro s n hws hs
      have hsum := ih (addc m s w) (n + w) (fun v hv => hws v (List.mem_cons_of_mem _ hv))
        (hs.addc (hws w List.mem_cons_self))
      rwa [Nat.add_assoc, ← List.sum_cons] at hsum
  have h0 := key ws 0 0 h (folded_self (Nat.zero_le m))
  rwa [Nat.zero_add] at h0

/-- **Late carries.**  What lies above the word may be added in at the bottom at any time. -/
theorem Folded.carry (h : Folded m s (n % (m + 1) + n / (m + 1))) : Folded m s n where
  le := h.le
  modEq := by
    refine h.modEq.trans ?_
    have hdiv : n % (m + 1) + (m + 1) * (n / (m + 1)) = n := Nat.mod_add_div n (m + 1)
    calc n % (m + 1) + n / (m + 1)
        ≡ n % (m + 1) + n / (m + 1) + m * (n / (m + 1)) [MOD m] :=
          (Nat.add_mul_mod_self_left _ m _).symm
      _ = n % (m + 1) + (m * (n / (m + 1)) + n / (m + 1)) := by
          rw [Nat.add_assoc, Nat.add_comm (n / (m + 1))]
      _ = n := by rw [← Nat.succ_mul]; exact hdiv
  zero := by
    refine h.zero.trans ?_
    constructor
    · intro h0
      have hdiv : n % (m + 1) + (m + 1) * (n / (m + 1)) = n := Nat.mod_add_div n (m + 1)
      obtain ⟨hr, hq⟩ := Nat.add_eq_zero_iff.mp h0
      rw [hr, hq, Nat.mul_zero] at hdiv
      exact hdiv.symm
    · intro h0
      rw [h0, Nat.zero_mod, Nat.zero_div]

/-- **The complement.**  With it added, a sum is all ones. -/
theorem folded_compl (h : Folded m s n) (hm : 0 < m) : Folded m m (n + (m - s)) where
  le := Nat.le_refl m
  modEq := by
    have hle := h.le
    have hs : s + (m - s) = m := by omega
    calc m = s + (m - s) := hs.symm
      _ ≡ n + (m - s) [MOD m] := h.modEq.add_right (m - s)
  zero := by
    have hz := h.zero
    have hle := h.le
    omega

end
end ShadowLan
