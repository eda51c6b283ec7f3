import Mathlib.Data.List.Basic
import Mathlib.Tactic.Common

/-!
# Reading items off a stream that arrives in segments

A decoder looks at the elements that have arrived and finds an item and what is behind it, or that
they cannot go on to an item, or that more is needed.  It is stable when elements that arrive later do
not change a decision.

* `Reads next b as r`   the items `as` come off the front of `b` one by one, and `r` stays;
* `Reads.feed`          reading what arrived, then what arrives next, is reading all of it;
* `Reads.prefix`        two readings of the same elements agree as far as they go.
-/

namespace ShadowLan

/-- what a decoder finds at the front of what has arrived -/
inductive Next (α β : Type*) where
  | item (a : α) (rest : List β)
  | bad
  | more

section
variable {α β : Type*} {next : List β → Next α β}

/-- elements that arrive later change nothing that was decided -/
structure Stable (next : List β → Next α β) : Prop where
  item : ∀ {b r : List β} {a : α}, next b = .item a r → ∀ e, next (b ++ e) = .item a (r ++ e)
  bad : ∀ {b : List β}, next b = .bad → ∀ e, next (b ++ e) = .bad

inductive Reads (next : List β → Next α β) : List β → List α → List β → Prop
  | nil (b : List β) : Reads next b [] b
  | cons {b r rest : List β} {a : α} {as : List α} (h : next b = .item a r)
    (hr : Reads next r as rest) : Reads next b (a :: as) rest

theorem Reads.trans {b r r' : List β} {as as' : List α} (h : Reads next b as r)
    (h' : Reads next r as' r') : Reads next b (as ++ as') r' := by
  induction h with
  | nil b => exact h'
  | cons hn hr ih => exact .cons hn (ih h')

theorem Reads.append {b r : List β} {as : List α} (hs : Stable next) (h : Reads next b as r)
    (e : List β) : Reads next (b ++ e) as (r ++ e) := by
  induction h with
  | nil b => exact .nil _
  | cons hn hr ih => exact .cons (hs.item hn e) ih

/-- **segments**: what was left over goes in front of what arrives next -/
theorem Reads.feed {b r e r' : List β} {as as' : List α} (hs : Stable next) (h : Reads next b as r)
    (h' : Reads next (r ++ e) as' r') : Reads next (b ++ e) (as ++ as') r' :=
  (h.append hs e).trans h'

/-- the reading that went as far as it could has all that another one has -/
theorem Reads.prefix {b r r' : List β} {as as' : List α} (h : Reads next b as r)
    (h' : Reads next b as' r') (hend : ∀ a s, next r ≠ .item a s) : as' <+: as := by
  induction h generalizing as' with
  | nil b =>
    cases h' with
    | nil => exact List.prefix_refl _
    | cons hn hr => exact absurd hn (hend _ _)
  | cons hn hr ih =>
    cases h' with
    | nil => exact List.nil_prefix
    | cons hn' hr' =>
      rw [hn] at hn'
      obtain ⟨rfl, rfl⟩ := Next.item.inj hn'
      exact (List.cons_prefix_cons).mpr ⟨rfl, ih hr' hend⟩

/-- two readings that went as far as they could are the same -/
theorem Reads.unique {b r r' : List β} {as as' : List α} (h : Reads next b as r)
    (h' : Reads next b as' r') (hend : ∀ a s, next r ≠ .item a s)
    (hend' : ∀ a s, next r' ≠ .item a s) : as = as' ∧ r = r' := by
  induction h generalizing as' with
  | nil b =>
    cases h' with
    | nil => exact ⟨rfl, rfl⟩
    | cons hn hr => exact absurd hn (hend _ _)
  | cons hn hr ih =>
    cases h' with
    | nil => exact absurd hn (hend' _ _)
    | cons hn' hr' =>
      rw [hn] at hn'
      obtain ⟨rfl, rfl⟩ := Next.item.inj hn'
      obtain ⟨e1, e2⟩ := ih hr' hend
      exact ⟨congrArg _ e1, e2⟩

end

end ShadowLan
