import Mathlib.Data.List.Nodup
import Mathlib.Data.List.Induction
import Mathlib.Data.List.Basic
import Mathlib.Data.List.Find

/-!
# Picking from a list

Loops that scan a list once and keep one element, or that collect elements without repeating one.

* `freshest`  the first element with the largest stamp among those that meet a test;
* `stalest`   the first element with the smallest stamp;
* `collect`   appends what is not there yet;
* `distinctBy`  keeps the first element of each key, and every element without a key.
-/

namespace ShadowLan

section
variable {α : Type*}

/-! ## the largest stamp -/

/-- one turn of the scan: a later element wins only with a strictly larger stamp -/
def fresher (p : α → Bool) (seen : α → Nat) (best : Option α) (x : α) : Option α :=
  if p x && best.all fun b => seen b < seen x then some x else best

def freshest (p : α → Bool) (seen : α → Nat) (l : List α) : Option α :=
  l.foldl (fresher p seen) none

theorem freshest_snoc (p : α → Bool) (seen : α → Nat) (l : List α) (x : α) :
    freshest p seen (l ++ [x]) = fresher p seen (freshest p seen l) x := by
  unfold freshest
  rw [List.foldl_append]
  rfl

/-- what the scan returns: nothing when nothing meets the test, else an element that does, with
the largest stamp -/
theorem freshest_spec (p : α → Bool) (seen : α → Nat) (l : List α) :
    (∀ x, freshest p seen l = some x →
      x ∈ l ∧ p x = true ∧ ∀ y ∈ l, p y = true → seen y ≤ seen x) ∧
    (freshest p seen l = none → ∀ y ∈ l, p y = false) := by
  induction l using List.reverseRecOn with
  | nil => exact ⟨nofun, nofun⟩
  | append_singleton l x ih =>
    obtain ⟨ihs, ihn⟩ := ih
    rw [freshest_snoc]
    unfold fresher
    split
    next hx =>
      obtain ⟨hp, hb⟩ := Bool.and_eq_true_iff.mp hx
      refine ⟨fun z hz => ?_, nofun⟩
      rw [← Option.some.inj hz]
      refine ⟨by simp, hp, ?_⟩
      intro y hy hpy
      rcases List.mem_append.mp hy with hy | hy
      · cases hf : freshest p seen l with
        | none => rw [ihn hf y hy] at hpy; cases hpy
        | some b =>
          rw [hf] at hb
          have hlt : seen b < seen x := by simpa using hb
          have hle := (ihs b hf).2.2 y hy hpy
          omega
      · exact Nat.le_of_eq (congrArg seen (List.mem_singleton.mp hy))
    next hx =>
      refine ⟨fun z hz => ?_, fun h y hy => ?_⟩
      · obtain ⟨hm, hpz, hmax⟩ := ihs z hz
        refine ⟨List.mem_append_left _ hm, hpz, ?_⟩
        intro y hy hpy
        rcases List.mem_append.mp hy with hy | hy
        · exact hmax y hy hpy
        · have hyx := List.mem_singleton.mp hy
          rw [hyx] at hpy ⊢
          rw [hz, hpy] at hx
          simp at hx
          omega
      · rcases List.mem_append.mp hy with hy | hy
        · exact ihn h y hy
        · rw [List.mem_singleton.mp hy]
          rw [h] at hx
          simpa using hx

theorem freshest_some {p : α → Bool} {seen : α → Nat} {l : List α} {x : α}
    (h : freshest p seen l = some x) :
    x ∈ l ∧ p x = true ∧ ∀ y ∈ l, p y = true → seen y ≤ seen x :=
  (freshest_spec p seen l).1 x h

theorem freshest_eq_none {p : α → Bool} {seen : α → Nat} {l : List α} :
    freshest p seen l = none ↔ ∀ y ∈ l, p y = false := by
  constructor
  · exact (freshest_spec p seen l).2
  · intro h
    cases hf : freshest p seen l with
    | none => rfl
    | some x =>
      obtain ⟨hm, hp, _⟩ := freshest_some hf
      rw [h x hm] at hp
      cases hp

/-! ## the smallest stamp -/

def staler (seen : α → Nat) (best : Option α) (x : α) : Option α :=
  if best.all fun b => seen x < seen b then some x else best

def stalest (seen : α → Nat) (l : List α) : Option α := l.foldl (staler seen) none

theorem stalest_mem {seen : α → Nat} {l : List α} {x : α} (h : stalest seen l = some x) :
    x ∈ l := by
  induction l using List.reverseRecOn generalizing x with
  | nil => cases h
  | append_singleton l y ih =>
    unfold stalest at h
    rw [List.foldl_append] at h
    change staler seen (stalest seen l) y = some x at h
    unfold staler at h
    split at h
    · cases Option.some.inj h
      simp
    · exact List.mem_append_left _ (ih h)

theorem stalest_eq_none {seen : α → Nat} {l : List α} (h : stalest seen l = none) : l = [] := by
  induction l using List.reverseRecOn with
  | nil => rfl
  | append_singleton l y _ =>
    unfold stalest at h
    rw [List.foldl_append] at h
    change staler seen (stalest seen l) y = none at h
    unfold staler at h
    split at h
    · cases h
    next hy =>
      rw [h] at hy
      exact absurd rfl hy

theorem stalest_le {seen : α → Nat} {l : List α} {x : α} (h : stalest seen l = some x) :
    ∀ y ∈ l, seen x ≤ seen y := by
  induction l using List.reverseRecOn generalizing x with
  | nil => cases h
  | append_singleton l z ih =>
    unfold stalest at h
    rw [List.foldl_append] at h
    change staler seen (stalest seen l) z = some x at h
    unfold staler at h
    intro y hy
    split at h
    next hz =>
      cases Option.some.inj h
      rcases List.mem_append.mp hy with hy | hy
      · rcases Option.eq_none_or_eq_some (stalest seen l) with ho | ⟨b, hb⟩
        · rw [stalest_eq_none ho] at hy
          cases hy
        · rw [hb] at hz
          exact Nat.le_trans (Nat.le_of_lt (of_decide_eq_true hz)) (ih hb y hy)
      · rw [List.mem_singleton.mp hy]
    next hz =>
      rcases List.mem_append.mp hy with hy | hy
      · exact ih h y hy
      · rw [List.mem_singleton.mp hy]
        rw [h] at hz
        exact Nat.le_of_not_lt fun hlt => hz (decide_eq_true hlt)

/-! ## scanning a list that was mapped -/

theorem find?_map_of_mem {p : α → Bool} {g : α → α} {l : List α}
    (h : ∀ x ∈ l, p (g x) = p x) : (l.map g).find? p = (l.find? p).map g := by
  rw [List.find?_map]
  exact congrArg _ (List.find?_congr h)

theorem all_map_of_mem {p : α → Bool} {g : α → α} {o : Option α}
    (h : ∀ x, o = some x → p (g x) = p x) : (o.map g).all p = o.all p := by
  cases o with
  | none => rfl
  | some x => exact h x rfl

theorem countP_map_lt {p : α → Bool} {g : α → α} {l : List α}
    (h : ∀ x ∈ l, p (g x) = true → p x = true) {x : α} (hx : x ∈ l) (hp : p x = true)
    (hg : p (g x) = false) : (l.map g).countP p < l.countP p := by
  induction l with
  | nil => cases hx
  | cons z l ih =>
    have hrest : ∀ y ∈ l, p (g y) = true → p y = true := fun y hy => h y (List.mem_cons_of_mem z hy)
    have hle : (l.map g).countP p ≤ l.countP p := by
      rw [List.countP_map]
      exact List.countP_mono_left hrest
    have hz := h z List.mem_cons_self
    rw [List.map_cons, List.countP_cons, List.countP_cons]
    rcases List.mem_cons.mp hx with rfl | hx
    · rw [hg, hp, if_neg Bool.false_ne_true, if_pos rfl]
      omega
    · have hlt := ih hrest hx
      split
      next hgz =>
        rw [if_pos (hz hgz)]
        omega
      next => omega

/-! ## collecting without repetition -/

variable [DecidableEq α]

/-- append the elements of `l` that are not there yet -/
def collect (out l : List α) : List α :=
  l.foldl (fun out a => if a ∈ out then out else out ++ [a]) out

theorem mem_collect {out l : List α} {a : α} : a ∈ collect out l ↔ a ∈ out ∨ a ∈ l := by
  induction l generalizing out with
  | nil => simp [collect]
  | cons b l ih =>
    change a ∈ collect (if b ∈ out then out else out ++ [b]) l ↔ _
    rw [ih, List.mem_cons]
    split
    next hb =>
      constructor
      · rintro (h | h)
        · exact Or.inl h
        · exact Or.inr (Or.inr h)
      · rintro (h | rfl | h)
        · exact Or.inl h
        · exact Or.inl hb
        · exact Or.inr h
    next => simp [or_assoc]

theorem nodup_collect {out : List α} (l : List α) (h : out.Nodup) : (collect out l).Nodup := by
  induction l generalizing out with
  | nil => exact h
  | cons b l ih =>
    change (collect (if b ∈ out then out else out ++ [b]) l).Nodup
    apply ih
    split
    · exact h
    next hb => exact List.nodup_append.mpr ⟨h, List.nodup_singleton b, by
        intro a ha c hc e
        rw [List.mem_singleton] at hc
        exact hb (by rw [← hc, ← e]; exact ha)⟩

end

/-! ## one of each key -/

section
variable {α κ : Type*} [DecidableEq κ] {key : α → Option κ} {seen : List κ} {xs : List α}

/-- the first element of each key that is not in `seen`, and every element without a key -/
def distinctBy (key : α → Option κ) : List κ → List α → List α
  | _, [] => []
  | seen, x :: xs =>
    match key x with
    | none => x :: distinctBy key seen xs
    | some k => if k ∈ seen then distinctBy key seen xs else x :: distinctBy key (k :: seen) xs

theorem distinctBy_sublist (seen : List κ) (xs : List α) :
    (distinctBy key seen xs).Sublist xs := by
  induction xs generalizing seen with
  | nil => exact .slnil
  | cons x xs ih =>
    unfold distinctBy
    split
    · exact (ih seen).cons_cons x
    · split
      · exact (ih seen).cons x
      · exact (ih _).cons_cons x

theorem mem_distinctBy_of_none {x : α} (hx : x ∈ xs) (hk : key x = none) :
    x ∈ distinctBy key seen xs := by
  induction xs generalizing seen with
  | nil => cases hx
  | cons y xs ih =>
    unfold distinctBy
    rcases List.mem_cons.mp hx with rfl | hx
    · rw [hk]
      exact List.mem_cons_self
    · split
      · exact List.mem_cons_of_mem y (ih hx)
      · split
        · exact ih hx
        · exact List.mem_cons_of_mem y (ih hx)

/-- what is kept has a new key -/
theorem distinctBy_fresh {x : α} {k : κ} (hx : x ∈ distinctBy key seen xs) (hk : key x = some k) :
    k ∉ seen := by
  induction xs generalizing seen with
  | nil => cases hx
  | cons y xs ih =>
    unfold distinctBy at hx
    split at hx
    next hy =>
      rcases List.mem_cons.mp hx with rfl | hx
      · rw [hy] at hk
        cases hk
      · exact ih hx
    next k' hy =>
      split at hx
      · exact ih hx
      next hnew =>
        rcases List.mem_cons.mp hx with rfl | hx
        · rw [hy] at hk
          exact Option.some.inj hk ▸ hnew
        · exact fun hmem => ih hx (List.mem_cons_of_mem k' hmem)

/-- no two of one key are kept -/
theorem distinctBy_unique {x y : α} {k : κ} (hx : x ∈ distinctBy key seen xs)
    (hy : y ∈ distinctBy key seen xs) (hkx : key x = some k) (hky : key y = some k) : x = y := by
  induction xs generalizing seen with
  | nil => cases hx
  | cons z xs ih =>
    unfold distinctBy at hx hy
    split at hx
    next hz =>
      rw [hz] at hy
      rcases List.mem_cons.mp hx with rfl | hx
      · rw [hz] at hkx
        cases hkx
      rcases List.mem_cons.mp hy with rfl | hy
      · rw [hz] at hky
        cases hky
      exact ih hx hy
    next k' hz =>
      rw [hz] at hy
      dsimp only at hy
      split at hx
      next hin =>
        rw [if_pos hin] at hy
        exact ih hx hy
      next hnew =>
        rw [if_neg hnew] at hy
        -- `z` is the one kept for its key, so a later one has another key
        have hlater : ∀ {u}, u ∈ distinctBy key (k' :: seen) xs → key u = some k → k ≠ k' :=
          fun hu hku e => distinctBy_fresh hu hku (e ▸ List.mem_cons_self)
        rcases List.mem_cons.mp hx with ex | hx' <;> rcases List.mem_cons.mp hy with ey | hy'
        · exact ex.trans ey.symm
        · exact absurd (Option.some.inj (hkx.symm.trans (ex ▸ hz))) (hlater hy' hky)
        · exact absurd (Option.some.inj (hky.symm.trans (ey ▸ hz))) (hlater hx' hkx)
        · exact ih hx' hy'

/-- every key that is not in `seen` is represented -/
theorem distinctBy_covers {x : α} {k : κ} (hx : x ∈ xs) (hk : key x = some k) (hnew : k ∉ seen) :
    ∃ y ∈ distinctBy key seen xs, key y = some k := by
  induction xs generalizing seen with
  | nil => cases hx
  | cons z xs ih =>
    unfold distinctBy
    cases hz : key z with
    | none =>
      rcases List.mem_cons.mp hx with rfl | hx
      · rw [hz] at hk
        cases hk
      · obtain ⟨y, hy, hky⟩ := ih hx hnew
        exact ⟨y, List.mem_cons_of_mem z hy, hky⟩
    | some k' =>
      dsimp only
      by_cases e : k' = k
      · rw [if_neg (e ▸ hnew)]
        exact ⟨z, List.mem_cons_self, e ▸ hz⟩
      · have hx : x ∈ xs := by
          rcases List.mem_cons.mp hx with rfl | hx
          · exact absurd (Option.some.inj (hz.symm.trans hk)) e
          · exact hx
        split
        · exact ih hx hnew
        · have hnew' : k ∉ k' :: seen := fun h => (List.mem_cons.mp h).elim (fun h => e h.symm) hnew
          obtain ⟨y, hy, hky⟩ := ih hx hnew'
          exact ⟨y, List.mem_cons_of_mem z hy, hky⟩

end

end ShadowLan
