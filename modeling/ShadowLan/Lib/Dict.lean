import Mathlib.Data.List.Nodup
import Mathlib.Data.List.Basic

/-!
# Insertion-ordered dictionaries

`Dict κ α` is a list of entries with distinct keys, in the order the keys were first inserted:
the dictionary of a scripting language whose iteration order is the insertion order.

* `Dict.set`     replaces the value of a key in place, or appends a new entry;
* `Dict.pop`     takes an entry out;
* `Dict.modify`  changes the value of a key in place, and does nothing without it.

Every operation is described by the entries it leaves (`mem_set`, `mem_pop`, `mem_modify`) and by
the lookups after it (`get?_set_self`, `get?_set_of_ne`, ...).
-/

namespace ShadowLan

structure Dict (κ α : Type*) where
  items : List (κ × α)
  nodup : (items.map Prod.fst).Nodup

namespace Dict
section
variable {κ α : Type*}

def empty : Dict κ α := ⟨[], List.nodup_nil⟩

def keys (d : Dict κ α) : List κ := d.items.map Prod.fst

def values (d : Dict κ α) : List α := d.items.map Prod.snd

def size (d : Dict κ α) : Nat := d.items.length

theorem ext {d d' : Dict κ α} (h : d.items = d'.items) : d = d' := by
  cases d; cases d'; cases h; rfl

theorem mem_keys {d : Dict κ α} {k : κ} : k ∈ d.keys ↔ ∃ v, (k, v) ∈ d.items := by
  simp [keys]

theorem mem_values {d : Dict κ α} {v : α} : v ∈ d.values ↔ ∃ k, (k, v) ∈ d.items := by
  simp [values]

/-- a key has one value -/
theorem val_unique {d : Dict κ α} {k : κ} {v w : α} (hv : (k, v) ∈ d.items)
    (hw : (k, w) ∈ d.items) : v = w := by
  have h := List.inj_on_of_nodup_map d.nodup hv hw rfl
  exact (Prod.mk.inj h).2

/-- changing entries in place keeps the keys distinct -/
theorem nodup_map (d : Dict κ α) {f : κ × α → κ × α} (hf : ∀ e, (f e).1 = e.1) :
    ((d.items.map f).map Prod.fst).Nodup := by
  have hcomp : Prod.fst ∘ f = Prod.fst := funext hf
  rw [List.map_map, hcomp]
  exact d.nodup

theorem nodup_snoc (d : Dict κ α) {k : κ} (v : α) (h : k ∉ d.keys) :
    ((d.items ++ [(k, v)]).map Prod.fst).Nodup := by
  rw [List.map_append]
  refine List.nodup_append.mpr ⟨d.nodup, List.nodup_singleton _, ?_⟩
  intro a ha b hb e
  have hk : b = k := List.mem_singleton.mp hb
  apply h
  rw [← hk, ← e]
  exact ha

variable [DecidableEq κ]

def get? (d : Dict κ α) (k : κ) : Option α := (d.items.find? fun e => e.1 = k).map Prod.snd

def set (d : Dict κ α) (k : κ) (v : α) : Dict κ α :=
  if h : k ∈ d.keys then
    ⟨d.items.map fun e => (e.1, if e.1 = k then v else e.2), d.nodup_map fun _ => rfl⟩
  else
    ⟨d.items ++ [(k, v)], d.nodup_snoc v h⟩

def filter (d : Dict κ α) (p : κ × α → Bool) : Dict κ α :=
  ⟨d.items.filter p, (List.filter_sublist.map _).nodup d.nodup⟩

def pop (d : Dict κ α) (k : κ) : Dict κ α := d.filter fun e => e.1 ≠ k

def modify (d : Dict κ α) (k : κ) (f : α → α) : Dict κ α :=
  ⟨d.items.map fun e => (e.1, if e.1 = k then f e.2 else e.2), d.nodup_map fun _ => rfl⟩

/-! ## lookups -/

theorem get?_eq_some {d : Dict κ α} {k : κ} {v : α} : d.get? k = some v ↔ (k, v) ∈ d.items := by
  unfold get?
  constructor
  · intro h
    obtain ⟨e, he, hv⟩ := Option.map_eq_some_iff.mp h
    have hk : e.1 = k := by simpa using List.find?_some he
    have hm := List.mem_of_find?_eq_some he
    rw [← hk, ← hv]
    exact hm
  · intro h
    have hsome : (d.items.find? fun e => e.1 = k).isSome :=
      List.find?_isSome.mpr ⟨(k, v), h, by simp⟩
    obtain ⟨e, he⟩ := Option.isSome_iff_exists.mp hsome
    have hk : e.1 = k := by simpa using List.find?_some he
    have hm : (k, e.2) ∈ d.items := by
      rw [← hk]
      exact List.mem_of_find?_eq_some he
    rw [he, val_unique h hm]
    rfl

theorem get?_eq_none {d : Dict κ α} {k : κ} : d.get? k = none ↔ ∀ v, (k, v) ∉ d.items := by
  constructor
  · intro h v hv
    rw [get?_eq_some.mpr hv] at h
    cases h
  · intro h
    cases hg : d.get? k with
    | none => rfl
    | some v => exact absurd (get?_eq_some.mp hg) (h v)

theorem get?_congr {d d' : Dict κ α} {k : κ}
    (h : ∀ v, (k, v) ∈ d.items ↔ (k, v) ∈ d'.items) : d.get? k = d'.get? k := by
  apply Option.ext
  intro v
  rw [get?_eq_some, get?_eq_some, h]

/-! ## what the operations leave -/

theorem mem_set {d : Dict κ α} {k : κ} {v : α} {e : κ × α} :
    e ∈ (d.set k v).items ↔ e = (k, v) ∨ (e ∈ d.items ∧ e.1 ≠ k) := by
  unfold set
  by_cases h : k ∈ d.keys
  · rw [dif_pos h]
    obtain ⟨w, hw⟩ := mem_keys.mp h
    show e ∈ d.items.map _ ↔ _
    rw [List.mem_map]
    constructor
    · rintro ⟨x, hx, rfl⟩
      by_cases hk : x.1 = k
      · rw [if_pos hk, hk]; exact Or.inl rfl
      · rw [if_neg hk]; exact Or.inr ⟨hx, hk⟩
    · rintro (rfl | ⟨he, hk⟩)
      · exact ⟨(k, w), hw, by rw [if_pos rfl]⟩
      · exact ⟨e, he, by rw [if_neg hk]⟩
  · rw [dif_neg h]
    show e ∈ d.items ++ [(k, v)] ↔ _
    rw [List.mem_append, List.mem_singleton]
    constructor
    · rintro (he | he)
      · refine Or.inr ⟨he, ?_⟩
        intro hk
        exact h (mem_keys.mpr ⟨e.2, hk ▸ he⟩)
      · exact Or.inl he
    · rintro (he | ⟨he, _⟩)
      · exact Or.inr he
      · exact Or.inl he

omit [DecidableEq κ] in
theorem mem_filter {d : Dict κ α} {p : κ × α → Bool} {e : κ × α} :
    e ∈ (d.filter p).items ↔ e ∈ d.items ∧ p e = true := List.mem_filter

theorem mem_pop {d : Dict κ α} {k : κ} {e : κ × α} :
    e ∈ (d.pop k).items ↔ e ∈ d.items ∧ e.1 ≠ k := by
  rw [pop, mem_filter, decide_eq_true_iff]

theorem mem_modify {d : Dict κ α} {k : κ} {f : α → α} {e : κ × α} :
    e ∈ (d.modify k f).items ↔ (∃ v, (k, v) ∈ d.items ∧ e = (k, f v)) ∨ (e ∈ d.items ∧ e.1 ≠ k) := by
  show e ∈ d.items.map _ ↔ _
  rw [List.mem_map]
  constructor
  · rintro ⟨x, hx, rfl⟩
    by_cases hk : x.1 = k
    · rw [if_pos hk]
      exact Or.inl ⟨x.2, by rw [← hk]; exact hx, by rw [hk]⟩
    · rw [if_neg hk]; exact Or.inr ⟨hx, hk⟩
  · rintro (⟨v, hv, rfl⟩ | ⟨he, hk⟩)
    · exact ⟨(k, v), hv, by rw [if_pos rfl]⟩
    · exact ⟨e, he, by rw [if_neg hk]⟩

@[simp] theorem get?_empty (k : κ) : (empty : Dict κ α).get? k = none := rfl

@[simp] theorem get?_set_self (d : Dict κ α) (k : κ) (v : α) : (d.set k v).get? k = some v :=
  get?_eq_some.mpr (mem_set.mpr (Or.inl rfl))

theorem get?_set_of_ne (d : Dict κ α) {k k' : κ} (v : α) (h : k' ≠ k) :
    (d.set k v).get? k' = d.get? k' := by
  apply get?_congr
  intro w
  rw [mem_set]
  constructor
  · rintro (e | ⟨hw, _⟩)
    · exact absurd (congrArg Prod.fst e) h
    · exact hw
  · exact fun hw => Or.inr ⟨hw, h⟩

theorem get?_modify (d : Dict κ α) (k k' : κ) (f : α → α) :
    (d.modify k f).get? k' = if k' = k then (d.get? k).map f else d.get? k' := by
  by_cases h : k' = k
  · rw [if_pos h, h]
    apply Option.ext
    intro v
    rw [get?_eq_some, mem_modify, Option.map_eq_some_iff]
    constructor
    · rintro (⟨u, hu, e⟩ | ⟨_, hk⟩)
      · exact ⟨u, get?_eq_some.mpr hu, (congrArg Prod.snd e).symm⟩
      · exact absurd rfl hk
    · rintro ⟨u, hu, rfl⟩
      exact Or.inl ⟨u, get?_eq_some.mp hu, rfl⟩
  · rw [if_neg h]
    apply get?_congr
    intro v
    rw [mem_modify]
    constructor
    · rintro (⟨u, _, e⟩ | ⟨hv, _⟩)
      · exact absurd (congrArg Prod.fst e) h
      · exact hv
    · exact fun hv => Or.inr ⟨hv, h⟩

theorem get?_pop_of_ne (d : Dict κ α) {k k' : κ} (h : k' ≠ k) :
    (d.pop k).get? k' = d.get? k' :=
  get?_congr fun _ => mem_pop.trans (and_iff_left h)

theorem keys_modify (d : Dict κ α) (k : κ) (f : α → α) : (d.modify k f).keys = d.keys := by
  show (d.items.map _).map Prod.fst = d.items.map Prod.fst
  rw [List.map_map]
  rfl

theorem mem_keys_get? {d : Dict κ α} {k : κ} : k ∈ d.keys ↔ ∃ v, d.get? k = some v := by
  rw [mem_keys]
  exact exists_congr fun v => get?_eq_some.symm

@[simp] theorem get?_pop_self (d : Dict κ α) (k : κ) : (d.pop k).get? k = none := by
  apply get?_eq_none.mpr
  intro v hv
  exact (mem_pop.mp hv).2 rfl

theorem mem_foldl_pop (ks : List κ) (d : Dict κ α) {e : κ × α} :
    e ∈ (ks.foldl pop d).items ↔ e ∈ d.items ∧ e.1 ∉ ks := by
  induction ks generalizing d with
  | nil => simp
  | cons k ks ih =>
    rw [List.foldl_cons, ih, mem_pop, List.mem_cons, not_or, and_assoc]

theorem get?_filter {d : Dict κ α} {p : κ × α → Bool} {k : κ} {v : α} :
    (d.filter p).get? k = some v ↔ d.get? k = some v ∧ p (k, v) = true := by
  rw [get?_eq_some, mem_filter, get?_eq_some]

/-! ## in place or at the end -/

theorem items_set_mem {d : Dict κ α} {k : κ} (v : α) (h : k ∈ d.keys) :
    (d.set k v).items = d.items.map fun e => (e.1, if e.1 = k then v else e.2) := by
  unfold set
  rw [dif_pos h]

theorem items_set_new {d : Dict κ α} {k : κ} (v : α) (h : k ∉ d.keys) :
    (d.set k v).items = d.items ++ [(k, v)] := by
  unfold set
  rw [dif_neg h]

theorem keys_set {d : Dict κ α} {k : κ} (v : α) (h : k ∈ d.keys) : (d.set k v).keys = d.keys := by
  unfold keys
  rw [items_set_mem v h, List.map_map]
  rfl

theorem set_set (d : Dict κ α) (k : κ) (v w : α) : (d.set k v).set k w = d.set k w := by
  apply ext
  by_cases hk : k ∈ d.keys
  · have hk' : k ∈ (d.set k v).keys := by
      rw [keys_set v hk]
      exact hk
    rw [items_set_mem w hk', items_set_mem v hk, items_set_mem w hk, List.map_map]
    apply List.map_congr_left
    intro e _
    by_cases he : e.1 = k
    · simp [he]
    · simp [he]
  · have hne : ∀ e ∈ d.items, e.1 ≠ k := by
      intro e he h
      exact hk (mem_keys.mpr ⟨e.2, h ▸ he⟩)
    have hk' : k ∈ (d.set k v).keys := by
      rw [mem_keys, items_set_new v hk]
      exact ⟨v, List.mem_append_right _ List.mem_cons_self⟩
    have hid : d.items.map (fun e => (e.1, if e.1 = k then w else e.2)) = d.items.map id := by
      apply List.map_congr_left
      intro e he
      rw [if_neg (hne e he)]
      rfl
    rw [items_set_mem w hk', items_set_new v hk, items_set_new w hk, List.map_append, hid,
      List.map_id]
    simp

/-- two dictionaries with the same keys in the same order, and corresponding values -/
theorem items_eq_map {d d' : Dict κ α} {f : α → α} (hk : d'.keys = d.keys)
    (hf : ∀ k v, d.get? k = some v → d'.get? k = some (f v)) :
    d'.items = d.items.map fun e => (e.1, f e.2) := by
  have hlen : d'.items.length = d.items.length := by
    have h := congrArg List.length hk
    simpa [keys] using h
  apply List.ext_getElem (by rw [List.length_map, hlen])
  intro i h1 h2
  have hi : i < d.items.length := hlen ▸ h1
  have hkey : d'.items[i].1 = d.items[i].1 := by
    have h := List.getElem_of_eq hk (i := i) (by simpa [keys] using h1)
    simpa [keys] using h
  have hget : d'.get? d.items[i].1 = some (f d.items[i].2) :=
    hf _ _ (get?_eq_some.mpr (List.getElem_mem hi))
  have hget' : d'.get? d'.items[i].1 = some d'.items[i].2 :=
    get?_eq_some.mpr (List.getElem_mem h1)
  rw [hkey, hget] at hget'
  rw [List.getElem_map]
  exact Prod.ext hkey (Option.some.inj hget').symm

end
end Dict

end ShadowLan
