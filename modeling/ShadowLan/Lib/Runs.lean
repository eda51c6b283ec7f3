import Mathlib.Logic.Basic
import Mathlib.Data.List.Basic

/-!
# Runs of a step function

A system is a partial step function `step : σ → ℓ → Option σ`: `step s l = none` says that the
label `l` is not enabled at `s`.  `Path step s tr t` is a run from `s` to `t`; its trace `tr`
lists, for every step taken, the state BEFORE the step and its label, so that a condition on the
steps of a run is a condition on the members of `tr`.

* `Path.inv_of_ok`   an invariant kept by the steps that meet a condition `ok` holds at the end
                     of every run whose steps all meet `ok`;
* `Path.all_iff_ok`  if moreover a step that misses `ok` breaks the property `P` at once, then
                     `P` holds along the whole run exactly when every step meets `ok`;
* `Path.fifo`        a queue that every step leaves in order is left in order by the run;
* `run`, `path_run`  the run of a list of labels, computed.
-/

namespace ShadowLan

section
variable {σ ℓ : Type*} {step : σ → ℓ → Option σ}

/-- a run from `s`, with the state before each step and the label of the step -/
inductive Path (step : σ → ℓ → Option σ) (s : σ) : List (σ × ℓ) → σ → Prop
  | nil : Path step s [] s
  | snoc {tr : List (σ × ℓ)} {t t' : σ} {l : ℓ} (h : Path step s tr t) (hl : step t l = some t') :
      Path step s (tr ++ [(t, l)]) t'

theorem Path.trans {s t u : σ} {tr tr' : List (σ × ℓ)} (h : Path step s tr t)
    (h' : Path step t tr' u) : Path step s (tr ++ tr') u := by
  induction h' with
  | nil => rw [List.append_nil]; exact h
  | snoc _ hl ih => rw [← List.append_assoc]; exact ih.snoc hl

theorem Path.one {s t : σ} {l : ℓ} (hl : step s l = some t) : Path step s [(s, l)] t :=
  Path.nil.snoc hl

/-- the labels of a trace were enabled where they were taken -/
theorem Path.enabled {s t : σ} {tr : List (σ × ℓ)} (h : Path step s tr t) {x : σ × ℓ} (hx : x ∈ tr) :
    ∃ u, step x.1 x.2 = some u := by
  induction h with
  | nil => exact absurd hx List.not_mem_nil
  | snoc _ hl ih =>
    rcases List.mem_append.mp hx with hx | hx
    · exact ih hx
    · rw [List.mem_singleton.mp hx]
      exact ⟨_, hl⟩

/-! ## invariants -/

/-- an invariant that the steps meeting `ok` keep holds at the end of a run of such steps -/
theorem Path.inv_of_ok {I : σ → Prop} {ok : σ → ℓ → Prop} {s t : σ} {tr : List (σ × ℓ)}
    (h : Path step s tr t) (h0 : I s)
    (hs : ∀ u l u', I u → ok u l → step u l = some u' → I u')
    (hok : ∀ x ∈ tr, ok x.1 x.2) : I t := by
  induction h with
  | nil => exact h0
  | snoc _ hl ih =>
    have hpre := ih (fun x hx => hok x (List.mem_append_left _ hx))
    exact hs _ _ _ hpre (hok _ (List.mem_append_right _ List.mem_cons_self)) hl

theorem Path.inv {I : σ → Prop} {s t : σ} {tr : List (σ × ℓ)} (h : Path step s tr t) (h0 : I s)
    (hs : ∀ u l u', I u → step u l = some u' → I u') : I t := by
  induction h with
  | nil => exact h0
  | snoc _ hl ih => exact hs _ _ _ ih hl

/-- the states a run goes through, its end included -/
def visited (tr : List (σ × ℓ)) (t : σ) : List σ := tr.map Prod.fst ++ [t]

theorem visited_snoc (tr : List (σ × ℓ)) (u t : σ) (l : ℓ) :
    visited (tr ++ [(u, l)]) t = visited tr u ++ [t] := by
  simp [visited]

theorem mem_visited {tr : List (σ × ℓ)} {t : σ} {x : σ × ℓ} (hx : x ∈ tr) : x.1 ∈ visited tr t :=
  List.mem_append_left _ (List.mem_map_of_mem hx)

/-- the state that a step of the run leads to is one of the run -/
theorem Path.next_visited {s t : σ} {tr : List (σ × ℓ)} (h : Path step s tr t) {x : σ × ℓ}
    (hx : x ∈ tr) {u : σ} (hu : step x.1 x.2 = some u) : u ∈ visited tr t := by
  induction h with
  | nil => exact absurd hx List.not_mem_nil
  | snoc _ hl ih =>
    rw [visited_snoc]
    rcases List.mem_append.mp hx with hx | hx
    · exact List.mem_append_left _ (ih hx)
    · rw [List.mem_singleton.mp hx] at hu
      exact List.mem_append_right _ (List.mem_singleton.mpr (Option.some.inj (hu.symm.trans hl)))

/-- a property that the invariant gives holds all along a run whose steps meet `ok` -/
theorem Path.all_of_ok {I P : σ → Prop} {ok : σ → ℓ → Prop} {s t : σ} {tr : List (σ × ℓ)}
    (h : Path step s tr t) (h0 : I s) (hP : ∀ u, I u → P u)
    (hs : ∀ u l u', I u → ok u l → step u l = some u' → I u')
    (hok : ∀ x ∈ tr, ok x.1 x.2) : ∀ u ∈ visited tr t, P u := by
  induction h with
  | nil => simp [visited, hP s h0]
  | @snoc tr u u' l hp hl ih =>
    have hpre : ∀ x ∈ tr, ok x.1 x.2 := fun x hx => hok x (List.mem_append_left _ hx)
    intro v hv
    rw [visited_snoc] at hv
    rcases List.mem_append.mp hv with hv | hv
    · exact ih hpre v hv
    · rw [List.mem_singleton.mp hv]
      exact hP u' (hs u l u' (hp.inv_of_ok h0 hs hpre)
        (hok _ (List.mem_append_right _ List.mem_cons_self)) hl)

/-- **Exact conditions.**  Steps that meet `ok` keep `I`, and `I` gives `P`; a step from `I` that
misses `ok` ends outside `P`.  Then a run has `P` everywhere iff all its steps meet `ok`. -/
theorem Path.all_iff_ok {I P : σ → Prop} {ok : σ → ℓ → Prop} {s t : σ} {tr : List (σ × ℓ)}
    (h : Path step s tr t) (h0 : I s) (hP : ∀ u, I u → P u)
    (hs : ∀ u l u', I u → ok u l → step u l = some u' → I u')
    (hbad : ∀ u l u', I u → ¬ ok u l → step u l = some u' → ¬ P u') :
    (∀ u ∈ visited tr t, P u) ↔ ∀ x ∈ tr, ok x.1 x.2 := by
  have key : ∀ {tr t}, Path step s tr t →
      ((∀ u ∈ visited tr t, P u) ↔ ∀ x ∈ tr, ok x.1 x.2) ∧ ((∀ x ∈ tr, ok x.1 x.2) → I t) := by
    intro tr t h
    induction h with
    | nil => exact ⟨by simp [visited, hP s h0], fun _ => h0⟩
    | @snoc tr u u' l hp hl ih =>
      obtain ⟨ih1, ih2⟩ := ih
      have hlast : (∀ x ∈ tr ++ [(u, l)], ok x.1 x.2) ↔ (∀ x ∈ tr, ok x.1 x.2) ∧ ok u l := by
        simp only [List.mem_append, List.mem_singleton]
        constructor
        · intro h
          exact ⟨fun x hx => h x (Or.inl hx), h (u, l) (Or.inr rfl)⟩
        · rintro ⟨h1, h2⟩ x (hx | rfl)
          · exact h1 x hx
          · exact h2
      constructor
      · rw [hlast, visited_snoc]
        constructor
        · intro hall
          have hpre : ∀ x ∈ tr, ok x.1 x.2 :=
            ih1.mp (fun v hv => hall v (List.mem_append_left _ hv))
          refine ⟨hpre, ?_⟩
          by_contra hno
          exact hbad u l u' (ih2 hpre) hno hl (hall u' (List.mem_append_right _ (by simp)))
        · rintro ⟨hpre, hul⟩ v hv
          rcases List.mem_append.mp hv with hv | hv
          · exact ih1.mpr hpre v hv
          · rw [List.mem_singleton.mp hv]
            exact hP u' (hs u l u' (ih2 hpre) hul hl)
      · intro hall
        obtain ⟨hpre, hul⟩ := hlast.mp hall
        exact hs u l u' (ih2 hpre) hul hl
  exact (key h).1

open Classical in
/-- the same for the runs whose steps meet a standing condition `g` -/
theorem Path.all_iff_ok_of {I P : σ → Prop} {g ok : σ → ℓ → Prop} {s t : σ} {tr : List (σ × ℓ)}
    (h : Path step s tr t) (hg : ∀ x ∈ tr, g x.1 x.2) (h0 : I s) (hP : ∀ u, I u → P u)
    (hs : ∀ u l u', I u → g u l → ok u l → step u l = some u' → I u')
    (hbad : ∀ u l u', I u → g u l → ¬ ok u l → step u l = some u' → ¬ P u') :
    (∀ u ∈ visited tr t, P u) ↔ ∀ x ∈ tr, ok x.1 x.2 := by
  have hguard : Path (fun u l => if g u l then step u l else none) s tr t := by
    induction h with
    | nil => exact Path.nil
    | snoc _ hl ih =>
      refine (ih fun x hx => hg x (List.mem_append_left _ hx)).snoc ?_
      exact (if_pos (hg _ (List.mem_append_right _ List.mem_cons_self))).trans hl
  refine hguard.all_iff_ok h0 hP ?_ ?_
  · intro u l u' hi hok hl
    obtain ⟨hul, hl⟩ := Option.ite_none_right_eq_some.mp hl
    exact hs u l u' hi hul hok hl
  · intro u l u' hi hno hl
    obtain ⟨hul, hl⟩ := Option.ite_none_right_eq_some.mp hl
    exact hbad u l u' hi hul hno hl

/-! ## queues -/

/-- **First in, first out.**  When every step takes its output from the front of the queue `q` and
puts its input behind, so does the whole run. -/
theorem Path.fifo {α : Type*} {q : σ → List α} {ins outs : σ × ℓ → List α} {s t : σ}
    {tr : List (σ × ℓ)} (h : Path step s tr t)
    (hs : ∀ x ∈ tr, ∀ u, step x.1 x.2 = some u → q x.1 ++ ins x = outs x ++ q u) :
    q s ++ tr.flatMap ins = tr.flatMap outs ++ q t := by
  induction h with
  | nil => exact List.append_nil _
  | @snoc tr u u' l hp hl ih =>
    have hpre := ih fun x hx => hs x (List.mem_append_left _ hx)
    have hlast : q u ++ ins (u, l) = outs (u, l) ++ q u' :=
      hs (u, l) (List.mem_append_right _ List.mem_cons_self) u' hl
    rw [List.flatMap_append, List.flatMap_append, List.flatMap_singleton, List.flatMap_singleton,
      ← List.append_assoc, hpre, List.append_assoc, hlast, List.append_assoc]

/-! ## computed runs -/

/-- the run of a list of labels -/
def run (step : σ → ℓ → Option σ) : σ → List ℓ → Option σ
  | s, [] => some s
  | s, l :: ls => (step s l).bind fun t => run step t ls

/-- the trace of a list of labels -/
def trace (step : σ → ℓ → Option σ) : σ → List ℓ → List (σ × ℓ)
  | _, [] => []
  | s, l :: ls => (s, l) :: (step s l).elim [] fun t => trace step t ls

theorem path_run {s t : σ} {ls : List ℓ} (h : run step s ls = some t) :
    Path step s (trace step s ls) t := by
  induction ls generalizing s with
  | nil =>
    have e : s = t := by simpa [run] using h
    rw [e]; exact Path.nil
  | cons l ls ih =>
    cases hl : step s l with
    | none => simp [run, hl] at h
    | some u =>
      have hu : run step u ls = some t := by simpa [run, hl] using h
      have hp := (Path.one hl).trans (ih hu)
      simpa [trace, hl] using hp

end

end ShadowLan
