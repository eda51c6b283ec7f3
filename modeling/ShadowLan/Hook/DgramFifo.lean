import ShadowLan.Hook.DgramQueue

/-!
# When the datagram queues are bounded FIFOs

`dt_direct_udp_in` comes back to the row that it left, whoever has it by then; both scans come back
with the answers of a socket that may have been closed; and `dt_udp_push` makes a row for a number
that nobody has.  As long as none of this happens, the queues keep their promise.

* `Tidy`, `Inv`       one row, and all of the state;
* `Steady`            the step does not put a datagram under a number that was closed meanwhile, and
                      the push finds a row;
* `step_inv`          a steady step keeps the invariant.
-/

namespace ShadowLan

/-! ## one row -/

/-- a row in use: counter, tail and list agree -/
def QRow.Tidy (e : QRow) : Prop := e.used = true →
  e.closed = false ∧ e.nq = e.h.length ∧ e.h.length ≤ DT_MAXQ ∧ e.t = !e.h.isEmpty

theorem QRow.Tidy.append {e : QRow} (h : e.Tidy) (hu : e.used = true) (hq : e.nq < DT_MAXQ)
    (m : Msg) : (e.append m).Tidy ∧ (e.append m).h = e.h ++ [m] := by
  obtain ⟨hc, hn, hl, ht⟩ := h hu
  have hh : (e.append m).h = e.h ++ [m] := by
    show (if e.t then e.h ++ [m] else [m]) = _
    cases he : e.h with
    | nil => simp
    | cons x r =>
      rw [he] at ht
      rw [ht]
      rfl
  refine ⟨fun _ => ⟨hc, ?_, ?_, ?_⟩, hh⟩
  · show e.nq + 1 = _
    rw [hh, hn]
    simp
  · rw [hh, List.length_append, List.length_singleton]
    omega
  · rw [hh]
    show true = _
    simp

theorem QRow.Tidy.pop {e : QRow} (h : e.Tidy) {m : Msg} {r : List Msg} (he : e.h = m :: r) :
    e.pop.Tidy ∧ e.pop.h = r := by
  have hh : e.pop.h = r := by
    show e.h.tail = r
    rw [he]
    rfl
  refine ⟨fun hu => ?_, hh⟩
  obtain ⟨hc, hn, hl, ht⟩ := h hu
  rw [he] at hn hl ht
  refine ⟨hc, ?_, ?_, ?_⟩
  · show e.nq - 1 = _
    rw [hh, hn]
    simp
  · rw [hh]
    rw [List.length_cons] at hl
    omega
  · rw [hh]
    show (if e.h.tail = [] then false else e.t) = _
    rw [he, ht]
    cases r <;> rfl

namespace Queues
variable {s t : Queues}

/-! ## the table -/

theorem entry_some {n : Nat} {i : Fin DT_MAXUDP} (h : s.entry n = some i) :
    (s.g_uq i).used = true ∧ (s.g_uq i).gsock = n := by
  have hp := first_mem h
  simpa using hp

theorem entry_none {n : Nat} (h : s.entry n = none) (i : Fin DT_MAXUDP)
    (hu : (s.g_uq i).used = true) : (s.g_uq i).gsock ≠ n := by
  have hp := first_eq_none_iff.mp h i
  simpa [hu] using hp

/-- the row of a number: it was there, or a free one was taken, or there is none -/
theorem create_cases (s : Queues) (n : Nat) :
    (∃ i, s.entry n = some i ∧ s.create n = (s, some i)) ∨
    (∃ i, s.entry n = none ∧ (s.g_uq i).used = false ∧
      s.create n = (s.setRow i ⟨true, n, [], false, 0, false, 0⟩, some i)) ∨
    s.create n = (s, none) := by
  unfold create entry
  cases he : first s.g_uq fun e => e.used && e.gsock == n with
  | some i =>
    rw [claim_found he]
    exact Or.inl ⟨i, rfl, rfl⟩
  | none =>
    cases hf : first s.g_uq fun e => !e.used with
    | some i =>
      rw [claim_fresh he hf]
      have hfree := first_mem hf
      exact Or.inr (Or.inl ⟨i, rfl, by simpa using hfree, rfl⟩)
    | none =>
      rw [claim_full he hf]
      exact Or.inr (Or.inr rfl)

@[simp] theorem setRow_self (j : Fin DT_MAXUDP) (e : QRow) : (s.setRow j e).g_uq j = e := by
  show Function.update s.g_uq j e j = e
  rw [Function.update_self]

theorem setRow_of_ne {i j : Fin DT_MAXUDP} (e : QRow) (h : i ≠ j) :
    (s.setRow j e).g_uq i = s.g_uq i := by
  show Function.update s.g_uq j e i = s.g_uq i
  rw [Function.update_of_ne h]

theorem lifeOf_some {n l : Nat} : s.lifeOf n = some l ↔
    ∃ k, s.socks n = some k ∧ k.live = true ∧ k.life = l := by
  unfold lifeOf
  cases s.socks n with
  | none => simp
  | some k => cases hk : k.live <;> simp [hk]

theorem lifeOf_eq_none {n : Nat} : s.lifeOf n = none ↔ ∀ k, s.socks n = some k → k.live = false := by
  unfold lifeOf
  cases s.socks n with
  | none => simp
  | some k => cases hk : k.live <;> simp [hk]

/-! ## the invariant -/

/-- what a scan may count on: the socket that it has left the lock with still has its row unless it
was closed, and the rows that the scan has done are behind it -/
structure Scanning (s : Queues) (k : Nat) (c : Scan) : Prop where
  known : ∀ l, c.life = some l → l < s.lives
  keeps : ∀ l, c.life = some l → ∀ n, s.lifeOf n = some l →
    n = c.gs ∧ (s.g_uq c.row).used = true ∧ (s.g_uq c.row).gsock = c.gs
  behind : ∀ n l, s.lifeOf n = some l → k ∈ (s.arrived l).map Msg.call →
    ∃ j < c.row, (s.g_uq j).used = true ∧ (s.g_uq j).gsock = n

structure Inv (s : Queues) : Prop where
  tidy : ∀ i, (s.g_uq i).Tidy
  one : ∀ i j, (s.g_uq i).used = true → (s.g_uq j).used = true →
    (s.g_uq i).gsock = (s.g_uq j).gsock → i = j
  older : ∀ n k, s.socks n = some k → k.life < s.lives
  apart : ∀ n m k k', s.socks n = some k → s.socks m = some k' → k.life = k'.life → n = m
  /-- nothing waits under a number that nobody has -/
  dead : ∀ i, (s.g_uq i).used = true → s.lifeOf (s.g_uq i).gsock = none → (s.g_uq i).h = []
  row : ∀ i l, (s.g_uq i).used = true → s.lifeOf (s.g_uq i).gsock = some l →
    InOrder Reading.Of (s.arrived l) (s.popped l) (s.g_uq i).h (s.lost l)
  ended : ∀ l, (∀ i, (s.g_uq i).used = true → s.lifeOf (s.g_uq i).gsock ≠ some l) →
    InOrder Reading.Of (s.arrived l) (s.popped l) (s.unread l) (s.lost l)
  unread : ∀ n l, s.lifeOf n = some l → s.unread l = []
  unborn : ∀ l, s.lives ≤ l →
    s.arrived l = [] ∧ s.popped l = [] ∧ s.unread l = [] ∧ s.lost l = []
  called : ∀ l, ∀ k ∈ (s.arrived l).map Msg.call, k < s.calls
  once : ∀ l, ((s.arrived l).map Msg.call).Nodup
  scans : ∀ k c, s.scans k = some c → k < s.calls ∧ s.Scanning k c
  dropNew : ∀ x ∈ s.drops, x.nq = some (DT_MAXQ : Int)
  reused : ∀ q ∈ s.births, q = []

theorem Inv.boundedFifo (h : Inv s) : BoundedFifo s where
  count := fun i hu => by
    obtain ⟨-, hn, hl, -⟩ := h.tidy i hu
    exact ⟨hn, by omega⟩
  one := h.one
  fifo := h.row
  ended := h.ended
  once := h.once
  dropNew := h.dropNew
  reused := h.reused

theorem inv_init : Inv init where
  tidy := fun _ hu => by cases hu
  one := fun _ _ hu => by cases hu
  older := fun _ _ hk => by cases hk
  apart := fun _ _ _ _ hk => by cases hk
  dead := fun _ hu => by cases hu
  row := fun _ _ hu => by cases hu
  ended := fun _ _ => inOrder_nil
  unread := fun _ _ _ => rfl
  unborn := fun _ _ => ⟨rfl, rfl, rfl, rfl⟩
  called := fun _ _ hk => by cases hk
  once := fun _ => List.nodup_nil
  scans := fun _ _ hc => by cases hc
  dropNew := fun _ hx => by cases hx
  reused := fun _ hq => by cases hq

/-- two numbers do not have one life -/
theorem Inv.lives_apart (h : Inv s) {n m l : Nat} (hn : s.lifeOf n = some l)
    (hm : s.lifeOf m = some l) : n = m := by
  obtain ⟨k, hk, -, hl⟩ := lifeOf_some.mp hn
  obtain ⟨k', hk', -, hl'⟩ := lifeOf_some.mp hm
  exact h.apart n m k k' hk hk' (hl.trans hl'.symm)

theorem Inv.lifeOf_lt (h : Inv s) {n l : Nat} (hn : s.lifeOf n = some l) : l < s.lives := by
  obtain ⟨k, hk, -, rfl⟩ := lifeOf_some.mp hn
  exact h.older n k hk

/-- nothing waits in the row of a number that nobody has -/
theorem Inv.waits_nothing (h : Inv s) {n : Nat} {i : Fin DT_MAXUDP} (hu : (s.g_uq i).used = true)
    (hg : (s.g_uq i).gsock = n) (hn : s.lifeOf n = none) : (s.g_uq i).h = [] :=
  h.dead i hu (by rw [hg]; exact hn)

/-! ## what the scans keep -/

/-- A scan may go on when no life came back, the rows of the living stayed, and its call brought
nothing new. -/
theorem Scanning.later {k : Nat} {c : Scan} (h : s.Scanning k c) (hlives : s.lives ≤ t.lives)
    (hlife : ∀ n l, t.lifeOf n = some l → l < s.lives → s.lifeOf n = some l)
    (hrows : ∀ n l i, t.lifeOf n = some l → (s.g_uq i).used = true → (s.g_uq i).gsock = n →
      (t.g_uq i).used = true ∧ (t.g_uq i).gsock = n)
    (harr : ∀ n l, t.lifeOf n = some l → k ∈ (t.arrived l).map Msg.call →
      s.lifeOf n = some l ∧ k ∈ (s.arrived l).map Msg.call) : t.Scanning k c where
  known := fun l hl => lt_of_lt_of_le (h.known l hl) hlives
  keeps := fun l hl n hn => by
    obtain ⟨hgs, hu, hg⟩ := h.keeps l hl n (hlife n l hn (h.known l hl))
    have hrow := hrows n l c.row hn hu (hg.trans hgs.symm)
    exact ⟨hgs, hrow.1, hrow.2.trans hgs⟩
  behind := fun n l hn hk => by
    obtain ⟨hn', hk'⟩ := harr n l hn hk
    obtain ⟨j, hj, hu, hg⟩ := h.behind n l hn' hk'
    exact ⟨j, hj, hrows n l j hn hu hg⟩

/-! ## operations on rows -/

/-- a free row is given to a number that has none -/
theorem Inv.newRow (h : Inv s) {n : Nat} {i : Fin DT_MAXUDP} (hno : s.entry n = none)
    (hfree : (s.g_uq i).used = false) : Inv (s.setRow i ⟨true, n, [], false, 0, false, 0⟩) := by
  have hne : ∀ j, (s.g_uq j).used = true → j ≠ i := by
    rintro j hu rfl
    rw [hfree] at hu
    cases hu
  have hrow : ∀ j, ((s.setRow i ⟨true, n, [], false, 0, false, 0⟩).g_uq j).used = true →
      j = i ∨ (j ≠ i ∧ (s.g_uq j).used = true ∧
        (s.setRow i ⟨true, n, [], false, 0, false, 0⟩).g_uq j = s.g_uq j) := by
    intro j hu
    by_cases hj : j = i
    · exact Or.inl hj
    · rw [setRow_of_ne _ hj] at hu
      exact Or.inr ⟨hj, hu, setRow_of_ne _ hj⟩
  refine
    { older := h.older, apart := h.apart, unread := h.unread, unborn := h.unborn
      called := h.called, once := h.once, dropNew := h.dropNew, reused := h.reused
      tidy := ?_, one := ?_, dead := ?_, row := ?_, ended := ?_, scans := ?_ }
  · intro j hu
    rcases hrow j hu with rfl | ⟨-, hu', he⟩
    · rw [setRow_self]
      exact ⟨rfl, rfl, Nat.zero_le _, rfl⟩
    · rw [he]
      exact h.tidy j hu'
  · intro j j' hu hu' hg
    rcases hrow j hu with rfl | ⟨hj, hu1, he⟩
    · rcases hrow j' hu' with rfl | ⟨-, hu2, he'⟩
      · rfl
      · rw [setRow_self, he'] at hg
        exact absurd hg.symm (entry_none hno j' hu2)
    · rcases hrow j' hu' with rfl | ⟨-, hu2, he'⟩
      · rw [setRow_self, he] at hg
        exact absurd hg (entry_none hno j hu1)
      · rw [he, he'] at hg
        exact h.one j j' hu1 hu2 hg
  · intro j hu hl
    rcases hrow j hu with rfl | ⟨-, hu1, he⟩
    · rw [setRow_self]
    · rw [he] at hl ⊢
      exact h.dead j hu1 hl
  · intro j l hu hl
    rcases hrow j hu with rfl | ⟨-, hu1, he⟩
    · -- the number had no row, and nothing of its life was left unread
      rw [setRow_self] at hl ⊢
      have hnone := h.ended l fun j' hu' hl' => entry_none hno j' hu' (h.lives_apart hl' hl)
      rw [h.unread n l hl] at hnone
      exact hnone
    · rw [he] at hl ⊢
      exact h.row j l hu1 hl
  · intro l hl
    refine h.ended l fun j hu hl' => ?_
    have hj := setRow_of_ne (s := s) ⟨true, n, [], false, 0, false, 0⟩ (hne j hu)
    exact hl j (by rw [hj]; exact hu) (by rw [hj]; exact hl')
  · intro k c hc
    obtain ⟨hk, hscan⟩ := h.scans k c hc
    refine ⟨hk, hscan.later le_rfl (fun _ _ hl _ => hl) ?_ fun _ _ hl ha => ⟨hl, ha⟩⟩
    intro m l j _ hu hg
    rw [setRow_of_ne _ (hne j hu)]
    exact ⟨hu, hg⟩

/-- A row of the same socket with other content, while something comes for its life, is read or is
lost: the other lives keep what they had, and what is new comes with a call that scans no more. -/
theorem Inv.rework (h : Inv s) {j : Fin DT_MAXUDP} {e : QRow} {A : Nat → List Msg}
    {P : Nat → List Reading} {D : List Lost} (hj : (s.g_uq j).used = true) (hu : e.used = true)
    (hg : e.gsock = (s.g_uq j).gsock) (htidy : e.Tidy)
    (hdead : s.lifeOf e.gsock = none → e.h = [])
    (hq : ∀ l, s.lifeOf e.gsock = some l →
      InOrder Reading.Of (A l) (P l) e.h ({ s with drops := D }.lost l))
    (hrest : ∀ l, s.lifeOf e.gsock ≠ some l →
      A l = s.arrived l ∧ P l = s.popped l ∧ { s with drops := D }.lost l = s.lost l)
    (hcalls : ∀ l, ∀ k ∈ (A l).map Msg.call,
      k ∈ (s.arrived l).map Msg.call ∨ (k < s.calls ∧ s.scans k = none))
    (honce : ∀ l, ((A l).map Msg.call).Nodup) (hdrops : ∀ x ∈ D, x.nq = some (DT_MAXQ : Int)) :
    Inv { s.setRow j e with arrived := A, popped := P, drops := D } := by
  have hkeys : ∀ i, ((s.setRow j e).g_uq i).used = (s.g_uq i).used ∧
      ((s.setRow j e).g_uq i).gsock = (s.g_uq i).gsock := by
    intro i
    by_cases hi : i = j
    · rw [hi, setRow_self]
      exact ⟨hu.trans hj.symm, hg⟩
    · rw [setRow_of_ne _ hi]
      exact ⟨rfl, rfl⟩
  refine
    { older := h.older, apart := h.apart, unread := h.unread, once := honce
      dropNew := hdrops, reused := h.reused
      tidy := ?_, one := ?_, dead := ?_, row := ?_, ended := ?_, unborn := ?_, called := ?_
      scans := ?_ }
  · intro i
    show ((s.setRow j e).g_uq i).Tidy
    by_cases hi : i = j
    · rw [hi, setRow_self]
      exact htidy
    · rw [setRow_of_ne _ hi]
      exact h.tidy i
  · intro i i' hi hi' hgs
    have hi : ((s.setRow j e).g_uq i).used = true := hi
    have hi' : ((s.setRow j e).g_uq i').used = true := hi'
    have hgs : ((s.setRow j e).g_uq i).gsock = ((s.setRow j e).g_uq i').gsock := hgs
    rw [(hkeys i).1] at hi
    rw [(hkeys i').1] at hi'
    rw [(hkeys i).2, (hkeys i').2] at hgs
    exact h.one i i' hi hi' hgs
  · intro i hi hl
    have hi : ((s.setRow j e).g_uq i).used = true := hi
    have hl : s.lifeOf ((s.setRow j e).g_uq i).gsock = none := hl
    show ((s.setRow j e).g_uq i).h = []
    by_cases hij : i = j
    · rw [hij, setRow_self] at hl ⊢
      exact hdead hl
    · rw [setRow_of_ne _ hij] at hi hl ⊢
      exact h.dead i hi hl
  · intro i l hi hl
    have hi : ((s.setRow j e).g_uq i).used = true := hi
    have hl : s.lifeOf ((s.setRow j e).g_uq i).gsock = some l := hl
    show InOrder Reading.Of (A l) (P l) ((s.setRow j e).g_uq i).h ({ s with drops := D }.lost l)
    by_cases hij : i = j
    · rw [hij, setRow_self] at hl ⊢
      exact hq l hl
    · rw [setRow_of_ne _ hij] at hi hl ⊢
      have hother : s.lifeOf e.gsock ≠ some l := by
        intro hl'
        rw [hg] at hl'
        exact hij (h.one i j hi hj (h.lives_apart hl hl'))
      obtain ⟨hA, hP, hD⟩ := hrest l hother
      rw [hA, hP, hD]
      exact h.row i l hi hl
  · intro l hl
    have hnone : ∀ i, (s.g_uq i).used = true → s.lifeOf (s.g_uq i).gsock ≠ some l := by
      intro i hi hl'
      refine hl i ?_ ?_
      · exact (hkeys i).1.trans hi
      · show s.lifeOf ((s.setRow j e).g_uq i).gsock = some l
        rw [(hkeys i).2]
        exact hl'
    obtain ⟨hA, hP, hD⟩ := hrest l (by rw [hg]; exact hnone j hj)
    show InOrder Reading.Of (A l) (P l) (s.unread l) ({ s with drops := D }.lost l)
    rw [hA, hP, hD]
    exact h.ended l hnone
  · intro l hl
    have hl : s.lives ≤ l := hl
    obtain ⟨hA, hP, hD⟩ := hrest l fun hl' => absurd (h.lifeOf_lt hl') (not_lt.mpr hl)
    obtain ⟨ha, hp, hun, hlost⟩ := h.unborn l hl
    exact ⟨hA.trans ha, hP.trans hp, hun, hD.trans hlost⟩
  · intro l k hk
    rcases hcalls l k hk with hk | ⟨hlt, -⟩
    · exact h.called l k hk
    · exact hlt
  · intro k c hc
    have hc : s.scans k = some c := hc
    obtain ⟨hk, hscan⟩ := h.scans k c hc
    refine ⟨hk, hscan.later le_rfl (fun _ _ hl _ => hl) ?_ fun n l hl ha => ⟨hl, ?_⟩⟩
    · intro n l i _ hi hgs
      show ((s.setRow j e).g_uq i).used = true ∧ ((s.setRow j e).g_uq i).gsock = n
      rw [(hkeys i).1, (hkeys i).2]
      exact ⟨hi, hgs⟩
    · rcases hcalls l k ha with ha | ⟨-, hno⟩
      · exact ha
      · rw [hno] at hc
        cases hc

/-- a row of the same socket with other content, and with what its readers got meanwhile -/
theorem Inv.setRow_popped (h : Inv s) {j : Fin DT_MAXUDP} {e : QRow} {p : Nat → List Reading}
    (hj : (s.g_uq j).used = true) (hu : e.used = true) (hg : e.gsock = (s.g_uq j).gsock)
    (htidy : e.Tidy) (hdead : s.lifeOf e.gsock = none → e.h = [])
    (hq : ∀ l, s.lifeOf e.gsock = some l →
      InOrder Reading.Of (s.arrived l) (p l) e.h (s.lost l))
    (hp : ∀ l, s.lifeOf e.gsock ≠ some l → p l = s.popped l) :
    Inv { s.setRow j e with popped := p } :=
  h.rework hj hu hg htidy hdead hq (fun l hl => ⟨rfl, hp l hl, rfl⟩) (fun _ _ hk => Or.inl hk)
    h.once h.dropNew

theorem Inv.create (h : Inv s) (n : Nat) : Inv (s.create n).1 := by
  rcases create_cases s n with ⟨i, -, he⟩ | ⟨i, hno, hfree, he⟩ | he
  · rw [he]
    exact h
  · rw [he]
    exact h.newRow hno hfree
  · rw [he]
    exact h

/-- the row that `create` gives is the number's -/
theorem create_spec {n : Nat} {j : Fin DT_MAXUDP} (hc : (s.create n).2 = some j) :
    ((s.create n).1.g_uq j).used = true ∧ ((s.create n).1.g_uq j).gsock = n := by
  rcases create_cases s n with ⟨i, hi, he⟩ | ⟨i, -, -, he⟩ | he
  · rw [he] at hc ⊢
    cases hc
    exact entry_some hi
  · rw [he] at hc ⊢
    cases hc
    rw [setRow_self]
    exact ⟨rfl, rfl⟩
  · rw [he] at hc
    cases hc

/-- the row of a number presents another port -/
theorem Inv.present (h : Inv s) {j : Fin DT_MAXUDP} (hu : (s.g_uq j).used = true) (v : Nat) :
    Inv (s.setRow j { s.g_uq j with vport := v }) :=
  h.setRow_popped hu hu rfl (h.tidy j) (h.dead j hu) (fun l hl => h.row j l hu hl) fun _ _ => rfl

/-! ## what comes, and what is read -/

@[simp] theorem arrive_some (s : Queues) (l : Nat) (m : Msg) : s.arrive (some l) m =
    { s with arrived := Function.update s.arrived l (s.arrived l ++ [m]) } := rfl

@[simp] theorem arrive_none (s : Queues) (m : Msg) : s.arrive none m = s := rfl

/-- what came for a life so far came before -/
theorem arrive_mem {life : Option Nat} {m x : Msg} {l : Nat} :
    x ∈ (s.arrive life m).arrived l ↔ x ∈ s.arrived l ∨ (life = some l ∧ x = m) := by
  cases life with
  | none => simp
  | some l' =>
    show x ∈ Function.update s.arrived l' (s.arrived l' ++ [m]) l ↔ _
    by_cases hl : l = l'
    · rw [hl, Function.update_self]
      simp
    · rw [Function.update_of_ne hl]
      simp [Ne.symm hl]

/-- one more datagram that was lost -/
theorem lost_snoc (s : Queues) (x : Lost) (l : Nat) : { s with drops := s.drops ++ [x] }.lost l =
    if x.life = some l then s.lost l ++ [x.msg] else s.lost l := by
  unfold lost
  rw [List.filter_append, List.map_append, List.filter_singleton]
  by_cases hl : x.life = some l <;> simp [hl]

/-- A datagram comes for the life of a row, and the row takes it or its counter is noted. -/
theorem Inv.come (h : Inv s) {j : Fin DT_MAXUDP} {l : Nat} {m : Msg} {e : QRow} {D : List Lost}
    (hu : (s.g_uq j).used = true) (hl : s.lifeOf (s.g_uq j).gsock = some l) (hm : m.call < s.calls)
    (hscan : s.scans m.call = none) (hnew : m.call ∉ (s.arrived l).map Msg.call)
    (heu : e.used = true) (hg : e.gsock = (s.g_uq j).gsock) (htidy : e.Tidy)
    (hq : InOrder Reading.Of (s.arrived l ++ [m]) (s.popped l) e.h ({ s with drops := D }.lost l))
    (hrest : ∀ l', l' ≠ l → { s with drops := D }.lost l' = s.lost l')
    (hdrops : ∀ x ∈ D, x.nq = some (DT_MAXQ : Int)) :
    Inv { s.setRow j e with
      arrived := Function.update s.arrived l (s.arrived l ++ [m])
      drops := D } := by
  have hown : s.lifeOf e.gsock = some l := by rw [hg]; exact hl
  refine h.rework hu heu hg htidy (fun hno => ?_) (fun l' hl' => ?_) (fun l' hl' => ?_)
    (fun l' k hk => ?_) (fun l' => ?_) hdrops
  · rw [hown] at hno
    cases hno
  · cases Option.some.inj (hown.symm.trans hl')
    rw [Function.update_self]
    exact hq
  · have hne : l' ≠ l := by
      rintro rfl
      exact hl' hown
    exact ⟨Function.update_of_ne hne _ _, rfl, hrest l' hne⟩
  · by_cases hll : l' = l
    · rw [hll, Function.update_self, List.map_append, List.mem_append] at hk
      rw [hll]
      refine hk.imp id fun hk => ?_
      rw [List.mem_singleton.mp hk]
      exact ⟨hm, hscan⟩
    · rw [Function.update_of_ne hll] at hk
      exact Or.inl hk
  · by_cases hll : l' = l
    · rw [hll, Function.update_self, List.map_append]
      refine List.nodup_append.mpr ⟨h.once l, List.pairwise_singleton _ _, ?_⟩
      rintro a ha b hb rfl
      rw [List.map_singleton, List.mem_singleton] at hb
      exact hnew (hb ▸ ha)
    · rw [Function.update_of_ne hll]
      exact h.once l'

theorem setRow_eq_self (s : Queues) (j : Fin DT_MAXUDP) : s.setRow j (s.g_uq j) = s := by
  show { s with g_uq := Function.update s.g_uq j (s.g_uq j) } = s
  rw [Function.update_eq_self]

/-- a datagram is offered to the row of the life that it came for; for nobody it finds a full row -/
theorem Inv.offer (h : Inv s) {j : Fin DT_MAXUDP} {life : Option Nat} {m : Msg} {mem : Bool}
    (hu : (s.g_uq j).used = true) (hm : m.call < s.calls) (hscan : s.scans m.call = none)
    (hown : ∀ l, life = some l → s.lifeOf (s.g_uq j).gsock = some l ∧
      m.call ∉ (s.arrived l).map Msg.call)
    (hfit : (s.g_uq j).nq < DT_MAXQ → mem = true ∧ life.isSome = true) :
    Inv ((s.arrive life m).offer life j m mem) := by
  have hj : (s.arrive life m).g_uq j = s.g_uq j := by cases life <;> rfl
  have hdrops : ∀ x : Lost, x.nq = some (DT_MAXQ : Int) →
      ∀ y ∈ s.drops ++ [x], y.nq = some (DT_MAXQ : Int) := by
    intro x hx y hy
    rcases List.mem_append.mp hy with hy | hy
    · exact h.dropNew y hy
    · rw [List.mem_singleton.mp hy]
      exact hx
  unfold Queues.offer
  rw [hj]
  by_cases hroom : (s.g_uq j).nq < DT_MAXQ
  · obtain ⟨hmem, hsome⟩ := hfit hroom
    obtain ⟨l, rfl⟩ := Option.isSome_iff_exists.mp hsome
    obtain ⟨hlj, hnew⟩ := hown l rfl
    obtain ⟨htidy, hh⟩ := (h.tidy j).append hu hroom m
    rw [if_neg (by rw [hmem]; simpa using hroom)]
    refine h.come hu hlj hm hscan hnew hu rfl htidy ?_ (fun _ _ => rfl) h.dropNew
    rw [hh]
    exact (h.row j l hu hlj).put m
  · -- the row is full, and what is lost is noted with its counter
    have hnq : (s.g_uq j).nq = DT_MAXQ := by
      obtain ⟨-, hn, hlen, -⟩ := h.tidy j hu
      omega
    rw [if_pos (Or.inl (not_lt.mp hroom)), hnq]
    cases life with
    | none =>
      have hlost : ∀ l,
          { s with drops := s.drops ++ [(⟨none, m, some (DT_MAXQ : Int)⟩ : Lost)] }.lost l =
          s.lost l := fun l => (lost_snoc s _ l).trans (if_neg (by simp))
      have hback := h.rework (e := s.g_uq j) (A := s.arrived) (P := s.popped) hu hu rfl (h.tidy j)
        (h.dead j hu) (fun l hl => by rw [hlost]; exact h.row j l hu hl)
        (fun l _ => ⟨rfl, rfl, hlost l⟩) (fun _ _ hk => Or.inl hk) h.once (hdrops _ rfl)
      rw [setRow_eq_self] at hback
      exact hback
    | some l =>
      obtain ⟨hlj, hnew⟩ := hown l rfl
      have hlost : ∀ l',
          { s with drops := s.drops ++ [(⟨some l, m, some (DT_MAXQ : Int)⟩ : Lost)] }.lost l' =
          if some l = some l' then s.lost l' ++ [m] else s.lost l' := fun l' => lost_snoc s _ l'
      have hback := h.come (e := s.g_uq j) hu hlj hm hscan hnew hu rfl (h.tidy j)
        (by rw [hlost, if_pos rfl]; exact (h.row j l hu hlj).drop m)
        (fun l' hne => by rw [hlost, if_neg (by simpa using hne.symm)]) (hdrops _ rfl)
      rw [setRow_eq_self] at hback
      exact hback

theorem Inv.pop (h : Inv s) (n blen : Nat) : Inv (s.pop n blen) := by
  unfold Queues.pop
  cases he : s.entry n with
  | none => exact h
  | some j =>
    obtain ⟨hu, hg⟩ := entry_some he
    dsimp only
    cases hh : (s.g_uq j).h with
    | nil => exact h
    | cons m r =>
      dsimp only
      obtain ⟨htidy, htail⟩ := (h.tidy j).pop hh
      cases hl : s.lifeOf n with
      | none =>
        -- nothing waits under a number that nobody has
        have hnil := h.waits_nothing hu hg hl
        rw [hh] at hnil
        cases hnil
      | some l =>
        have hl' : s.lifeOf (s.g_uq j).gsock = some l := by rw [hg]; exact hl
        have hrow := h.row j l hu hl'
        rw [hh] at hrow
        refine h.setRow_popped hu hu rfl htidy ?_ ?_ ?_
        · intro hno
          have hno : s.lifeOf (s.g_uq j).gsock = none := hno
          rw [hl'] at hno
          cases hno
        · intro l1 hl1
          have hl1 : s.lifeOf (s.g_uq j).gsock = some l1 := hl1
          cases Option.some.inj (hl'.symm.trans hl1)
          rw [Function.update_self, htail]
          exact hrow.take ⟨rfl, rfl, rfl⟩
        · intro l1 hl1
          have hl1 : s.lifeOf (s.g_uq j).gsock ≠ some l1 := hl1
          rw [Function.update_of_ne]
          rintro rfl
          exact hl1 hl'

/-! ## sockets -/

/-- the lives after a change of one number -/
theorem lifeOf_update (n : Nat) (k : Option Sock) (m : Nat) :
    { s with socks := Function.update s.socks n k }.lifeOf m =
      if m = n then k.bind fun k => if k.live then some k.life else none else s.lifeOf m := by
  unfold lifeOf
  by_cases hm : m = n
  · rw [if_pos hm, hm]
    show (Function.update s.socks n k n).bind _ = _
    rw [Function.update_self]
  · rw [if_neg hm]
    show (Function.update s.socks n k m).bind _ = _
    rw [Function.update_of_ne hm]

/-- a number that has no other life than before -/
theorem Inv.same_ids (h : Inv s) {n : Nat} {k : Option Sock}
    (hk : ∀ k', k = some k' → ∃ k0, s.socks n = some k0 ∧ k'.life = k0.life) :
    (∀ m k', Function.update s.socks n k m = some k' → k'.life < s.lives) ∧
      ∀ m m' k1 k2, Function.update s.socks n k m = some k1 →
        Function.update s.socks n k m' = some k2 → k1.life = k2.life → m = m' := by
  have hold : ∀ m k', Function.update s.socks n k m = some k' →
      ∃ k0, s.socks m = some k0 ∧ k'.life = k0.life := by
    intro m k' hm
    by_cases hmn : m = n
    · rw [hmn, Function.update_self] at hm
      rw [hmn]
      exact hk k' hm
    · rw [Function.update_of_ne hmn] at hm
      exact ⟨k', hm, rfl⟩
  constructor
  · intro m k' hm
    obtain ⟨k0, h0, hl⟩ := hold m k' hm
    rw [hl]
    exact h.older m k0 h0
  · intro m m' k1 k2 h1 h2 hl
    obtain ⟨k1', h1', hl1⟩ := hold m k1 h1
    obtain ⟨k2', h2', hl2⟩ := hold m' k2 h2
    exact h.apart m m' k1' k2' h1' h2' (by rw [← hl1, ← hl2, hl])

/-- a number keeps its life, or goes on without one -/
theorem Inv.rename (h : Inv s) {n : Nat} {k : Option Sock}
    (hk : ∀ k', k = some k' → ∃ k0, s.socks n = some k0 ∧ k'.life = k0.life)
    (hsame : (k.bind fun k => if k.live then some k.life else none) = s.lifeOf n) :
    Inv { s with socks := Function.update s.socks n k } := by
  have hlife : ∀ m, { s with socks := Function.update s.socks n k }.lifeOf m = s.lifeOf m := by
    intro m
    rw [lifeOf_update, hsame]
    split
    next hm => rw [hm]
    next => rfl
  obtain ⟨holder, hapart⟩ := h.same_ids hk
  refine
    { tidy := h.tidy, one := h.one, older := holder, apart := hapart
      unborn := h.unborn, called := h.called, once := h.once, dropNew := h.dropNew
      reused := h.reused
      dead := ?_, row := ?_, ended := ?_, unread := ?_, scans := ?_ }
  · intro i hu hl
    exact h.dead i hu ((hlife _).symm.trans hl)
  · intro i l hu hl
    exact h.row i l hu ((hlife _).symm.trans hl)
  · intro l hl
    exact h.ended l fun i hu hl' => hl i hu ((hlife _).trans hl')
  · intro m l hl
    exact h.unread m l ((hlife m).symm.trans hl)
  · intro k c hc
    obtain ⟨hk, hscan⟩ := h.scans k c hc
    exact ⟨hk, hscan.later le_rfl (fun m l hl _ => (hlife m).symm.trans hl)
      (fun _ _ _ _ hu hg => ⟨hu, hg⟩) fun m l hl ha => ⟨(hlife m).symm.trans hl, ha⟩⟩

/-- a `bind` leaves the life of the number alone -/
theorem Inv.bind (h : Inv s) {n port : Nat} {k : Sock} (hk : s.socks n = some k) :
    Inv { s with socks := Function.update s.socks n (some { k with port := port }) } := by
  refine h.rename (fun k' hk' => ?_) ?_
  · cases hk'
    exact ⟨k, hk, rfl⟩
  · unfold lifeOf
    rw [hk]
    rfl

/-- the number of a socket whose life is over becomes free -/
theorem Inv.close (h : Inv s) {n : Nat} {k : Sock} (hk : s.socks n = some k)
    (hlive : ¬ k.live = true) : Inv { s with socks := Function.update s.socks n none } := by
  refine h.rename (fun k' hk' => by cases hk') ?_
  refine (lifeOf_eq_none.mpr fun k' hk' => ?_).symm
  cases hk.symm.trans hk'
  exact Bool.eq_false_iff.mpr hlive

/-- what came for a life that goes on was read, waits under its number, or was lost -/
theorem Inv.waits (h : Inv s) {n l : Nat} (hl : s.lifeOf n = some l) :
    InOrder Reading.Of (s.arrived l) (s.popped l) (s.waiting n) (s.lost l) := by
  unfold waiting
  cases he : s.entry n with
  | none =>
    have hnone := h.ended l fun i hu hl' => entry_none he i hu (h.lives_apart hl' hl)
    rw [h.unread n l hl] at hnone
    exact hnone
  | some j =>
    obtain ⟨hu, hg⟩ := entry_some he
    exact h.row j l hu (by rw [hg]; exact hl)

/-- a life that ends leaves unread what waits under its number -/
theorem unread_self {n l : Nat} (hl : s.lifeOf n = some l) :
    (s.lifeOf n).elim s.unread (fun l => Function.update s.unread l (s.waiting n)) l = s.waiting n := by
  rw [hl]
  exact Function.update_self ..

/-- the other lives leave what they left -/
theorem unread_other {n l : Nat} (hl : s.lifeOf n ≠ some l) :
    (s.lifeOf n).elim s.unread (fun l => Function.update s.unread l (s.waiting n)) l = s.unread l := by
  cases hn : s.lifeOf n with
  | none => rfl
  | some l' =>
    refine Function.update_of_ne ?_ _ _
    rintro rfl
    exact hl hn

/-- a life ends, and the rows that are left are those of the other numbers -/
theorem Inv.endLife (h : Inv s) (n : Nat) {g : Fin DT_MAXUDP → QRow}
    (hg : ∀ i, (g i).used = true → g i = s.g_uq i ∧ (s.g_uq i).gsock ≠ n)
    (hkeep : ∀ i, (s.g_uq i).used = true → (s.g_uq i).gsock ≠ n → g i = s.g_uq i) :
    Inv { s with
      g_uq := g
      socks := Function.update s.socks n ((s.socks n).map Sock.shut)
      unread := (s.lifeOf n).elim s.unread fun l =>
        Function.update s.unread l (s.waiting n) } := by
  have hk : ∀ k', (s.socks n).map Sock.shut = some k' →
      ∃ k0, s.socks n = some k0 ∧ k'.life = k0.life := by
    intro k' hk'
    obtain ⟨k0, h0, rfl⟩ := Option.map_eq_some_iff.mp hk'
    exact ⟨k0, h0, rfl⟩
  obtain ⟨holder, hapart⟩ := h.same_ids hk
  generalize hun : (s.lifeOf n).elim s.unread
    (fun l => Function.update s.unread l (s.waiting n)) = unread
  generalize ht : { s with
    g_uq := g
    socks := Function.update s.socks n ((s.socks n).map Sock.shut)
    unread := unread } = t
  have hlife : ∀ m, t.lifeOf m = if m = n then none else s.lifeOf m := by
    intro m
    rw [← ht]
    refine (lifeOf_update (s := s) n _ m).trans ?_
    cases s.socks n <;> rfl
  have hother : ∀ {m l}, t.lifeOf m = some l → m ≠ n ∧ s.lifeOf m = some l := by
    intro m l hl
    rw [hlife] at hl
    split at hl
    next => cases hl
    next hm => exact ⟨hm, hl⟩
  have hleft : ∀ l, s.lifeOf n ≠ some l → unread l = s.unread l := fun l hl => by
    rw [← hun, unread_other hl]
  have hrow : ∀ i, (t.g_uq i).used = true →
      (s.g_uq i).used = true ∧ t.g_uq i = s.g_uq i ∧ (s.g_uq i).gsock ≠ n := by
    intro i hu
    rw [← ht] at hu ⊢
    obtain ⟨he, hne⟩ := hg i hu
    have hu : (g i).used = true := hu
    rw [he] at hu
    exact ⟨hu, he, hne⟩
  have hsame : t.arrived = s.arrived ∧ t.popped = s.popped ∧ t.drops = s.drops ∧
      t.unread = unread ∧ t.scans = s.scans ∧ t.calls = s.calls ∧ t.lives = s.lives ∧
      t.births = s.births ∧ t.socks = Function.update s.socks n ((s.socks n).map Sock.shut) := by
    rw [← ht]
    exact ⟨rfl, rfl, rfl, rfl, rfl, rfl, rfl, rfl, rfl⟩
  obtain ⟨harr, hpop, hdrops, hunr, hscans, hcalls, hlives, hbirths, hsocks⟩ := hsame
  have hlost : ∀ l, t.lost l = s.lost l := fun l => by
    unfold lost
    rw [hdrops]
  constructor
  case tidy =>
    intro i hu
    obtain ⟨hu', he, -⟩ := hrow i hu
    rw [he]
    exact h.tidy i hu'
  case one =>
    intro i i' hu hu' hgs
    obtain ⟨hu1, he, -⟩ := hrow i hu
    obtain ⟨hu2, he', -⟩ := hrow i' hu'
    rw [he, he'] at hgs
    exact h.one i i' hu1 hu2 hgs
  case older =>
    rw [hsocks, hlives]
    exact holder
  case apart =>
    rw [hsocks]
    exact hapart
  case dead =>
    intro i hu hl
    obtain ⟨hu1, he, hne⟩ := hrow i hu
    rw [he, hlife, if_neg hne] at hl
    rw [he]
    exact h.dead i hu1 hl
  case row =>
    intro i l hu hl
    obtain ⟨hu1, he, -⟩ := hrow i hu
    rw [he] at hl ⊢
    rw [harr, hpop, hlost]
    exact h.row i l hu1 (hother hl).2
  case ended =>
    intro l hl
    rw [harr, hpop, hlost, hunr]
    by_cases hnl : s.lifeOf n = some l
    · rw [← hun, unread_self hnl]
      exact h.waits hnl
    · rw [hleft l hnl]
      refine h.ended l fun i hu hl' => ?_
      have hne : (s.g_uq i).gsock ≠ n := by
        intro hgs
        exact hnl (hgs ▸ hl')
      have hi : t.g_uq i = s.g_uq i := by
        rw [← ht]
        exact hkeep i hu hne
      refine hl i (by rw [hi]; exact hu) ?_
      rw [hi, hlife, if_neg hne]
      exact hl'
  case unread =>
    intro m l hl
    obtain ⟨hm, hl⟩ := hother hl
    rw [hunr, hleft l fun hnl => hm (h.lives_apart hl hnl)]
    exact h.unread m l hl
  case unborn =>
    intro l hl
    rw [hlives] at hl
    rw [harr, hpop, hlost, hunr, hleft l fun hnl => absurd (h.lifeOf_lt hnl) (not_lt.mpr hl)]
    exact h.unborn l hl
  case called =>
    rw [harr, hcalls]
    exact h.called
  case once =>
    rw [harr]
    exact h.once
  case scans =>
    intro k c hc
    rw [hscans] at hc
    obtain ⟨hk, hscan⟩ := h.scans k c hc
    refine ⟨by rw [hcalls]; exact hk, hscan.later (le_of_eq hlives.symm)
      (fun m l hl _ => (hother hl).2) ?_ fun m l hl ha => ⟨(hother hl).2, harr ▸ ha⟩⟩
    intro m l i hl hu hgs
    have hi : t.g_uq i = s.g_uq i := by
      rw [← ht]
      exact hkeep i hu (by rw [hgs]; exact (hother hl).1)
    rw [hi]
    exact ⟨hu, hgs⟩
  case dropNew =>
    rw [hdrops]
    exact h.dropNew
  case reused =>
    rw [hbirths]
    exact h.reused

theorem Inv.onClose (h : Inv s) (n : Nat) :
    Inv { (s.entry n).elim s (fun j => s.setRow j (s.g_uq j).free) with
      socks := Function.update s.socks n ((s.socks n).map Sock.shut)
      unread := (s.lifeOf n).elim s.unread fun l =>
        Function.update s.unread l (s.waiting n) } := by
  cases he : s.entry n with
  | none => exact h.endLife n (fun i hu => ⟨rfl, entry_none he i hu⟩) fun _ _ _ => rfl
  | some j =>
    obtain ⟨hu, hg⟩ := entry_some he
    refine h.endLife n (g := Function.update s.g_uq j (s.g_uq j).free) (fun i hui => ?_)
      fun i hui hgi => ?_
    · have hi : i ≠ j := by
        rintro rfl
        rw [Function.update_self] at hui
        cases hui
      rw [Function.update_of_ne hi] at hui ⊢
      exact ⟨rfl, fun hgi => hi (h.one i j hui hu (hgi.trans hg.symm))⟩
    · have hi : i ≠ j := by
        rintro rfl
        exact hgi hg
      exact Function.update_of_ne hi _ _

theorem Inv.socket (h : Inv s) {n : Nat} (dgram : Bool) (hno : s.socks n = none) :
    Inv { s with
      socks := Function.update s.socks n (some ⟨s.lives, true, 0, dgram⟩)
      lives := s.lives + 1
      births := s.births ++ [s.waiting n] } := by
  have hdead : s.lifeOf n = none := lifeOf_eq_none.mpr fun k hk => by
    rw [hno] at hk
    cases hk
  have hwait : s.waiting n = [] := by
    unfold waiting
    cases he : s.entry n with
    | none => rfl
    | some j =>
      obtain ⟨hu, hg⟩ := entry_some he
      exact h.waits_nothing hu hg hdead
  obtain ⟨ha, hp, hun, hlost⟩ := h.unborn s.lives le_rfl
  have hnew : InOrder Reading.Of (s.arrived s.lives) (s.popped s.lives) [] (s.lost s.lives) := by
    rw [ha, hp, hlost]
    exact inOrder_nil
  have hlife : ∀ m, { s with
      socks := Function.update s.socks n (some ⟨s.lives, true, 0, dgram⟩)
      lives := s.lives + 1
      births := s.births ++ [s.waiting n] }.lifeOf m = if m = n then some s.lives else s.lifeOf m :=
    fun m => lifeOf_update n (some ⟨s.lives, true, 0, dgram⟩) m
  have hold : ∀ m k', Function.update s.socks n (some ⟨s.lives, true, 0, dgram⟩) m = some k' →
      (m = n ∧ k'.life = s.lives) ∨ (m ≠ n ∧ s.socks m = some k') := by
    intro m k' hm
    by_cases hmn : m = n
    · rw [hmn, Function.update_self] at hm
      cases hm
      exact Or.inl ⟨hmn, rfl⟩
    · rw [Function.update_of_ne hmn] at hm
      exact Or.inr ⟨hmn, hm⟩
  refine
    { tidy := h.tidy, one := h.one, called := h.called, once := h.once, dropNew := h.dropNew
      older := ?_, apart := ?_, dead := ?_, row := ?_, ended := ?_, unread := ?_, unborn := ?_
      scans := ?_, reused := ?_ }
  · intro m k' hm
    rcases hold m k' hm with ⟨-, hl⟩ | ⟨-, hm⟩
    · rw [hl]
      exact Nat.lt_succ_self _
    · exact Nat.lt_succ_of_lt (h.older m k' hm)
  · intro m m' k1 k2 h1 h2 hl
    rcases hold m k1 h1 with ⟨hm, hl1⟩ | ⟨-, h1⟩
    · rcases hold m' k2 h2 with ⟨hm', -⟩ | ⟨-, h2⟩
      · rw [hm, hm']
      · have hlt := h.older m' k2 h2
        omega
    · rcases hold m' k2 h2 with ⟨-, hl2⟩ | ⟨-, h2⟩
      · have hlt := h.older m k1 h1
        omega
      · exact h.apart m m' k1 k2 h1 h2 hl
  · intro i hu hl
    rw [hlife] at hl
    split at hl
    next => cases hl
    next => exact h.dead i hu hl
  · intro i l hu hl
    rw [hlife] at hl
    split at hl
    next hg =>
      cases hl
      show InOrder Reading.Of (s.arrived s.lives) (s.popped s.lives) (s.g_uq i).h (s.lost s.lives)
      rw [h.waits_nothing hu hg hdead]
      exact hnew
    next => exact h.row i l hu hl
  · intro l hl
    by_cases hls : l = s.lives
    · show InOrder Reading.Of (s.arrived l) (s.popped l) (s.unread l) (s.lost l)
      rw [hls, hun]
      exact hnew
    · refine h.ended l fun i hu hl' => hl i hu ?_
      rw [hlife, if_neg]
      · exact hl'
      · intro hg
        have hl' : s.lifeOf (s.g_uq i).gsock = some l := hl'
        rw [hg, hdead] at hl'
        cases hl'
  · intro m l hl
    rw [hlife] at hl
    split at hl
    next =>
      cases hl
      exact hun
    next => exact h.unread m l hl
  · intro l hl
    exact h.unborn l (Nat.le_of_succ_le hl)
  · intro k c hc
    obtain ⟨hk, hscan⟩ := h.scans k c hc
    refine ⟨hk, hscan.later (Nat.le_succ _) ?_ (fun _ _ _ _ hu hg => ⟨hu, hg⟩) ?_⟩
    · intro m l hl hlt
      rw [hlife] at hl
      split at hl
      next =>
        cases hl
        exact absurd hlt (lt_irrefl _)
      next => exact hl
    · intro m l hl ha'
      rw [hlife] at hl
      split at hl
      next =>
        cases hl
        have ha' : k ∈ (s.arrived s.lives).map Msg.call := ha'
        rw [ha] at ha'
        cases ha'
      next => exact ⟨hl, ha'⟩
  · intro q hq
    rcases List.mem_append.mp hq with hq | hq
    · exact h.reused q hq
    · rw [List.mem_singleton.mp hq]
      exact hwait

/-! ## the producers -/

/-- other scans, and more calls -/
theorem Inv.withScans (h : Inv s) {n : Nat} {f : Nat → Option Scan} (hn : s.calls ≤ n)
    (hf : ∀ k c, f k = some c → k < n ∧ s.Scanning k c) :
    Inv { s with calls := n, scans := f } :=
  { tidy := h.tidy, one := h.one, older := h.older, apart := h.apart, dead := h.dead
    row := h.row, ended := h.ended, unread := h.unread, unborn := h.unborn, once := h.once
    reused := h.reused, dropNew := h.dropNew
    called := fun l k hk => lt_of_lt_of_le (h.called l k hk) hn
    scans := fun k c hc => ⟨(hf k c hc).1, ⟨(hf k c hc).2.known, (hf k c hc).2.keeps,
      (hf k c hc).2.behind⟩⟩ }

/-- one scan begins, goes on or ends -/
theorem Inv.withScan (h : Inv s) {n k : Nat} {c : Option Scan} (hn : s.calls ≤ n) (hk : k < n)
    (hc : ∀ c', c = some c' → s.Scanning k c') :
    Inv { s with calls := n, scans := Function.update s.scans k c } := by
  refine h.withScans hn fun k' c' hc' => ?_
  by_cases hkk : k' = k
  · rw [hkk, Function.update_self] at hc'
    rw [hkk]
    exact ⟨hk, hc c' hc'⟩
  · rw [Function.update_of_ne hkk] at hc'
    exact ⟨lt_of_lt_of_le (h.scans k' c' hc').1 hn, (h.scans k' c' hc').2⟩

/-- the row that a scan comes to is in use, and not one that it has done -/
theorem nextRow_spec {i : Nat} {j : Fin DT_MAXUDP} (h : s.nextRow i = some j) :
    i ≤ j.val ∧ (s.g_uq j).used = true := by
  have hp := first_mem h
  simp only [Bool.and_eq_true, decide_eq_true_eq] at hp
  exact ⟨hp.1.1, hp.1.2⟩

theorem Inv.look (h : Inv s) {direct : Bool} {port i k : Nat} {dg : Dgram} {c : Scan}
    (hbehind : ∀ n l, s.lifeOf n = some l → k ∈ (s.arrived l).map Msg.call →
      ∃ j : Fin DT_MAXUDP, j.val < i ∧ (s.g_uq j).used = true ∧ (s.g_uq j).gsock = n)
    (hc : s.look direct port dg i = some c) : s.Scanning k c := by
  obtain ⟨j, hj, rfl⟩ := Option.map_eq_some_iff.mp hc
  obtain ⟨hij, hu⟩ := nextRow_spec hj
  refine ⟨fun l hl => h.lifeOf_lt hl, fun l hl n hn => ⟨h.lives_apart hn hl, hu, rfl⟩, ?_⟩
  intro n l hn hk
  obtain ⟨j', hj', hu', hg'⟩ := hbehind n l hn hk
  exact ⟨j', Fin.lt_def.mpr (lt_of_lt_of_le hj' hij), hu', hg'⟩

/-- nothing came yet with the next call -/
theorem Inv.fresh (h : Inv s) (l : Nat) : s.calls ∉ (s.arrived l).map Msg.call := fun hk =>
  lt_irrefl _ (h.called l s.calls hk)

theorem Inv.begin (h : Inv s) (direct : Bool) (port : Nat) (dg : Dgram) :
    Inv (s.begin direct port dg) :=
  h.withScan (Nat.le_succ _) (Nat.lt_succ_self _) fun _ hc =>
    h.look (fun _ l _ hin => absurd hin (h.fresh l)) hc

theorem Inv.ask (h : Inv s) {k : Nat} {c : Scan} (hc : s.scans k = some c) :
    Inv { s with scans := Function.update s.scans k (some (s.ask c)) } := by
  obtain ⟨hk, hscan⟩ := h.scans k c hc
  refine h.withScan le_rfl hk fun c' hc' => ?_
  cases hc'
  exact ⟨hscan.known, hscan.keeps, hscan.behind⟩

/-! ## steady steps -/

/-- A push is for a socket that is there, and finds a row; a port is presented for a socket that is
bound; a scan that has the lock again puts its datagram on a row whose socket is the datagram socket
that it let go of the lock with; and when the row has room there is memory. -/
def Steady (s : Queues) : QueueAct → Prop
  | .push n _ mem => (s.lifeOf n).isSome = true ∧
      ∃ j, (s.create n).2 = some j ∧ (((s.create n).1.g_uq j).nq < DT_MAXQ → mem = true)
  | .bindAlias n _ => (s.lifeOf n).isSome = true → s.boundPort n ≠ 0
  | .deliver k mem => ∀ c ∈ s.scans k, ∀ j ∈ s.target c, (s.g_uq j).nq < DT_MAXQ →
      mem = true ∧ c.life.isSome = true ∧ s.lifeOf (s.g_uq j).gsock = c.life ∧
        s.isDgram (s.g_uq j).gsock = true
  | _ => True

instance (s : Queues) (a : QueueAct) : Decidable (Steady s a) := by
  cases a <;> unfold Steady <;> infer_instance

/-- nothing scans with the next call -/
theorem Inv.no_scan (h : Inv s) : s.scans s.calls = none := by
  cases hc : s.scans s.calls with
  | none => rfl
  | some c => exact absurd (h.scans s.calls c hc).1 (lt_irrefl _)

/-- a steady push takes its call and is offered to the row of its socket -/
theorem Inv.push_eq (h : Inv s) {n l : Nat} {d : Dgram} {mem : Bool} {j : Fin DT_MAXUDP}
    (hl : s.lifeOf n = some l) (hj : (s.create n).2 = some j) : s.push n d mem =
      ({ (s.create n).1 with calls := s.calls + 1 }.arrive (some l) ⟨s.calls, .sock n, d⟩).offer
        (some l) j ⟨s.calls, .sock n, d⟩ mem := by
  have hopen : ((s.create n).1.g_uq j).closed = false :=
    ((h.create n).tidy j (create_spec hj).1).1
  have hcreate : ({ s with calls := s.calls + 1 }.arrive (some l) ⟨s.calls, .sock n, d⟩).create n =
      ({ (s.create n).1 with calls := s.calls + 1 }.arrive (some l) ⟨s.calls, .sock n, d⟩,
        (s.create n).2) := rfl
  unfold Queues.push
  dsimp only
  rw [hl, hcreate, hj]
  exact if_neg (by rw [arrive_some]; simp [hopen])

theorem Inv.push (h : Inv s) {n : Nat} {d : Dgram} {mem : Bool} (hok : Steady s (.push n d mem)) :
    Inv (s.push n d mem) := by
  obtain ⟨hlive, j, hj, hmem⟩ := hok
  obtain ⟨l, hl⟩ := Option.isSome_iff_exists.mp hlive
  -- the call takes its number, and the row is there
  have hrow : Inv { (s.create n).1 with calls := s.calls + 1 } :=
    (h.create n).withScans (Nat.le_succ _)
      fun k c hc => ⟨Nat.lt_succ_of_lt ((h.create n).scans k c hc).1, ((h.create n).scans k c hc).2⟩
  obtain ⟨hu, hg⟩ := create_spec hj
  have hlj : s.lifeOf ((s.create n).1.g_uq j).gsock = some l := by
    rw [hg]
    exact hl
  rw [h.push_eq hl hj]
  refine hrow.offer hu (Nat.lt_succ_self _) h.no_scan (fun l' hl' => ?_) fun hroom => ⟨hmem hroom, rfl⟩
  cases hl'
  exact ⟨hlj, h.fresh l⟩

theorem offer_scans (s : Queues) (f : Nat → Option Scan) (life : Option Nat) (j : Fin DT_MAXUDP)
    (m : Msg) (mem : Bool) : ({ s with scans := f }.arrive life m).offer life j m mem =
      { (s.arrive life m).offer life j m mem with scans := f } := by
  have harr : { s with scans := f }.arrive life m = { s.arrive life m with scans := f } := by
    cases life <;> rfl
  rw [harr]
  unfold offer
  dsimp only
  split <;> rfl

/-- what an offer leaves alone: sockets, calls, scans, and who has the rows under which port -/
structure SameRows (s t : Queues) : Prop where
  socks : t.socks = s.socks
  calls : t.calls = s.calls
  scans : t.scans = s.scans
  rows : ∀ i, (t.g_uq i).used = (s.g_uq i).used ∧ (t.g_uq i).gsock = (s.g_uq i).gsock ∧
    (t.g_uq i).vport = (s.g_uq i).vport

theorem sameRows_offer (s : Queues) (life : Option Nat) (j : Fin DT_MAXUDP) (m : Msg) (mem : Bool) :
    SameRows s ((s.arrive life m).offer life j m mem) := by
  have hput : ∀ u : Queues, u.g_uq = s.g_uq → ∀ i,
      ((u.setRow j ((u.g_uq j).append m)).g_uq i).used = (s.g_uq i).used ∧
      ((u.setRow j ((u.g_uq j).append m)).g_uq i).gsock = (s.g_uq i).gsock ∧
      ((u.setRow j ((u.g_uq j).append m)).g_uq i).vport = (s.g_uq i).vport := by
    intro u hu i
    by_cases hi : i = j
    · rw [hi, setRow_self, hu]
      exact ⟨rfl, rfl, rfl⟩
    · rw [setRow_of_ne _ hi, hu]
      exact ⟨rfl, rfl, rfl⟩
  unfold offer
  split
  · cases life <;> exact ⟨rfl, rfl, rfl, fun _ => ⟨rfl, rfl, rfl⟩⟩
  · cases life with
    | none => exact ⟨rfl, rfl, rfl, hput s rfl⟩
    | some l => exact ⟨rfl, rfl, rfl, hput (s.arrive (some l) m) rfl⟩

theorem SameRows.lifeOf {s t : Queues} (h : SameRows s t) (n : Nat) : t.lifeOf n = s.lifeOf n := by
  unfold Queues.lifeOf
  rw [h.socks]

theorem offer_arrived (s : Queues) (life : Option Nat) (j : Fin DT_MAXUDP) (m : Msg) (mem : Bool) :
    ((s.arrive life m).offer life j m mem).arrived = (s.arrive life m).arrived := by
  unfold offer
  split <;> rfl

theorem target_used {c : Scan} {j : Fin DT_MAXUDP} (h : s.target c = some j) :
    (s.g_uq j).used = true := by
  unfold target at h
  split at h
  · cases h
  · split at h
    · obtain ⟨hc, hj⟩ := Option.ite_none_right_eq_some.mp h
      cases hj
      exact hc.1
    · exact (entry_some (Option.filter_eq_some_iff.mp h).1).1

/-- the row that a scan takes is the one that it let go of the lock at, or its socket's -/
theorem target_row {c : Scan} {j : Fin DT_MAXUDP} (h : s.target c = some j) :
    j = c.row ∨ (s.g_uq j).gsock = c.gs := by
  unfold target at h
  split at h
  · cases h
  · split at h
    · obtain ⟨-, hj⟩ := Option.ite_none_right_eq_some.mp h
      exact Or.inl (Option.some.inj hj).symm
    · exact Or.inr (entry_some (Option.filter_eq_some_iff.mp h).1).2

theorem forLife_some {c : Scan} {l : Nat} : s.forLife c = some l ↔
    c.life = some l ∧ s.lifeOf c.gs = some l ∧ s.isDgram c.gs = true := by
  unfold forLife
  rw [Option.ite_none_right_eq_some]
  constructor
  · rintro ⟨⟨hl, hd⟩, hc⟩
    exact ⟨hc, hl.trans hc, hd⟩
  · rintro ⟨hc, hl, hd⟩
    exact ⟨⟨hl.trans hc.symm, hd⟩, hc⟩

/-- the row that a scan takes for a life is the one that it let go of the lock at, and the life's -/
theorem Inv.target_own (h : Inv s) {k l : Nat} {c : Scan} {j : Fin DT_MAXUDP}
    (hc : s.scans k = some c) (hj : s.target c = some j) (hl : s.forLife c = some l) :
    j = c.row ∧ (s.g_uq j).gsock = c.gs := by
  obtain ⟨hlife, hgs, -⟩ := forLife_some.mp hl
  obtain ⟨-, hu, hg⟩ := (h.scans k c hc).2.keeps l hlife _ hgs
  rcases target_row hj with rfl | hjg
  · exact ⟨rfl, hg⟩
  · exact ⟨h.one j c.row (target_used hj) hu (hjg.trans hg.symm), hjg⟩

/-- a steady scan that has found a row with room brings its datagram to the row's life -/
theorem Inv.target_life (h : Inv s) {k : Nat} {c : Scan} {mem : Bool} {j : Fin DT_MAXUDP}
    (hc : s.scans k = some c) (hok : Steady s (.deliver k mem)) (hj : s.target c = some j)
    (hroom : (s.g_uq j).nq < DT_MAXQ) : mem = true ∧ (s.forLife c).isSome = true := by
  obtain ⟨hmem, hsome, heq, hd⟩ := hok c hc j hj hroom
  obtain ⟨l, hl⟩ := Option.isSome_iff_exists.mp hsome
  have hlj : s.lifeOf (s.g_uq j).gsock = some l := heq.trans hl
  obtain ⟨hgs, -, -⟩ := (h.scans k c hc).2.keeps l hl _ hlj
  rw [hgs] at hlj hd
  exact ⟨hmem, by rw [forLife_some.mpr ⟨hl, hlj, hd⟩]; rfl⟩

theorem Inv.deliver (h : Inv s) {k : Nat} {c : Scan} {mem : Bool} (hc : s.scans k = some c)
    (hok : Steady s (.deliver k mem)) : Inv (s.deliver k c mem) := by
  obtain ⟨hk, hscan⟩ := h.scans k c hc
  unfold Queues.deliver
  dsimp only
  cases htarget : s.target c with
  | none =>
    refine h.withScan le_rfl hk fun _ hc' => h.look (fun n l hn hin => ?_) hc'
    obtain ⟨j, hj, hu⟩ := hscan.behind n l hn hin
    exact ⟨j, Nat.lt_succ_of_lt hj, hu⟩
  | some j =>
    dsimp only
    -- while its datagram is put, the scan is taken out
    have hout : Inv { s with scans := Function.update s.scans k none } :=
      h.withScan le_rfl hk fun _ hc' => by cases hc'
    have hput : Inv (({ s with scans := Function.update s.scans k none }.arrive (s.forLife c)
        (c.msg k)).offer (s.forLife c) j (c.msg k) mem) := by
      refine hout.offer (target_used htarget) hk (Function.update_self _ _ _) (fun l hl => ?_)
        fun hroom => h.target_life hc hok htarget hroom
      obtain ⟨hj, hjg⟩ := h.target_own hc htarget hl
      obtain ⟨-, hgs, -⟩ := forLife_some.mp hl
      refine ⟨by rw [hjg]; exact hgs, fun hin => ?_⟩
      -- the rows that the scan has done are behind it
      obtain ⟨j', hj', hu', hg'⟩ := hscan.behind c.gs l hgs hin
      have hsame := h.one j' j hu' (target_used htarget) (hg'.trans hjg.symm)
      rw [hsame, hj] at hj'
      exact lt_irrefl _ hj'
    rw [offer_scans] at hput
    have hrows := sameRows_offer s (s.forLife c) j (c.msg k) mem
    have harrived := offer_arrived s (s.forLife c) j (c.msg k) mem
    generalize hu : (s.arrive (s.forLife c) (c.msg k)).offer (s.forLife c) j (c.msg k) mem = u at *
    have hlook : ∀ c', u.look c.direct c.port c.dg (c.row + 1) = some c' →
        { u with scans := Function.update s.scans k none }.Scanning k c' := by
      refine fun c' hc' => hput.look (fun n l hn hin => ?_) hc'
      have hn : u.lifeOf n = some l := hn
      have hin : k ∈ (u.arrived l).map Msg.call := hin
      rw [hrows.lifeOf] at hn
      rw [harrived, List.mem_map] at hin
      obtain ⟨m, hm, hmk⟩ := hin
      rcases arrive_mem.mp hm with hm | ⟨hnow, -⟩
      · obtain ⟨j', hj', hu', hg'⟩ := hscan.behind n l hn (hmk ▸ List.mem_map_of_mem hm)
        exact ⟨j', Nat.lt_succ_of_lt hj', (hrows.rows j').1.trans hu', (hrows.rows j').2.1.trans hg'⟩
      · obtain ⟨hgs, hcu, hcg⟩ := hscan.keeps l (forLife_some.mp hnow).1 n hn
        exact ⟨c.row, Nat.lt_succ_self _, (hrows.rows c.row).1.trans hcu,
          (hrows.rows c.row).2.1.trans (hcg.trans hgs.symm)⟩
    have hback := hput.withScan (c := u.look c.direct c.port c.dg (c.row + 1)) le_rfl
      (show k < u.calls by rw [hrows.calls]; exact hk) hlook
    dsimp only at hback
    rw [Function.update_idem] at hback
    rw [hrows.scans]
    exact hback

/-- **One step.**  A steady step keeps the invariant. -/
theorem step_inv (h : Inv s) {a : QueueAct} (hok : Steady s a) (hst : step s a = some t) : Inv t := by
  cases a with
  | socket n dgram =>
    obtain ⟨hno, hst⟩ := Option.ite_none_left_eq_some.mp hst
    cases hst
    exact h.socket dgram (Option.not_isSome_iff_eq_none.mp hno)
  | bind n port =>
    simp only [step] at hst
    split at hst
    · cases hst
    · rename_i k hk
      obtain ⟨-, hst⟩ := Option.ite_none_left_eq_some.mp hst
      cases hst
      exact h.bind hk
  | ensure n =>
    cases hst
    exact h.create n
  | bindAlias n v =>
    have hc := h.create n
    obtain ⟨-, hst⟩ := Option.ite_none_left_eq_some.mp hst
    rw [← Option.some.inj hst]
    cases hj : (s.create n).2 with
    | none => exact hc
    | some j => exact hc.present (create_spec hj).1 v
  | push n d mem =>
    cases hst
    exact h.push hok
  | pop n blen =>
    cases hst
    exact h.pop n blen
  | onClose n =>
    cases hst
    exact h.onClose n
  | close n =>
    simp only [step] at hst
    split at hst
    · cases hst
    · rename_i k hk
      obtain ⟨hlive, hst⟩ := Option.ite_none_left_eq_some.mp hst
      cases hst
      exact h.close hk hlive
  | directIn gport ip raw =>
    simp only [step, Option.some.injEq] at hst
    rw [← hst]
    cases directSrc gport ip raw with
    | none => exact h
    | some src => exact h.begin true gport ⟨raw, src⟩
  | bcastIn virt fakeip port sport raw =>
    cases hst
    exact h.begin false port _
  | ask k =>
    simp only [step] at hst
    split at hst
    · cases hst
    · rename_i c hc
      obtain ⟨-, hst⟩ := Option.ite_none_right_eq_some.mp hst
      cases hst
      exact h.ask hc
  | deliver k mem =>
    simp only [step] at hst
    split at hst
    · cases hst
    · rename_i c hc
      obtain ⟨-, hst⟩ := Option.ite_none_left_eq_some.mp hst
      cases hst
      exact h.deliver hc hok

/-- what a life's readers got is a subsequence of what came for it -/
theorem BoundedFifo.read_came (h : BoundedFifo s) (l : Nat) :
    ∃ taken, List.Forall₂ Reading.Of (s.popped l) taken ∧ taken.Sublist (s.arrived l) := by
  have hof : ∀ {q lost}, InOrder Reading.Of (s.arrived l) (s.popped l) q lost →
      ∃ taken, List.Forall₂ Reading.Of (s.popped l) taken ∧ taken.Sublist (s.arrived l) := by
    rintro q lost ⟨taken, hR, hsub, -⟩
    exact ⟨taken, hR, (List.sublist_append_left taken q).trans hsub⟩
  by_cases hrow : ∀ i, (s.g_uq i).used = true → s.lifeOf (s.g_uq i).gsock ≠ some l
  · exact hof (h.ended l hrow)
  · push Not at hrow
    obtain ⟨i, hu, hl⟩ := hrow
    exact hof (h.fifo i l hu hl)

end Queues

end ShadowLan
