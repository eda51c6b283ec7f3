import ShadowLan.Relay.Queue

/-!
# Which calls a stalled peer can harm

A call that finds room, or whose frame may be dropped, returns before it is ever suspended.  Any
other call sleeps, and from then on there is a way to go wrong that needs nothing from the peer:
the queue's task ends and the call finds the counters gone, or the task has stopped taking
elements and the call sleeps for ever.

* `Wf`                   what holds of the tables in every reachable state;
* `putting_stays`        a call in `q.put` is never woken;
* `Jam`, `jam_stays`     full counters that no one lowers any more;
* `polling_harmed`       a call that sleeps is harmed;
* `unharmed_iff`         the exact condition.
-/

namespace ShadowLan
namespace SendQ
variable {s t : SendQ}

/-! ## the invariant -/

/-- the frames among the elements of a queue object -/
def frames (s : SendQ) (q : Nat) : Nat := (s.items q).countP Option.isSome

/-- the tables of the writer -/
structure Tables (s : SendQ) : Prop where
  /-- the end mark is put by the handler that cancels the task -/
  mark : ∀ e, s.entry = some e → none ∈ s.items e.q → e.cancelled = true
  /-- a call that slept over a change of queues counts a frame that went into the old one -/
  count : ∀ e, s.entry = some e → (s.frames e.q : Int) ≤ e.cnt

/-- nobody takes anything from this full queue any more -/
def Shut (s : SendQ) (q : Nat) : Prop :=
  s.isFull q = true ∧ ∀ e, s.entry = some e → e.q = q → e.cancelled = true

/-- a call in `q.put` waits for such a queue -/
def Waits (s : SendQ) : Call → Prop
  | .putting q _ _ _ => s.Shut q
  | _ => True

structure Wf (s : SendQ) : Prop extends Tables s where
  waits : ∀ c ∈ s.calls, s.Waits c

theorem items_append (q p : Nat) (x : Option Bytes) :
    (s.append q x).items p = if p = q ∧ q < s.queues.length then s.items q ++ [x] else s.items p := by
  show (s.queues.set q (s.items q ++ [x])).getD p [] = _
  rw [List.getD_eq_getElem?_getD, List.getElem?_set]
  by_cases hp : q = p
  · rw [if_pos hp, hp]
    by_cases hq : p < s.queues.length
    · simp [hq]
    · simp [hq, items]
  · have hne : p ≠ q := fun h => hp h.symm
    rw [if_neg hp]
    simp [hne, items]

theorem isFull_iff {q : Nat} : s.isFull q = true ↔ WQ_MAXFRAMES ≤ (s.items q).length :=
  decide_eq_true_iff

theorem isFull_append {q p : Nat} (x : Option Bytes) (h : s.isFull p = true) :
    (s.append q x).isFull p = true := by
  rw [isFull_iff] at h ⊢
  rw [items_append]
  split
  next hp =>
    rw [hp.1] at h
    rw [List.length_append]
    omega
  next => exact h

theorem frames_append (q p : Nat) (x : Option Bytes) :
    (s.append q x).frames p ≤ s.frames p + if p = q ∧ x.isSome then 1 else 0 := by
  unfold frames
  rw [items_append]
  split
  next hp =>
    rw [hp.1, List.countP_append]
    cases x <;> simp
  next => omega

theorem none_mem_append {q p : Nat} {f : Bytes} (h : none ∈ (s.append q (some f)).items p) :
    none ∈ s.items p := by
  rw [items_append] at h
  split at h
  next hp => simpa [hp.1] using h
  next => exact h

/-- a queue object that is full has a place among the queues -/
theorem lt_of_full {q : Nat} (h : s.isFull q = true) : q < s.queues.length := by
  rw [isFull_iff] at h
  by_contra hq
  have hnil : s.items q = [] := by
    unfold items
    rw [List.getD_eq_getElem?_getD, List.getElem?_eq_none (by omega)]
    rfl
  rw [hnil] at h
  exact absurd h (by decide)

/-! ## what the operations keep -/

/-- queues that are shut stay shut -/
def Later (s t : SendQ) : Prop := ∀ q, s.Shut q → t.Shut q

theorem Later.waits (h : Later s t) {c : Call} (hc : s.Waits c) : t.Waits c := by
  cases c with
  | putting q f cnt byts => exact h q hc
  | polling | returned | raised => exact trivial

theorem Later.trans {u : SendQ} (h : Later s t) (h' : Later t u) : Later s u :=
  fun q hq => h' q (h q hq)

/-- the same queues, and the same entry but for its counters and where its task stands -/
theorem later_of_entry (hq : t.queues = s.queues)
    (he : ∀ e, t.entry = some e → ∃ e', s.entry = some e' ∧ e'.q = e.q ∧ e'.cancelled ≤ e.cancelled) :
    Later s t := by
  intro q ⟨hfull, hcan⟩
  constructor
  · unfold isFull items at hfull ⊢
    rw [hq]
    exact hfull
  · intro e hent hqe
    obtain ⟨e', he', hq', hc⟩ := he e hent
    have htrue := hcan e' he' (hq'.trans hqe)
    rw [htrue] at hc
    exact Bool.eq_true_of_true_le hc

theorem later_append (q : Nat) (x : Option Bytes) : Later s (s.append q x) := by
  intro p ⟨hfull, hcan⟩
  exact ⟨isFull_append x hfull, hcan⟩

theorem setSize_entry {cnt byts : Int} {e : Entry} (h : (s.setSize cnt byts).entry = some e) :
    ∃ e', s.entry = some e' ∧ e = { e' with cnt := cnt, byts := byts } := by
  obtain ⟨e', he', rfl⟩ := Option.map_eq_some_iff.mp h
  exact ⟨e', he', rfl⟩

theorem later_setSize (s : SendQ) (cnt byts : Int) : Later s (s.setSize cnt byts) := by
  have hq : (s.setSize cnt byts).queues = s.queues := rfl
  apply later_of_entry hq
  intro e he
  obtain ⟨e', he', rfl⟩ := setSize_entry he
  exact ⟨e', he', rfl, Bool.le_refl _⟩

theorem setDrain_entry {d : Drain} {e : Entry} (h : (s.setDrain d).entry = some e) :
    ∃ e', s.entry = some e' ∧ e = { e' with drain := d } := by
  obtain ⟨e', he', rfl⟩ := Option.map_eq_some_iff.mp h
  exact ⟨e', he', rfl⟩

theorem later_setDrain (s : SendQ) (d : Drain) : Later s (s.setDrain d) := by
  have hq : (s.setDrain d).queues = s.queues := rfl
  apply later_of_entry hq
  intro e he
  obtain ⟨e', he', rfl⟩ := setDrain_entry he
  exact ⟨e', he', rfl, Bool.le_refl _⟩

theorem Tables.setDrain (h : Tables s) (d : Drain) : Tables (s.setDrain d) := by
  constructor
  · intro e he hm
    obtain ⟨e', he', rfl⟩ := setDrain_entry he
    exact h.mark e' he' hm
  · intro e he
    obtain ⟨e', he', rfl⟩ := setDrain_entry he
    exact h.count e' he'

theorem later_forget (s : SendQ) : Later s s.forget := later_of_entry rfl nofun

theorem tables_forget (s : SendQ) : Tables s.forget := ⟨nofun, nofun⟩

/-- a frame goes on some queue, and the entry of the writer counts it -/
theorem Tables.counted (h : Tables s) {e : Entry} (he : s.entry = some e) (q : Nat) (f : Bytes)
    (byts : Int) : Tables ((s.append q (some f)).setSize (e.cnt + 1) byts) := by
  constructor
  · intro e1 he1 hm
    obtain ⟨e2, he2, rfl⟩ := setSize_entry he1
    exact h.mark e2 he2 (none_mem_append hm)
  · intro e1 he1
    obtain ⟨e2, he2, rfl⟩ := setSize_entry he1
    cases Option.some.inj (he.symm.trans he2)
    have hcount := h.count e he
    have happ := frames_append (s := s) q e.q (some f)
    show ((s.append q (some f)).frames e.q : Int) ≤ e.cnt + 1
    split at happ
    next => omega
    next => omega

/-- **A full queue that still counts less than the limit holds the end mark.** -/
theorem Tables.shut_of_full (h : Tables s) {e : Entry} {q : Nat} (he : s.entry = some e)
    (hcnt : e.cnt < WQ_MAXFRAMES) (hfull : s.isFull q = true) : s.Shut q := by
  refine ⟨hfull, ?_⟩
  intro e' he' hq
  cases Option.some.inj (he.symm.trans he')
  rw [← hq, isFull_iff] at hfull
  apply h.mark e he
  by_contra hno
  have hall : s.frames e.q = (s.items e.q).length := by
    apply List.countP_eq_length.mpr
    intro x hx
    cases x with
    | none => exact absurd hx hno
    | some f => rfl
  have hcount := h.count e he
  omega

theorem Tables.put (h : Tables s) {e : Entry} (he : s.entry = some e)
    (hcnt : e.cnt < WQ_MAXFRAMES) (q : Nat) (f : Bytes) (droppable : Bool) (byts : Int) :
    Tables (s.put q f droppable e.cnt byts).1 ∧ Later s (s.put q f droppable e.cnt byts).1 ∧
      (s.put q f droppable e.cnt byts).1.Waits (s.put q f droppable e.cnt byts).2 := by
  unfold SendQ.put
  by_cases hfull : s.isFull q = true
  · rw [if_pos hfull]
    refine ⟨h, fun _ hq => hq, ?_⟩
    cases droppable with
    | true => exact trivial
    | false => exact h.shut_of_full he hcnt hfull
  · rw [if_neg hfull]
    exact ⟨h.counted he q f _, (later_append q _).trans (later_setSize _ _ _), trivial⟩

theorem Tables.attempt (h : Tables s) {e : Entry} (he : s.entry = some e) (q : Nat) (f : Bytes)
    (droppable : Bool) : Tables (s.attempt e q f droppable).1 ∧
      Later s (s.attempt e q f droppable).1 ∧
      (s.attempt e q f droppable).1.Waits (s.attempt e q f droppable).2 := by
  unfold SendQ.attempt
  split
  next => exact ⟨h, fun _ hq => hq, trivial⟩
  next hroom =>
    unfold Entry.Over at hroom
    exact h.put he (by omega) q f droppable _

theorem opened_entry (s : SendQ) : s.opened.1.entry = some s.opened.2 := by
  unfold opened
  cases h : s.entry with
  | some e => exact h
  | none => rfl

theorem Tables.opened (h : Tables s) : Tables s.opened.1 ∧ Later s s.opened.1 := by
  unfold SendQ.opened
  cases hs : s.entry with
  | some e => exact ⟨h, fun _ hq => hq⟩
  | none =>
    dsimp only
    have hnew : (s.queues ++ [[]]).getD s.queues.length [] = ([] : List (Option Bytes)) := by simp
    refine ⟨⟨?_, ?_⟩, ?_⟩
    · intro e he hm
      rw [← Option.some.inj he] at hm
      change none ∈ (s.queues ++ [[]]).getD s.queues.length [] at hm
      rw [hnew] at hm
      cases hm
    · intro e he
      rw [← Option.some.inj he]
      show ((List.countP Option.isSome ((s.queues ++ [[]]).getD s.queues.length []) : Nat) : Int) ≤ 0
      rw [hnew]
      exact Int.le_refl _
    · intro q ⟨hfull, _⟩
      have hlt := lt_of_full hfull
      constructor
      · unfold isFull items at hfull ⊢
        dsimp only
        rw [List.getD_eq_getElem?_getD, List.getElem?_append_left hlt]
        rw [List.getD_eq_getElem?_getD] at hfull
        exact hfull
      · intro e he hq
        rw [← Option.some.inj he] at hq
        exact absurd hq (by show s.queues.length ≠ q; omega)

theorem Tables.rSend (h : Tables s) (mtype : UInt8) (payload : Bytes) (droppable : Option Bool) :
    Tables (s.rSend mtype payload droppable).1 ∧ Later s (s.rSend mtype payload droppable).1 ∧
      (s.rSend mtype payload droppable).1.Waits (s.rSend mtype payload droppable).2 := by
  obtain ⟨ht, hl⟩ := h.opened
  have he := opened_entry s
  unfold SendQ.rSend
  dsimp only
  generalize s.opened = r at ht hl he ⊢
  obtain ⟨u, e⟩ := r
  split
  · exact ⟨ht, hl, trivial⟩
  · obtain ⟨h1, h2, h3⟩ := ht.attempt he e.q (frame mtype payload)
      (droppable.getD (DROPPABLE.contains mtype))
    exact ⟨h1, hl.trans h2, h3⟩

theorem items_takeHead (e : Entry) (q : Nat) :
    (s.takeHead e).items q = if q = e.q then (s.items q).tail else s.items q := by
  show (s.queues.set e.q (s.items e.q).tail).getD q [] = _
  rw [List.getD_eq_getElem?_getD, List.getElem?_set]
  by_cases hq : e.q = q
  · rw [if_pos hq, if_pos hq.symm, hq]
    by_cases hlt : q < s.queues.length
    · simp [hlt]
    · simp [hlt, items]
  · have hne : q ≠ e.q := fun h => hq h.symm
    rw [if_neg hq, if_neg hne]
    simp [items]

/-- taking from a queue whose task is not cancelled leaves the shut queues alone -/
theorem later_takeHead {e : Entry} (he : s.entry = some e) (hc : e.cancelled = false) :
    Later s (s.takeHead e) := by
  intro q ⟨hfull, hcan⟩
  have hne : q ≠ e.q := by
    intro hq
    have htrue := hcan e he hq.symm
    rw [hc] at htrue
    cases htrue
  refine ⟨?_, hcan⟩
  rw [isFull_iff] at hfull ⊢
  rw [items_takeHead, if_neg hne]
  exact hfull

theorem Tables.drainNext (h : Tables s) {e : Entry} {stalls : Bool} {w : Option Bytes}
    (he : s.entry = some e) (hc : e.cancelled = false) (ht : s.drainNext e stalls = some (t, w)) :
    Tables t ∧ Later s t := by
  unfold SendQ.drainNext at ht
  cases hi : s.items e.q with
  | nil =>
    rw [hi] at ht
    cases ht
  | cons x rest =>
    rw [hi] at ht
    have hl := later_takeHead he hc
    cases x with
    | none =>
      cases Option.some.inj ht
      exact ⟨tables_forget _, hl.trans (later_forget _)⟩
    | some f =>
      cases Option.some.inj ht
      refine ⟨Tables.setDrain ⟨?_, ?_⟩ _, (hl.trans (later_setSize _ _ _)).trans (later_setDrain _ _)⟩
      · intro e1 he1 hm
        obtain ⟨e2, he2, rfl⟩ := setSize_entry he1
        cases Option.some.inj (he.symm.trans he2)
        change none ∈ (s.takeHead e).items e.q at hm
        rw [items_takeHead, if_pos rfl] at hm
        exact h.mark e he (List.mem_of_mem_tail hm)
      · intro e1 he1
        obtain ⟨e2, he2, rfl⟩ := setSize_entry he1
        cases Option.some.inj (he.symm.trans he2)
        have hcount := h.count e he
        unfold frames at hcount
        rw [hi, List.countP_cons] at hcount
        show ((List.countP Option.isSome ((s.takeHead e).items e.q) : Nat) : Int) ≤ e.cnt - 1
        rw [items_takeHead, if_pos rfl, hi, List.tail_cons]
        simp only [Option.isSome_some, if_true] at hcount
        omega

theorem Tables.retire (h : Tables s) : Tables s.retire ∧ Later s s.retire := by
  unfold SendQ.retire
  cases he : s.entry with
  | none =>
    refine ⟨⟨nofun, nofun⟩, ?_⟩
    intro q hq
    exact ⟨hq.1, nofun⟩
  | some e =>
    have key : ∀ u : SendQ, (∀ p, s.isFull p = true → u.isFull p = true) → u.frames e.q ≤ s.frames e.q →
        Tables { u with served := false, entry := some { e with cancelled := true } } ∧
        Later s { u with served := false, entry := some { e with cancelled := true } } := by
      intro u hfull hframes
      refine ⟨⟨?_, ?_⟩, ?_⟩
      · intro e1 he1 _
        rw [← Option.some.inj he1]
      · intro e1 he1
        rw [← Option.some.inj he1]
        have hcount := h.count e he
        show (u.frames e.q : Int) ≤ e.cnt
        omega
      · intro q ⟨hq, _⟩
        refine ⟨hfull q hq, ?_⟩
        intro e1 he1 _
        rw [← Option.some.inj he1]
    dsimp only
    split
    · exact key s (fun _ hp => hp) (Nat.le_refl _)
    · exact key _ (fun _ hp => isFull_append none hp) (by simpa using frames_append e.q e.q none)

/-! ## one step -/

theorem Wf.of_calls (h : Wf s) (ht : Tables t) (hl : Later s t)
    (hc : ∀ c ∈ t.calls, c ∈ s.calls ∨ t.Waits c) : Wf t := by
  refine ⟨ht, ?_⟩
  intro c hmem
  rcases hc c hmem with hold | hnew
  · exact hl.waits (h.waits c hold)
  · exact hnew

theorem wf_init : Wf init := ⟨⟨nofun, nofun⟩, nofun⟩

theorem retire_calls (s : SendQ) : s.retire.calls = s.calls := by
  unfold SendQ.retire
  cases s.entry with
  | none => rfl
  | some e =>
    dsimp only
    split <;> rfl

theorem drainNext_calls {e : Entry} {stalls : Bool} {w : Option Bytes}
    (h : s.drainNext e stalls = some (t, w)) : t.calls = s.calls := by
  unfold SendQ.drainNext at h
  split at h
  · cases h
  · cases Option.some.inj h
    rfl
  · cases Option.some.inj h
    rfl

/-- all that the drain task and the handler can do -/
theorem task_cases {a : SendAct} (hst : step s a = some t) (ha : ∀ m p d, a ≠ .call m p d)
    (hw : ∀ i, a ≠ .wake i) :
    (a = .accept ∧ (∀ e, s.entry = some e → e.drain = .dead) ∧
      (∀ c ∈ s.calls, c = .returned ∨ c = .raised) ∧ t = { s with served := true }) ∨
    (a = .retire ∧ s.served = true ∧ t = s.retire) ∨
    ∃ e, s.entry = some e ∧
      ((a = .start ∧ e.drain = .fresh ∧ t = s.setDrain (if e.cancelled then .dead else .ready)) ∨
      (a = .read ∧ e.drain = .stalled ∧ e.cancelled = false ∧ t = s.setDrain .ready) ∨
      ((∃ stalls w, a = .drain stalls ∧ s.drainNext e stalls = some (t, w)) ∧ e.drain = .ready ∧
        e.cancelled = false) ∨
      (a = .lost ∧ e.cancelled = false ∧ ((e.drain = .stalled ∧ t = s.forget) ∨
        (e.drain = .ready ∧ s.items e.q ≠ [] ∧ t = (s.takeHead e).forget))) ∨
      (a = .cancel ∧ e.cancelled = true ∧ (e.drain = .ready ∨ e.drain = .stalled) ∧
        t = s.forget)) := by
  cases a with
  | accept =>
    obtain ⟨hc, hst⟩ := Option.ite_none_right_eq_some.mp hst
    simp only [Bool.and_eq_true, Option.all_eq_true, List.all_eq_true, Bool.or_eq_true,
      decide_eq_true_iff] at hc
    exact Or.inl ⟨rfl, hc.1.2, hc.2, (Option.some.inj hst).symm⟩
  | call m p d => exact absurd rfl (ha m p d)
  | wake i => exact absurd rfl (hw i)
  | retire =>
    obtain ⟨hc, hst⟩ := Option.ite_none_right_eq_some.mp hst
    exact Or.inr (Or.inl ⟨rfl, hc, (Option.some.inj hst).symm⟩)
  | start =>
    obtain ⟨e, he, hst⟩ := Option.bind_eq_some_iff.mp hst
    obtain ⟨hc, hst⟩ := Option.ite_none_right_eq_some.mp hst
    exact Or.inr (Or.inr ⟨e, he, Or.inl ⟨rfl, hc, (Option.some.inj hst).symm⟩⟩)
  | drain stalls =>
    obtain ⟨e, he, hst⟩ := Option.bind_eq_some_iff.mp hst
    obtain ⟨⟨hd, hc⟩, hst⟩ := Option.ite_none_right_eq_some.mp hst
    obtain ⟨⟨t', w⟩, hnext, rfl⟩ := Option.map_eq_some_iff.mp hst
    exact Or.inr (Or.inr ⟨e, he, Or.inr (Or.inr (Or.inl
      ⟨⟨stalls, w, rfl, hnext⟩, hd, by simpa using hc⟩))⟩)
  | read =>
    obtain ⟨e, he, hst⟩ := Option.bind_eq_some_iff.mp hst
    obtain ⟨⟨hd, hc⟩, hst⟩ := Option.ite_none_right_eq_some.mp hst
    exact Or.inr (Or.inr ⟨e, he, Or.inr (Or.inl ⟨rfl, hd, by simpa using hc,
      (Option.some.inj hst).symm⟩)⟩)
  | lost =>
    obtain ⟨e, he, hst⟩ := Option.bind_eq_some_iff.mp hst
    refine Or.inr (Or.inr ⟨e, he, Or.inr (Or.inr (Or.inr (Or.inl ⟨rfl, ?_⟩)))⟩)
    cases hc : e.cancelled with
    | true => simp [hc] at hst
    | false =>
      refine ⟨rfl, ?_⟩
      by_cases hd : e.drain = .stalled
      · simp only [hc, hd] at hst
        exact Or.inl ⟨hd, (Option.some.inj hst).symm⟩
      · simp only [hc, Bool.false_eq_true, if_false, if_neg hd] at hst
        obtain ⟨⟨hr, hi⟩, hst⟩ := Option.ite_none_right_eq_some.mp hst
        exact Or.inr ⟨hr, hi, (Option.some.inj hst).symm⟩
  | cancel =>
    obtain ⟨e, he, hst⟩ := Option.bind_eq_some_iff.mp hst
    obtain ⟨⟨hc, hd⟩, hst⟩ := Option.ite_none_right_eq_some.mp hst
    exact Or.inr (Or.inr ⟨e, he, Or.inr (Or.inr (Or.inr (Or.inr ⟨rfl, hc, hd,
      (Option.some.inj hst).symm⟩)))⟩)

theorem Tables.task (h : Tables s) {a : SendAct} (hst : step s a = some t)
    (ha : ∀ m p d, a ≠ .call m p d) (hw : ∀ i, a ≠ .wake i) :
    Tables t ∧ Later s t ∧ t.calls = s.calls := by
  rcases task_cases hst ha hw with ⟨_, _, _, rfl⟩ | ⟨_, _, rfl⟩ | ⟨e, he, htask⟩
  · exact ⟨⟨h.mark, h.count⟩, fun _ hq => hq, rfl⟩
  · exact ⟨h.retire.1, h.retire.2, retire_calls s⟩
  · rcases htask with ⟨_, _, rfl⟩ | ⟨_, _, _, rfl⟩ | ⟨⟨_, _, _, hd⟩, _, hc⟩ |
      ⟨_, hc, ⟨_, rfl⟩ | ⟨_, _, rfl⟩⟩ | ⟨_, _, _, rfl⟩
    · exact ⟨h.setDrain _, later_setDrain s _, rfl⟩
    · exact ⟨h.setDrain _, later_setDrain s _, rfl⟩
    · obtain ⟨ht, hl⟩ := h.drainNext he hc hd
      exact ⟨ht, hl, drainNext_calls hd⟩
    · exact ⟨tables_forget s, later_forget s, rfl⟩
    · exact ⟨tables_forget _, (later_takeHead he hc).trans (later_forget _), rfl⟩
    · exact ⟨tables_forget s, later_forget s, rfl⟩

theorem put_calls (s : SendQ) (q : Nat) (f : Bytes) (d : Bool) (cnt byts : Int) :
    (s.put q f d cnt byts).1.calls = s.calls := by
  unfold SendQ.put
  split <;> rfl

theorem attempt_calls (s : SendQ) (e : Entry) (q : Nat) (f : Bytes) (d : Bool) :
    (s.attempt e q f d).1.calls = s.calls := by
  unfold SendQ.attempt
  split
  · rfl
  · exact put_calls s q f d _ _

theorem opened_calls (s : SendQ) : s.opened.1.calls = s.calls := by
  unfold SendQ.opened
  cases s.entry <;> rfl

theorem rSend_calls (s : SendQ) (mtype : UInt8) (payload : Bytes) (droppable : Option Bool) :
    (s.rSend mtype payload droppable).1.calls = s.calls := by
  unfold SendQ.rSend
  dsimp only
  split
  · exact opened_calls s
  · exact (attempt_calls _ _ _ _ _).trans (opened_calls s)

theorem step_call (s : SendQ) (m : UInt8) (p : Bytes) (d : Option Bool) :
    step s (.call m p d) =
      some { (s.rSend m p d).1 with calls := (s.rSend m p d).1.calls ++ [(s.rSend m p d).2] } := rfl

/-- a suspended call that goes on was asleep: nobody wakes a call in `q.put` -/
theorem resume_cases (h : Wf s) {i : Nat} {c c' : Call} {u : SendQ} (hc : s.calls[i]? = some c)
    (hr : s.resume c = some (u, c')) :
    ∃ q f d, c = .polling q f d ∧
      ((s.entry = none ∧ u = s ∧ c' = .raised) ∨
        ∃ e, s.entry = some e ∧ (u, c') = s.attempt e q f d) := by
  cases c with
  | polling q f d =>
    refine ⟨q, f, d, rfl, ?_⟩
    unfold SendQ.resume at hr
    cases he : s.entry with
    | none =>
      rw [he] at hr
      cases Option.some.inj hr
      exact Or.inl ⟨rfl, rfl, rfl⟩
    | some e =>
      rw [he] at hr
      exact Or.inr ⟨e, rfl, (Option.some.inj hr).symm⟩
  | putting q f cnt byts =>
    have hshut : s.Shut q := h.waits _ (List.mem_of_getElem? hc)
    have hnone : s.resume (.putting q f cnt byts) = none := if_pos hshut.1
    rw [hnone] at hr
    cases hr
  | returned => cases hr
  | raised => cases hr

theorem Wf.step (h : Wf s) {a : SendAct} (hst : step s a = some t) : Wf t := by
  by_cases hcall : ∃ m p d, a = .call m p d
  · obtain ⟨m, p, d, rfl⟩ := hcall
    obtain ⟨ht, hl, hw⟩ := h.toTables.rSend m p d
    have hcalls := rSend_calls s m p d
    rw [step_call] at hst
    rw [← Option.some.inj hst]
    generalize s.rSend m p d = r at ht hl hw hcalls ⊢
    refine h.of_calls ⟨ht.mark, ht.count⟩ hl ?_
    intro c hc
    rcases List.mem_append.mp hc with hc | hc
    · rw [hcalls] at hc
      exact Or.inl hc
    · rw [List.mem_singleton.mp hc]
      refine Or.inr ?_
      cases hres : r.2 with
      | putting q f cnt byts =>
        rw [hres] at hw
        exact hw
      | polling | returned | raised => exact trivial
  · by_cases hwake : ∃ i, a = .wake i
    · obtain ⟨i, rfl⟩ := hwake
      obtain ⟨c, hc, hst⟩ := Option.bind_eq_some_iff.mp hst
      obtain ⟨⟨u, c'⟩, hr, hst⟩ := Option.bind_eq_some_iff.mp hst
      cases Option.some.inj hst
      obtain ⟨q, f, d, rfl, ⟨_, rfl, rfl⟩ | ⟨e, he, hatt⟩⟩ := resume_cases h hc hr
      · refine h.of_calls ⟨h.mark, h.count⟩ (fun _ hq => hq) ?_
        intro c hmem
        rcases List.mem_or_eq_of_mem_set hmem with hold | rfl
        · exact Or.inl hold
        · exact Or.inr trivial
      · obtain ⟨ht, hl, hw⟩ := h.toTables.attempt he q f d
        have hcalls := attempt_calls s e q f d
        rw [← hatt] at ht hl hw hcalls
        refine h.of_calls ⟨ht.mark, ht.count⟩ hl ?_
        intro c hmem
        rcases List.mem_or_eq_of_mem_set hmem with hold | rfl
        · rw [hcalls] at hold
          exact Or.inl hold
        · refine Or.inr ?_
          cases c with
          | putting q f cnt byts => exact hw
          | polling | returned | raised => exact trivial
    · push Not at hcall hwake
      obtain ⟨ht, hl, hcalls⟩ := h.toTables.task hst hcall hwake
      refine h.of_calls ht hl ?_
      intro c hc
      rw [hcalls] at hc
      exact Or.inl hc

theorem Wf.path {tr : List (SendQ × SendAct)} (hp : Path SendQ.step s tr t) (h : Wf s) : Wf t :=
  hp.inv h fun _ _ _ hu => hu.step

/-! ## where a call stands -/

theorem calls_step {a : SendAct} {i : Nat} {c : Call} (hst : step s a = some t)
    (hc : s.calls[i]? = some c) (ha : a ≠ .wake i) : t.calls[i]? = some c := by
  have hlt : i < s.calls.length := (List.getElem?_eq_some_iff.mp hc).1
  by_cases hcall : ∃ m p d, a = .call m p d
  · obtain ⟨m, p, d, rfl⟩ := hcall
    rw [step_call] at hst
    rw [← Option.some.inj hst]
    show ((s.rSend m p d).1.calls ++ _)[i]? = _
    rw [rSend_calls, List.getElem?_append_left hlt]
    exact hc
  · by_cases hwake : ∃ j, a = .wake j
    · obtain ⟨j, rfl⟩ := hwake
      obtain ⟨c0, hc0, hst⟩ := Option.bind_eq_some_iff.mp hst
      obtain ⟨⟨u, c'⟩, hr, hst⟩ := Option.bind_eq_some_iff.mp hst
      have hji : j ≠ i := fun h => ha (by rw [h])
      have hcalls : u.calls = s.calls := by
        cases c0 with
        | polling q f d =>
          cases he : s.entry with
          | none =>
            have hres : s.resume (.polling q f d) = some (s, .raised) := by
              unfold SendQ.resume
              rw [he]
            rw [hres] at hr
            cases Option.some.inj hr
            rfl
          | some e =>
            have hres : s.resume (.polling q f d) = some (s.attempt e q f d) := by
              unfold SendQ.resume
              rw [he]
            rw [hres] at hr
            have hu : (s.attempt e q f d).1 = u := congrArg Prod.fst (Option.some.inj hr)
            rw [← hu]
            exact attempt_calls s e q f d
        | putting q f cnt byts =>
          have hres : s.resume (.putting q f cnt byts) = if s.isFull q then none else
            some ((s.append q (some f)).setSize (cnt + 1) (byts + f.length), .returned) := rfl
          rw [hres] at hr
          split at hr
          · cases hr
          · cases Option.some.inj hr
            rfl
        | returned => cases hr
        | raised => cases hr
      rw [← Option.some.inj hst]
      show (u.calls.set j c')[i]? = _
      rw [List.getElem?_set, if_neg hji, hcalls]
      exact hc
    · push Not at hcall hwake
      have hcalls : t.calls = s.calls := by
        rcases task_cases hst hcall hwake with ⟨_, _, _, rfl⟩ | ⟨_, _, rfl⟩ | ⟨e, he, htask⟩
        · rfl
        · exact retire_calls s
        · rcases htask with ⟨_, _, rfl⟩ | ⟨_, _, _, rfl⟩ | ⟨⟨_, _, _, hd⟩, _, _⟩ |
            ⟨_, _, ⟨_, rfl⟩ | ⟨_, _, rfl⟩⟩ | ⟨_, _, _, rfl⟩
          · rfl
          · rfl
          · exact drainNext_calls hd
          · rfl
          · rfl
          · rfl
      rw [hcalls]
      exact hc

/-- a call that cannot go on stays where it is -/
theorem calls_stay {a : SendAct} {i : Nat} {c : Call} (hst : step s a = some t)
    (hc : s.calls[i]? = some c) (hno : s.resume c = none) : t.calls[i]? = some c := by
  by_cases ha : a = .wake i
  · rw [ha] at hst
    obtain ⟨c0, hc0, hst⟩ := Option.bind_eq_some_iff.mp hst
    obtain ⟨r, hr, _⟩ := Option.bind_eq_some_iff.mp hst
    cases Option.some.inj (hc.symm.trans hc0)
    rw [hno] at hr
    cases hr
  · exact calls_step hst hc ha

theorem returned_stays {tr : List (SendQ × SendAct)} {i : Nat} (hp : Path step s tr t)
    (hc : s.calls[i]? = some .returned) : t.calls[i]? = some .returned :=
  hp.inv (I := fun u => u.calls[i]? = some .returned) hc
    fun _ _ _ hu hst => calls_stay hst hu rfl

/-- **A call in `q.put` is never woken.** -/
theorem putting_stays {tr : List (SendQ × SendAct)} {i q : Nat} {f : Bytes} {cnt byts : Int}
    (hp : Path step s tr t) (h : Wf s) (hc : s.calls[i]? = some (.putting q f cnt byts)) :
    t.calls[i]? = some (.putting q f cnt byts) := by
  have key : Wf t ∧ t.calls[i]? = some (.putting q f cnt byts) := by
    apply hp.inv (I := fun u => Wf u ∧ u.calls[i]? = some (.putting q f cnt byts)) ⟨h, hc⟩
    rintro u a u' ⟨hw, hu⟩ hst
    have hshut : u.Shut q := hw.waits _ (List.mem_of_getElem? hu)
    exact ⟨hw.step hst, calls_stay hst hu (if_pos hshut.1)⟩
  exact key.2

/-! ## counters that stay full -/

/-- the counters are full, and no task will lower them: it has never run, or it waits at an empty
queue of a connection whose handler has ended -/
def Jam (s : SendQ) : Prop :=
  ∃ e, s.entry = some e ∧ e.Over ∧ (e.drain = .dead ∨
    (s.served = false ∧ e.cancelled = false ∧ e.drain = .ready ∧ s.items e.q = []))

theorem attempt_over {e : Entry} (ho : e.Over) (q : Nat) (f : Bytes) (d : Bool) :
    s.attempt e q f d = (s, .polling q f d) := if_pos ho

theorem rSend_over {e : Entry} (he : s.entry = some e) (ho : e.Over) (m : UInt8) (p : Bytes)
    (d : Option Bool) : (s.rSend m p d).1 = s := by
  have hopen : s.opened = (s, e) := by
    unfold SendQ.opened
    rw [he]
  unfold SendQ.rSend
  dsimp only
  rw [hopen]
  dsimp only
  rw [attempt_over ho]
  split <;> rfl

theorem Jam.step {a : SendAct} (h : Jam s) (hw : Wf s) (hst : step s a = some t) : Jam t := by
  obtain ⟨e, he, ho, hd⟩ := h
  by_cases hcall : ∃ m p d, a = .call m p d
  · obtain ⟨m, p, d, rfl⟩ := hcall
    rw [step_call, rSend_over he ho] at hst
    rw [← Option.some.inj hst]
    exact ⟨e, he, ho, hd⟩
  · by_cases hwake : ∃ i, a = .wake i
    · obtain ⟨i, rfl⟩ := hwake
      obtain ⟨c, hc, hst⟩ := Option.bind_eq_some_iff.mp hst
      obtain ⟨⟨u, c'⟩, hr, hst⟩ := Option.bind_eq_some_iff.mp hst
      obtain ⟨q, f, d, rfl, ⟨hnone, _⟩ | ⟨e', he', hatt⟩⟩ := resume_cases hw hc hr
      · rw [he] at hnone
        cases hnone
      · cases Option.some.inj (he.symm.trans he')
        rw [attempt_over ho] at hatt
        cases hatt
        rw [← Option.some.inj hst]
        exact ⟨e, he, ho, hd⟩
    · push Not at hcall hwake
      rcases task_cases hst hcall hwake with ⟨_, hdead, _, rfl⟩ | ⟨_, hs, rfl⟩ | ⟨e', he', htask⟩
      · exact ⟨e, he, ho, Or.inl (hdead e he)⟩
      · rcases hd with hd | ⟨hs', _⟩
        · refine ⟨{ e with cancelled := true }, ?_, ho, Or.inl hd⟩
          unfold SendQ.retire
          rw [he]
        · rw [hs] at hs'
          cases hs'
      · cases Option.some.inj (he.symm.trans he')
        have hne : e.drain ≠ .fresh ∧ e.drain ≠ .stalled := by
          rcases hd with hd | ⟨_, _, hd, _⟩
          · rw [hd]
            exact ⟨nofun, nofun⟩
          · rw [hd]
            exact ⟨nofun, nofun⟩
        rcases htask with ⟨_, hf, _⟩ | ⟨_, hf, _⟩ | ⟨⟨_, _, _, hnext⟩, hf, _⟩ |
          ⟨_, _, ⟨hf, _⟩ | ⟨hf, hi, _⟩⟩ | ⟨_, hc, hf, _⟩
        · exact absurd hf hne.1
        · exact absurd hf hne.2
        · rcases hd with hd | ⟨_, _, _, hi⟩
          · rw [hf] at hd
            cases hd
          · unfold drainNext at hnext
            rw [hi] at hnext
            cases hnext
        · exact absurd hf hne.2
        · rcases hd with hd | ⟨_, _, _, hi'⟩
          · rw [hf] at hd
            cases hd
          · exact absurd hi' hi
        · rcases hd with hd | ⟨_, hc', _⟩
          · rcases hf with hf | hf
            · rw [hf] at hd
              cases hd
            · exact absurd hf hne.2
          · rw [hc] at hc'
            cases hc'

/-- a call that sleeps at a jam sleeps for ever -/
theorem jam_stays {tr : List (SendQ × SendAct)} {i q : Nat} {f : Bytes} {d : Bool}
    (hp : Path step s tr t) (h : Wf s) (hj : Jam s) (hc : s.calls[i]? = some (.polling q f d)) :
    t.calls[i]? = some (.polling q f d) := by
  have key : (Wf t ∧ Jam t) ∧ t.calls[i]? = some (.polling q f d) := by
    apply hp.inv (I := fun u => (Wf u ∧ Jam u) ∧ u.calls[i]? = some (.polling q f d)) ⟨⟨h, hj⟩, hc⟩
    rintro u a u' ⟨⟨hw, hju⟩, hu⟩ hst
    refine ⟨⟨hw.step hst, hju.step hw hst⟩, ?_⟩
    by_cases ha : a = .wake i
    · rw [ha] at hst
      obtain ⟨e, he, ho, _⟩ := hju
      obtain ⟨c0, hc0, hst⟩ := Option.bind_eq_some_iff.mp hst
      obtain ⟨r, hr, hst⟩ := Option.bind_eq_some_iff.mp hst
      cases Option.some.inj (hu.symm.trans hc0)
      have hres : u.resume (.polling q f d) = some (u, .polling q f d) := by
        unfold SendQ.resume
        rw [he]
        exact congrArg some (attempt_over ho q f d)
      rw [hres] at hr
      cases Option.some.inj hr
      rw [← Option.some.inj hst]
      show (u.calls.set i _)[i]? = _
      rw [List.getElem?_set_self (List.getElem?_eq_some_iff.mp hu).1]
    · exact calls_step hst hu ha
  exact key.2

/-! ## a call that sleeps is harmed -/

theorem unread_nil : Unread [] := by
  intro x hx
  cases hx

theorem not_unharmed_of_step {a : SendAct} {i : Nat} (hst : step s a = some t) (ha : a ≠ .read)
    (h : ¬ t.Unharmed i) : ¬ s.Unharmed i := by
  intro hu
  apply h
  intro tr t' hp hr
  apply hu _ t' ((Path.one hst).trans hp)
  intro x hx
  rcases List.mem_cons.mp hx with rfl | hx
  · exact ha
  · exact hr x hx

theorem not_unharmed_of_stays {i : Nat} {c : Call} (hc : c ≠ .returned)
    (h : ∀ tr t, Path step s tr t → t.calls[i]? = some c) : ¬ s.Unharmed i := by
  intro hu
  obtain ⟨_, tr, t, hp, _, hret⟩ := hu [] s .nil unread_nil
  have hstay := h tr t hp
  rw [hret] at hstay
  exact hc (Option.some.inj hstay).symm

/-- without the entry, the next look at the counters is a `KeyError` -/
theorem wake_gone {i q : Nat} {f : Bytes} {d : Bool} (he : s.entry = none)
    (hc : s.calls[i]? = some (.polling q f d)) :
    ∃ t, step s (.wake i) = some t ∧ t.calls[i]? = some .raised := by
  have hres : s.resume (.polling q f d) = some (s, .raised) := by
    unfold SendQ.resume
    rw [he]
  refine ⟨{ s with calls := s.calls.set i .raised }, ?_, ?_⟩
  · unfold step
    simp [hc, hres]
  · exact List.getElem?_set_self (List.getElem?_eq_some_iff.mp hc).1

theorem not_unharmed_of_gone {i q : Nat} {f : Bytes} {d : Bool} (he : s.entry = none)
    (hc : s.calls[i]? = some (.polling q f d)) : ¬ s.Unharmed i := by
  intro hu
  obtain ⟨t, hst, hraised⟩ := wake_gone he hc
  refine (hu _ _ (Path.one hst) ?_).1 hraised
  intro x hx
  rw [List.mem_singleton.mp hx]
  exact nofun

theorem not_unharmed_of_jam {i q : Nat} {f : Bytes} {d : Bool} (h : Wf s) (hj : Jam s)
    (hc : s.calls[i]? = some (.polling q f d)) : ¬ s.Unharmed i :=
  not_unharmed_of_stays (c := .polling q f d) nofun fun _ _ hp => jam_stays hp h hj hc

section
variable {e : Entry} {i q : Nat} {f : Bytes} {d : Bool}

/-- once the task is cancelled: it ends, or it never began -/
theorem harmed_of_cancelled (h : Wf s) (he : s.entry = some e) (ho : e.Over)
    (hc : s.calls[i]? = some (.polling q f d)) (hcan : e.cancelled = true) : ¬ s.Unharmed i := by
  have hcancel : e.drain = .ready ∨ e.drain = .stalled → ¬ s.Unharmed i := by
    intro hd
    have hst : step s .cancel = some s.forget := by
      unfold step
      simp [he, hcan, hd]
    exact not_unharmed_of_step hst nofun (not_unharmed_of_gone rfl hc)
  cases hd : e.drain with
  | dead => exact not_unharmed_of_jam h ⟨e, he, ho, Or.inl hd⟩ hc
  | ready => exact hcancel (Or.inl hd)
  | stalled => exact hcancel (Or.inr hd)
  | fresh =>
    have hst : step s .start = some (s.setDrain .dead) := by
      unfold step
      simp [he, hcan, hd]
    apply not_unharmed_of_step hst nofun
    refine not_unharmed_of_jam (h.step hst) ⟨{ e with drain := .dead }, ?_, ho, Or.inl rfl⟩ hc
    show s.entry.map _ = _
    rw [he]
    rfl

/-- while the handler of the connection runs, it may end -/
theorem harmed_of_served (h : Wf s) (he : s.entry = some e) (ho : e.Over)
    (hc : s.calls[i]? = some (.polling q f d)) (hs : s.served = true) : ¬ s.Unharmed i := by
  have hst : step s .retire = some s.retire := if_pos hs
  have hent : s.retire.entry = some { e with cancelled := true } := by
    unfold SendQ.retire
    rw [he]
  have hcall : s.retire.calls[i]? = some (.polling q f d) := by
    rw [retire_calls]
    exact hc
  exact not_unharmed_of_step hst nofun (harmed_of_cancelled (h.step hst) hent ho hcall rfl)

/-- afterwards, the connection may be lost, unless the task waits for an element for ever -/
theorem harmed_of_unserved (h : Wf s) (he : s.entry = some e) (ho : e.Over)
    (hc : s.calls[i]? = some (.polling q f d)) (hs : s.served = false)
    (hcan : e.cancelled = false) (hd : e.drain ≠ .fresh) : ¬ s.Unharmed i := by
  cases hdr : e.drain with
  | fresh => exact absurd hdr hd
  | dead => exact not_unharmed_of_jam h ⟨e, he, ho, Or.inl hdr⟩ hc
  | stalled =>
    have hst : step s .lost = some s.forget := by
      unfold step
      simp [he, hcan, hdr]
    exact not_unharmed_of_step hst nofun (not_unharmed_of_gone rfl hc)
  | ready =>
    by_cases hi : s.items e.q = []
    · exact not_unharmed_of_jam h ⟨e, he, ho, Or.inr ⟨hs, hcan, hdr, hi⟩⟩ hc
    · have hst : step s .lost = some (s.takeHead e).forget := by
        unfold step
        simp [he, hcan, hdr, hi]
      exact not_unharmed_of_step hst nofun (not_unharmed_of_gone rfl hc)

/-- **A call that sleeps at full counters is harmed**, in every state. -/
theorem polling_harmed (h : Wf s) (he : s.entry = some e) (ho : e.Over)
    (hc : s.calls[i]? = some (.polling q f d)) : ¬ s.Unharmed i := by
  cases hcan : e.cancelled with
  | true => exact harmed_of_cancelled h he ho hc hcan
  | false =>
    cases hs : s.served with
    | true => exact harmed_of_served h he ho hc hs
    | false =>
      by_cases hd : e.drain = .fresh
      · have hst : step s .start = some (s.setDrain .ready) := by
          unfold step
          simp [he, hcan, hd]
        have hent : (s.setDrain .ready).entry = some { e with drain := .ready } := by
          show s.entry.map _ = _
          rw [he]
          rfl
        exact not_unharmed_of_step hst nofun
          (harmed_of_unserved (h.step hst) hent ho hc hs hcan nofun)
      · exact harmed_of_unserved h he ho hc hs hcan hd

end

/-! ## the exact condition -/

/-- the call may drop its frame -/
def MayDrop (mtype : UInt8) (droppable : Option Bool) : Prop :=
  droppable.getD (DROPPABLE.contains mtype) = true

instance (mtype : UInt8) (droppable : Option Bool) : Decidable (MayDrop mtype droppable) :=
  inferInstanceAs (Decidable (droppable.getD (DROPPABLE.contains mtype) = true))

theorem opened_room (h : s.HasRoom) :
    ¬ s.opened.2.Over ∧ s.opened.1.isFull s.opened.2.q = false := by
  unfold HasRoom at h
  unfold opened
  cases he : s.entry with
  | some e =>
    obtain ⟨h1, h2, h3⟩ := h e he
    refine ⟨?_, ?_⟩
    · unfold Entry.Over
      dsimp only
      omega
    · unfold isFull
      dsimp only
      rw [decide_eq_false_iff_not]
      omega
  | none =>
    refine ⟨?_, ?_⟩
    · show ¬ ((0 : Int) ≥ WQ_MAXFRAMES ∨ (0 : Int) > WQ_MAXBYTES)
      decide
    · unfold isFull items
      rw [decide_eq_false_iff_not]
      simp [WQ_MAXFRAMES]

/-- with room, or with a frame that may be dropped, the call returns at once -/
theorem rSend_returned {m : UInt8} {d : Option Bool} (p : Bytes) (h : MayDrop m d ∨ s.HasRoom) :
    (s.rSend m p d).2 = .returned := by
  have hroom : s.HasRoom → ¬ s.opened.2.Over ∧ s.opened.1.isFull s.opened.2.q = false := opened_room
  unfold rSend
  dsimp only
  generalize s.opened = r at hroom ⊢
  obtain ⟨u, e⟩ := r
  dsimp only at hroom ⊢
  split
  next => rfl
  next hno =>
    have hover : ¬ e.Over := by
      rcases h with hd | hr
      · have hlow : ¬ (e.cnt ≥ WQ_MAXFRAMES ∨ e.byts + (frame m p).length > WQ_DROP_BYTES) :=
          fun hc => hno ⟨hd, hc⟩
        unfold Entry.Over
        unfold WQ_MAXFRAMES WQ_DROP_BYTES at hlow
        unfold WQ_MAXFRAMES WQ_MAXBYTES
        omega
      · exact (hroom hr).1
    unfold attempt put
    rw [if_neg hover]
    by_cases hfull : u.isFull e.q = true
    · rw [if_pos hfull]
      rcases h with hd | hr
      · exact if_pos hd
      · rw [(hroom hr).2] at hfull
        cases hfull
    · rw [if_neg hfull]

/-- otherwise it is suspended, and has changed nothing -/
theorem rSend_suspended {m : UInt8} {d : Option Bool} (p : Bytes) (hd : ¬ MayDrop m d)
    (hr : ¬ s.HasRoom) : ∃ e, s.entry = some e ∧ (s.rSend m p d).1 = s ∧
      ((e.Over ∧ (s.rSend m p d).2 = .polling e.q (frame m p) false) ∨
        (¬ e.Over ∧ (s.rSend m p d).2 = .putting e.q (frame m p) e.cnt e.byts)) := by
  unfold HasRoom at hr
  push Not at hr
  obtain ⟨e, he, hr⟩ := hr
  have hopen : s.opened = (s, e) := by
    unfold opened
    rw [he]
  have hdrop : d.getD (DROPPABLE.contains m) = false := by
    unfold MayDrop at hd
    simpa using hd
  have hsend : s.rSend m p d = s.attempt e e.q (frame m p) false := by
    unfold rSend
    dsimp only
    rw [hopen, hdrop]
    rfl
  refine ⟨e, he, ?_⟩
  rw [hsend]
  by_cases ho : e.Over
  · rw [attempt_over ho]
    exact ⟨rfl, Or.inl ⟨ho, rfl⟩⟩
  · have hfull : s.isFull e.q = true := by
      rw [isFull_iff]
      unfold Entry.Over at ho
      have hlen := hr (by omega) (by omega)
      omega
    have hput : s.attempt e e.q (frame m p) false
        = (s, .putting e.q (frame m p) e.cnt e.byts) := by
      unfold attempt put
      rw [if_neg ho, if_pos hfull]
      rfl
    rw [hput]
    exact ⟨rfl, Or.inr ⟨ho, rfl⟩⟩

/-- **Which calls a peer cannot harm.**  In every reachable state of a writer's tables, a call of
`r_send` neither raises nor needs the peer to read iff its frame may be dropped or there is room
for it. -/
theorem unharmed_iff {tr : List (SendQ × SendAct)} (h : Path step init tr s) (mtype : UInt8)
    (payload : Bytes) (droppable : Option Bool)
    (hst : step s (.call mtype payload droppable) = some t) :
    t.Unharmed s.calls.length ↔ MayDrop mtype droppable ∨ s.HasRoom := by
  have hwf : Wf t := (Wf.path h wf_init).step hst
  rw [step_call, Option.some.injEq] at hst
  have hcall : t.calls[s.calls.length]? = some (s.rSend mtype payload droppable).2 := by
    rw [← hst]
    show ((s.rSend mtype payload droppable).1.calls ++ _)[s.calls.length]? = _
    rw [rSend_calls, List.getElem?_append_right (Nat.le_refl _), Nat.sub_self]
    rfl
  constructor
  · intro hu
    by_contra hno
    rw [not_or] at hno
    obtain ⟨e, he, hsame, ⟨ho, hres⟩ | ⟨_, hres⟩⟩ := rSend_suspended payload hno.1 hno.2
    · rw [hres] at hcall
      have hent : t.entry = some e := by
        rw [← hst]
        show (s.rSend mtype payload droppable).1.entry = _
        rw [hsame, he]
      exact polling_harmed hwf hent ho hcall hu
    · rw [hres] at hcall
      exact not_unharmed_of_stays (c := .putting _ _ _ _) nofun
        (fun _ _ hp => putting_stays hp hwf hcall) hu
  · intro hok tr' t' hp _
    rw [rSend_returned payload hok] at hcall
    have hret := returned_stays hp hcall
    refine ⟨?_, [], t', .nil, unread_nil, hret⟩
    rw [hret]
    exact nofun

/-! ## a peer that stops reading -/

/-- one frame is in the transport, `n` of type `m` are behind it, after the calls `cs` -/
def backedUp (m : UInt8) (cs : List Call) (n : Nat) : SendQ :=
  ⟨true, [List.replicate n (some (frame m []))], some ⟨0, n, 5 * n, .stalled, false⟩,
    cs ++ List.replicate n .returned⟩

theorem step_backedUp {m : UInt8} {n : Nat} (cs : List Call) (hdrop : DROPPABLE.contains m = false)
    (h : n < WQ_MAXFRAMES) :
    step (backedUp m cs n) (.call m [] none) = some (backedUp m cs (n + 1)) := by
  have hover : ¬ (⟨0, n, 5 * n, .stalled, false⟩ : Entry).Over := by
    unfold WQ_MAXFRAMES at h
    unfold Entry.Over WQ_MAXFRAMES WQ_MAXBYTES
    dsimp only
    omega
  have hroom : (backedUp m cs n).isFull 0 = false := by
    unfold isFull items backedUp
    rw [decide_eq_false_iff_not]
    simp only [List.getD_cons_zero, List.length_replicate]
    omega
  have hsend : (backedUp m cs n).rSend m [] none
      = (((backedUp m cs n).append 0 (some (frame m []))).setSize (n + 1) (5 * n + 5), .returned) := by
    have hstart : (backedUp m cs n).rSend m [] none
        = (backedUp m cs n).attempt ⟨0, n, 5 * n, .stalled, false⟩ 0 (frame m []) false := by
      unfold rSend
      rw [Option.getD_none, hdrop]
      rfl
    rw [hstart]
    unfold attempt put
    rw [if_neg hover, hroom]
    rfl
  have hcnt : (((n + 1 : Nat) : Int)) = n + 1 := by omega
  have hbyts : (5 * ((n + 1 : Nat) : Int)) = 5 * n + 5 := by omega
  have hitems : List.replicate (n + 1) (some (frame m []))
      = List.replicate n (some (frame m [])) ++ [some (frame m [])] := List.replicate_succ'
  have hcalls : cs ++ List.replicate (n + 1) Call.returned
      = cs ++ List.replicate n .returned ++ [Call.returned] := by
    rw [List.append_assoc, List.replicate_succ']
  rw [step_call, hsend]
  unfold backedUp
  rw [hitems, hcalls, hbyts, hcnt]
  rfl

theorem path_backedUp (n : Nat) (h : n ≤ WQ_MAXFRAMES) :
    ∃ tr, Path step init tr (backedUp T_ASSIGN [.returned] n) := by
  induction n with
  | zero =>
    have hrun : run step init [.accept, .call T_ASSIGN [] none, .start, .drain true]
        = some (backedUp T_ASSIGN [.returned] 0) := by decide
    exact ⟨_, path_run hrun⟩
  | succ n ih =>
    obtain ⟨tr, htr⟩ := ih (by omega)
    exact ⟨_, htr.snoc (step_backedUp [.returned] (by decide) (by omega))⟩

theorem backedUp_hasRoom {m : UInt8} {cs : List Call} {n : Nat} (h : n < WQ_MAXFRAMES) :
    (backedUp m cs n).HasRoom := by
  intro e he
  cases Option.some.inj he
  unfold WQ_MAXFRAMES at h ⊢
  refine ⟨?_, ?_, ?_⟩
  · show (n : Int) < (1024 : Nat)
    omega
  · show 5 * (n : Int) ≤ WQ_MAXBYTES
    unfold WQ_MAXBYTES
    omega
  · show (List.replicate n (some (frame m []))).length < 1024
    rw [List.length_replicate]
    exact h

/-- the peer has stopped reading, and 1023 frames wait for it: the next announcement still returns -/
theorem unharmed_lastPlace : ∃ s t, (∃ tr, Path step init tr s) ∧
    (s.entry.map fun e => (e.drain, e.cnt)) = some (.stalled, 1023) ∧
    step s (.call T_ASSIGN [] none) = some t ∧ t.Unharmed s.calls.length := by
  have hlt : 1023 < WQ_MAXFRAMES := by decide
  obtain ⟨tr, htr⟩ := path_backedUp 1023 (Nat.le_of_lt hlt)
  have hst := step_backedUp [.returned] (m := T_ASSIGN) (by decide) hlt
  exact ⟨_, _, ⟨tr, htr⟩, rfl, hst,
    (unharmed_iff htr T_ASSIGN [] none hst).mpr (Or.inr (backedUp_hasRoom hlt))⟩

/-- **A peer aborts another peer's handler.**  The peer has stopped reading and its queue holds
1024 frames; an announcement to it sleeps, the peer's handler ends, and the announcement raises -/
theorem announcement_raises : ∃ s t, (∃ tr, Path step init tr s) ∧
    step s (.call T_ASSIGN [] none) = some t ∧ ¬ t.Unharmed s.calls.length ∧
    ∃ tr t', Path step t tr t' ∧ Unread tr ∧ t'.calls[s.calls.length]? = some .raised := by
  have hno : ¬ MayDrop T_ASSIGN none := by decide
  generalize hn : WQ_MAXFRAMES = n
  have hover : (⟨0, n, 5 * n, .stalled, false⟩ : Entry).Over := by
    exact Or.inl (hn ▸ Int.le_refl _)
  obtain ⟨tr, htr⟩ := path_backedUp n (Nat.le_of_eq hn.symm)
  have hent : (backedUp T_ASSIGN [.returned] n).entry = some ⟨0, n, 5 * n, .stalled, false⟩ := rfl
  have hfull : ¬ (backedUp T_ASSIGN [.returned] n).HasRoom := by
    intro hroom
    have hcnt : (n : Int) < WQ_MAXFRAMES := (hroom _ hent).1
    omega
  obtain ⟨e, he, hsame, hres⟩ := rSend_suspended [] hno hfull
  cases Option.some.inj (hent.symm.trans he)
  have hserved : (backedUp T_ASSIGN [.returned] n).served = true := rfl
  generalize backedUp T_ASSIGN [.returned] n = s at *
  rcases hres with ⟨_, hres⟩ | ⟨hunder, _⟩
  · -- the call sleeps, and its frame is not in the queue
    generalize ht : ({ s with calls := s.calls ++ [Call.polling 0 (frame T_ASSIGN []) false] } : SendQ) = t
    have hst : step s (.call T_ASSIGN [] none) = some t := by
      rw [step_call, hsame, hres, ht]
    have hcall : t.calls[s.calls.length]? = some (.polling 0 (frame T_ASSIGN []) false) := by
      rw [← ht]
      exact List.getElem?_concat_length
    have hserved : t.served = true := by
      rw [← ht]
      exact hserved
    have hent : t.entry = some ⟨0, n, 5 * n, .stalled, false⟩ := by
      rw [← ht]
      exact he
    have hwf : Wf t := (Wf.path htr wf_init).step hst
    refine ⟨s, t, ⟨tr, htr⟩, hst, polling_harmed hwf hent hover hcall, ?_⟩
    have h1 : step t .retire = some t.retire := if_pos hserved
    have h2 : step t.retire .cancel = some t.retire.forget := by
      unfold step SendQ.retire
      rw [hent]
      rfl
    have hcall2 : t.retire.forget.calls[s.calls.length]?
        = some (.polling 0 (frame T_ASSIGN []) false) := by
      show t.retire.calls[_]? = _
      rw [retire_calls, hcall]
    obtain ⟨u, h3, hraised⟩ := wake_gone rfl hcall2
    refine ⟨_, u, ((Path.one h1).snoc h2).snoc h3, ?_, hraised⟩
    intro x hx
    simp only [List.mem_append, List.mem_singleton] at hx
    rcases hx with (rfl | rfl) | rfl
    · exact nofun
    · exact nofun
    · exact nofun
  · exact absurd hover hunder

end SendQ

end ShadowLan
