import ShadowLan.Relay.Stall
import Mathlib.Algebra.Order.Ring.Nat
import Mathlib.Data.List.ReduceOption

/-!
# The counters of a send queue

`r_send` reads the counters of a writer before it may sleep and replaces them after the frame is on
the queue; the drain task changes them in place.  As long as the writer is not torn down, no
suspension lies between a reading and the write that it leads to.

* `queued`            the frames on the queue;
* `entered`, `written`   what a step puts on the queue, and what it writes to the connection;
* `Exact`, `Tally`    the counters, and the calls that sleep;
* `accounted`         exact and bounded counters, and frames written in the order they came.
-/

namespace ShadowLan

/-- a step of a call, of the drain task or of the peer: the writer stays as it is -/
def SendAct.stays : SendAct → Bool
  | .lost | .cancel | .retire => false
  | _ => true

namespace SendQ
variable {s t : SendQ} {e : Entry} {fs : List Bytes}

/-- the frames on the queue of the writer, the oldest first -/
def queued (s : SendQ) : List Bytes := s.entry.elim [] fun e => (s.items e.q).reduceOption

/-- the second counter of the writer -/
def bytes (s : SendQ) : Int := s.entry.elim 0 Entry.byts

def total (fs : List Bytes) : Nat := (fs.map List.length).sum

/-- the frames that a step put on the queue -/
def entered (x : SendQ × SendAct) : List Bytes :=
  match x.2 with
  | .drain _ => []
  | a => (step x.1 a).elim [] fun t => t.queued.drop x.1.queued.length

/-- the frame that a step of the drain task writes to the connection -/
def written (x : SendQ × SendAct) : List Bytes :=
  match x.2 with
  | .drain stalls => ((x.1.entry.bind fun e => x.1.drainNext e stalls).bind Prod.snd).toList
  | _ => []

/-- the step is one of a call whose frame may be dropped -/
def dropping (s : SendQ) : SendAct → Bool
  | .call mtype _ droppable => droppable.getD (DROPPABLE.contains mtype)
  | .wake i =>
    match s.calls[i]? with
    | some (.polling _ _ droppable) => droppable
    | _ => false
  | _ => false

/-- nothing is queued under the name of the writer, and no call sleeps -/
structure Unused (s : SendQ) : Prop where
  entry : s.entry = none
  calls : ∀ c ∈ s.calls, c = .returned ∨ c = .raised

theorem unused_init : Unused init := ⟨rfl, fun _ h => absurd h List.not_mem_nil⟩

/-! ## the invariant -/

/-- the queue of the entry holds these frames and no end mark, and the counters are theirs -/
structure Exact (s : SendQ) (e : Entry) (fs : List Bytes) : Prop where
  items : s.items e.q = fs.map some
  place : e.q < s.queues.length
  alive : e.cancelled = false
  cnt : e.cnt = fs.length
  byts : e.byts = total fs
  room : fs.length ≤ WQ_MAXFRAMES
  /-- the cap was kept before the last frame came -/
  capped : total fs.dropLast ≤ WQ_MAXBYTES

/-- a call that sleeps holds the queue of the entry and is not in `q.put`, and its frame may not be dropped -/
def Rests (s : SendQ) (c : Call) : Prop :=
  c = .returned ∨ c = .raised ∨ ∃ f e, s.entry = some e ∧ c = .polling e.q f false

structure Tally (s : SendQ) : Prop where
  entry : ∀ e, s.entry = some e → ∃ fs, s.Exact e fs
  calls : ∀ c ∈ s.calls, s.Rests c

theorem Unused.tally (h : Unused s) : Tally s where
  entry := fun e he => by rw [h.entry] at he; cases he
  calls := fun c hc => by
    rcases h.calls c hc with h | h
    · exact Or.inl h
    · exact Or.inr (Or.inl h)

theorem Unused.queued (h : Unused s) : s.queued = [] := by
  rw [SendQ.queued, h.entry]
  rfl

theorem reduceOption_map_some (fs : List Bytes) : (fs.map some).reduceOption = fs := by
  induction fs with
  | nil => rfl
  | cons f fs ih => rw [List.map_cons, List.reduceOption_cons_of_some, ih]

theorem Exact.queued (h : s.Exact e fs) (he : s.entry = some e) : s.queued = fs := by
  rw [SendQ.queued, he]
  show (s.items e.q).reduceOption = fs
  rw [h.items, reduceOption_map_some]

theorem Exact.bytes (h : s.Exact e fs) (he : s.entry = some e) : s.bytes = total fs := by
  rw [SendQ.bytes, he]
  exact h.byts

theorem under (ho : ¬ e.Over) : e.cnt < WQ_MAXFRAMES ∧ e.byts ≤ WQ_MAXBYTES := by
  obtain ⟨hc, hb⟩ := not_or.mp ho
  exact ⟨Int.not_le.mp hc, Int.not_lt.mp hb⟩

/-- counters that let a frame in leave a place on the queue -/
theorem Exact.notFull (h : s.Exact e fs) (ho : ¬ e.Over) : s.isFull e.q = false := by
  have hcnt := (under ho).1
  rw [h.cnt] at hcnt
  rw [Bool.eq_false_iff, Ne, isFull_iff, h.items, List.length_map]
  omega

/-- the same queues, and an entry with the same counters -/
theorem Exact.congr (h : s.Exact e fs) {e' : Entry} (hq : t.queues = s.queues) (he : e'.q = e.q)
    (hc : e'.cancelled = e.cancelled) (hcnt : e'.cnt = e.cnt) (hb : e'.byts = e.byts) :
    t.Exact e' fs where
  items := by
    unfold SendQ.items
    rw [hq, he]
    exact h.items
  place := by rw [hq, he]; exact h.place
  alive := by rw [hc]; exact h.alive
  cnt := by rw [hcnt]; exact h.cnt
  byts := by rw [hb]; exact h.byts
  room := h.room
  capped := h.capped

/-! ## the calls -/

theorem total_append (fs gs : List Bytes) : total (fs ++ gs) = total fs + total gs := by
  simp [total]

/-- the state after a frame went on the queue and was counted -/
def counted (s : SendQ) (e : Entry) (f : Bytes) : SendQ :=
  (s.append e.q (some f)).setSize (e.cnt + 1) (e.byts + f.length)

theorem counted_entry (he : s.entry = some e) (f : Bytes) : (s.counted e f).entry =
    some { e with cnt := e.cnt + 1, byts := e.byts + f.length } := by
  show s.entry.map _ = _
  rw [he]
  rfl

theorem Exact.counted (h : s.Exact e fs) (ho : ¬ e.Over) (f : Bytes) :
    (s.counted e f).Exact { e with cnt := e.cnt + 1, byts := e.byts + f.length } (fs ++ [f]) where
  items := by
    show (s.append e.q (some f)).items e.q = _
    rw [items_append, if_pos ⟨rfl, h.place⟩, h.items]
    simp
  place := by
    show e.q < (s.queues.set e.q _).length
    rw [List.length_set]
    exact h.place
  alive := h.alive
  cnt := by
    show e.cnt + 1 = _
    rw [h.cnt]
    simp
  byts := by
    show e.byts + f.length = _
    rw [h.byts, total_append]
    simp [total]
  room := by
    have hcnt := (under ho).1
    rw [h.cnt] at hcnt
    rw [List.length_append, List.length_singleton]
    omega
  capped := by
    have hbyts := (under ho).2
    rw [h.byts] at hbyts
    rw [List.dropLast_concat]
    omega

/-- what a step of a call does to the queue -/
structure Adds (s t : SendQ) (drop : Bool) : Prop where
  tally : ∀ e, t.entry = some e → ∃ fs, t.Exact e fs
  same : ∀ e, s.entry = some e → ∃ e', t.entry = some e' ∧ e'.q = e.q
  grows : ∃ new, t.queued = s.queued ++ new
  low : drop = true → t.bytes ≤ s.bytes ∨ t.bytes ≤ WQ_DROP_BYTES

theorem Adds.refl (h : ∀ e, s.entry = some e → ∃ fs, s.Exact e fs) (drop : Bool) : Adds s s drop :=
  ⟨h, fun e he => ⟨e, he, rfl⟩, ⟨[], (List.append_nil _).symm⟩, fun _ => Or.inl (Int.le_refl _)⟩

theorem Adds.trans {u : SendQ} {drop : Bool} (h : Adds s u drop) (h' : Adds u t drop) :
    Adds s t drop where
  tally := h'.tally
  same := fun e he => by
    obtain ⟨e1, he1, hq1⟩ := h.same e he
    obtain ⟨e2, he2, hq2⟩ := h'.same e1 he1
    exact ⟨e2, he2, hq2.trans hq1⟩
  grows := by
    obtain ⟨new, hnew⟩ := h.grows
    obtain ⟨more, hmore⟩ := h'.grows
    exact ⟨new ++ more, by rw [hmore, hnew, List.append_assoc]⟩
  low := fun hd => by
    have h1 := h.low hd
    have h2 := h'.low hd
    omega

theorem Exact.adds (h : s.Exact e fs) (he : s.entry = some e) (ho : ¬ e.Over) {f : Bytes}
    {drop : Bool} (hd : drop = true → e.byts + f.length ≤ WQ_DROP_BYTES) :
    Adds s (s.counted e f) drop where
  tally := fun e' he' => by
    cases Option.some.inj ((counted_entry he f).symm.trans he')
    exact ⟨_, h.counted ho f⟩
  same := fun e' he' => by
    cases Option.some.inj (he.symm.trans he')
    exact ⟨_, counted_entry he f, rfl⟩
  grows := ⟨[f], by rw [(h.counted ho f).queued (counted_entry he f), h.queued he]⟩
  low := fun hdrop => by
    have hb : (s.counted e f).bytes = e.byts + f.length := by
      rw [SendQ.bytes, counted_entry he f]
      rfl
    rw [hb]
    exact Or.inr (hd hdrop)

/-- one look at the counters: the call sleeps on, or its frame is on the queue -/
theorem Exact.attempt (h : s.Exact e fs) (f : Bytes) (drop : Bool) :
    s.attempt e e.q f drop =
      if e.Over then (s, .polling e.q f drop) else (s.counted e f, .returned) := by
  unfold SendQ.attempt
  by_cases ho : e.Over
  · rw [if_pos ho, if_pos ho]
  · rw [if_neg ho, if_neg ho]
    unfold SendQ.put
    rw [h.notFull ho]
    rfl

/-- a queue that was there stays, and a new one is empty with counters at zero -/
theorem Tally.opened (h : Tally s) (drop : Bool) :
    (∃ fs, s.opened.1.Exact s.opened.2 fs) ∧ Adds s s.opened.1 drop := by
  unfold SendQ.opened
  cases he : s.entry with
  | some e => exact ⟨h.entry e he, Adds.refl h.entry drop⟩
  | none =>
    have hnew : (s.queues ++ [[]]).getD s.queues.length [] = ([] : List (Option Bytes)) := by simp
    have hexact : Exact { s with queues := s.queues ++ [[]], entry := some ⟨s.queues.length, 0, 0, .fresh, false⟩ }
        ⟨s.queues.length, 0, 0, .fresh, false⟩ [] :=
      ⟨hnew, by simp, rfl, rfl, rfl, Nat.zero_le _, Nat.zero_le _⟩
    refine ⟨⟨[], hexact⟩, ?_, ?_, ?_, ?_⟩
    · intro e' he'
      cases Option.some.inj he'
      exact ⟨[], hexact⟩
    · intro e' he'
      rw [he] at he'
      cases he'
    · refine ⟨[], ?_⟩
      rw [hexact.queued rfl, SendQ.queued, he]
      rfl
    · intro _
      rw [SendQ.bytes, SendQ.bytes, he]
      exact Or.inl (Int.le_refl 0)

theorem Rests.later {c : Call} (h : s.Rests c)
    (hs : ∀ e, s.entry = some e → ∃ e', t.entry = some e' ∧ e'.q = e.q) : t.Rests c := by
  rcases h with h | h | ⟨f, e, he, h⟩
  · exact Or.inl h
  · exact Or.inr (Or.inl h)
  · obtain ⟨e', he', hq⟩ := hs e he
    exact Or.inr (Or.inr ⟨f, e', he', by rw [hq]; exact h⟩)

/-- **A call.**  Its frame is counted as it is put on the queue, or it sleeps, or it drops it. -/
theorem Tally.rSend (h : Tally s) (mtype : UInt8) (payload : Bytes) (droppable : Option Bool) :
    Adds s (s.rSend mtype payload droppable).1 (droppable.getD (DROPPABLE.contains mtype)) ∧
    (s.rSend mtype payload droppable).1.Rests (s.rSend mtype payload droppable).2 := by
  obtain ⟨⟨fs, hfs⟩, hopen⟩ := h.opened (droppable.getD (DROPPABLE.contains mtype))
  have hent : s.opened.1.entry = some s.opened.2 := opened_entry s
  unfold SendQ.rSend
  generalize s.opened = o at *
  generalize droppable.getD (DROPPABLE.contains mtype) = d at *
  obtain ⟨u, e⟩ := o
  dsimp only at *
  split
  · exact ⟨hopen, Or.inl rfl⟩
  · rename_i hdrop
    have hlow : d = true → e.cnt < WQ_MAXFRAMES ∧
        e.byts + (frame mtype payload).length ≤ WQ_DROP_BYTES := by
      intro hd
      have hno : ¬ (e.cnt ≥ WQ_MAXFRAMES ∨ e.byts + (frame mtype payload).length > WQ_DROP_BYTES) :=
        fun hor => hdrop ⟨hd, hor⟩
      omega
    rw [hfs.attempt]
    by_cases ho : e.Over
    · rw [if_pos ho]
      -- a frame that may be dropped came past the lower cap, and so below this one
      have hd : d = false := by
        by_contra hd
        obtain ⟨h1, h2⟩ := hlow (by simpa using hd)
        rcases ho with ho | ho
        · omega
        · have hcap : (WQ_DROP_BYTES : Int) ≤ WQ_MAXBYTES := by decide
          omega
      rw [hd] at hopen ⊢
      exact ⟨hopen, Or.inr (Or.inr ⟨_, e, hent, rfl⟩)⟩
    · rw [if_neg ho]
      exact ⟨hopen.trans (hfs.adds hent ho fun hd => (hlow hd).2), Or.inl rfl⟩

/-- a call that wakes up reads the counters anew -/
theorem Tally.resume (h : Tally s) {c c' : Call} {u : SendQ} (hc : s.Rests c)
    (hr : s.resume c = some (u, c')) : Adds s u false ∧ u.Rests c' ∧ u.calls = s.calls := by
  rcases hc with rfl | rfl | ⟨f, e, he, rfl⟩
  · cases hr
  · cases hr
  · obtain ⟨fs, hfs⟩ := h.entry e he
    have hatt : s.attempt e e.q f false = (u, c') := by
      unfold SendQ.resume at hr
      rw [he] at hr
      exact Option.some.inj hr
    rw [hfs.attempt] at hatt
    by_cases ho : e.Over
    · rw [if_pos ho] at hatt
      cases hatt
      exact ⟨Adds.refl h.entry false, Or.inr (Or.inr ⟨f, e, he, rfl⟩), rfl⟩
    · rw [if_neg ho] at hatt
      cases hatt
      exact ⟨hfs.adds he ho nofun, Or.inl rfl, rfl⟩

/-- where the calls stand is no matter of the queue -/
theorem Adds.withCalls {drop : Bool} (h : Adds s t drop) (cs : List Call) :
    Adds s { t with calls := cs } drop where
  tally := fun e he => by
    obtain ⟨fs, hfs⟩ := h.tally e he
    exact ⟨fs, hfs.congr rfl rfl rfl rfl rfl⟩
  same := h.same
  grows := h.grows
  low := h.low

theorem Adds.mkTally {drop : Bool} (h : Adds s t drop) (hc : ∀ c ∈ t.calls, t.Rests c) : Tally t :=
  ⟨h.tally, hc⟩

theorem step_call_tally (h : Tally s) {m : UInt8} {p : Bytes} {d : Option Bool}
    (hst : step s (.call m p d) = some t) :
    Tally t ∧ Adds s t (d.getD (DROPPABLE.contains m)) := by
  rw [step_call] at hst
  cases hst
  obtain ⟨hadds, hrest⟩ := h.rSend m p d
  have hall := hadds.withCalls ((s.rSend m p d).1.calls ++ [(s.rSend m p d).2])
  refine ⟨hall.mkTally ?_, hall⟩
  intro c hc
  rcases List.mem_append.mp hc with hc | hc
  · rw [rSend_calls] at hc
    exact (h.calls c hc).later hadds.same
  · rw [List.mem_singleton.mp hc]
    exact hrest

theorem step_wake_tally (h : Tally s) {i : Nat} (hst : step s (.wake i) = some t) :
    Tally t ∧ Adds s t (s.dropping (.wake i)) := by
  obtain ⟨c, hc, hst⟩ := Option.bind_eq_some_iff.mp hst
  obtain ⟨⟨u, c'⟩, hr, hst⟩ := Option.bind_eq_some_iff.mp hst
  cases hst
  have hmem : c ∈ s.calls := List.mem_of_getElem? hc
  have hrest := h.calls c hmem
  obtain ⟨hadds, hrest', hcalls⟩ := h.resume hrest hr
  have hdrop : s.dropping (.wake i) = false := by
    rcases hrest with rfl | rfl | ⟨f, e, _, rfl⟩ <;> simp [dropping, hc]
  rw [hdrop]
  have hall := hadds.withCalls (u.calls.set i c')
  refine ⟨hall.mkTally ?_, hall⟩
  intro c1 hc1
  rcases List.mem_or_eq_of_mem_set hc1 with hc1 | rfl
  · rw [hcalls] at hc1
    exact (h.calls c1 hc1).later hadds.same
  · exact hrest'

/-! ## the drain task -/

/-- the same queues, and an entry that differs in where its task stands -/
theorem Tally.aside (h : Tally s) (d : Drain) (drop : Bool) :
    Tally (s.setDrain d) ∧ Adds s (s.setDrain d) drop := by
  have htally : ∀ e, (s.setDrain d).entry = some e → ∃ fs, (s.setDrain d).Exact e fs := by
    intro e he
    obtain ⟨e', he', rfl⟩ := setDrain_entry he
    obtain ⟨fs, hfs⟩ := h.entry e' he'
    exact ⟨fs, hfs.congr rfl rfl rfl rfl rfl⟩
  have hsame : ∀ e, s.entry = some e → ∃ e', (s.setDrain d).entry = some e' ∧ e'.q = e.q := by
    intro e he
    exact ⟨_, congrArg (Option.map _) he, rfl⟩
  have hadds : Adds s (s.setDrain d) drop := by
    refine ⟨htally, hsame, ⟨[], ?_⟩, fun _ => Or.inl ?_⟩
    · rw [List.append_nil, SendQ.queued, SendQ.queued]
      cases he : s.entry with
      | none => simp [SendQ.setDrain, he]
      | some e =>
        simp only [SendQ.setDrain, he]
        rfl
    · rw [SendQ.bytes, SendQ.bytes]
      cases he : s.entry with
      | none => simp [SendQ.setDrain, he]
      | some e => simp [SendQ.setDrain, he]
  exact ⟨hadds.mkTally fun c hc => (h.calls c hc).later hsame, hadds⟩

/-- the frame at the head leaves the queue and is taken off the counters -/
theorem Exact.drained (h : s.Exact e fs) (he : s.entry = some e) {stalls : Bool}
    {w : Option Bytes} (ht : s.drainNext e stalls = some (t, w)) : ∃ f gs e', fs = f :: gs ∧
      w = some f ∧ t.entry = some e' ∧ e'.q = e.q ∧ t.Exact e' gs ∧ t.calls = s.calls := by
  have hcalls := drainNext_calls ht
  unfold SendQ.drainNext at ht
  rw [h.items] at ht
  cases fs with
  | nil => cases ht
  | cons f gs =>
    cases ht
    refine ⟨f, gs, ⟨e.q, e.cnt - 1, e.byts - f.length, if stalls then .stalled else .ready, e.cancelled⟩,
      rfl, rfl, ?_, rfl, ⟨?_, ?_, h.alive, ?_, ?_, ?_, ?_⟩, hcalls⟩
    · show ((s.takeHead e).entry.map _).map _ = _
      rw [show (s.takeHead e).entry = some e from he]
      rfl
    · show (s.takeHead e).items e.q = _
      rw [items_takeHead, if_pos rfl, h.items]
      rfl
    · show e.q < (s.queues.set e.q _).length
      rw [List.length_set]
      exact h.place
    · show e.cnt - 1 = _
      rw [h.cnt, List.length_cons]
      omega
    · show e.byts - f.length = _
      rw [h.byts]
      simp only [total, List.map_cons, List.sum_cons]
      omega
    · have hroom := h.room
      rw [List.length_cons] at hroom
      omega
    · have hcap := h.capped
      cases gs with
      | nil => exact Nat.zero_le _
      | cons g gs =>
        rw [List.dropLast_cons_of_ne_nil (List.cons_ne_nil g gs)] at hcap
        simp only [total, List.map_cons, List.sum_cons] at hcap ⊢
        omega

theorem step_drain_tally (h : Tally s) {stalls : Bool} (hst : step s (.drain stalls) = some t) :
    Tally t ∧ s.queued = written (s, .drain stalls) ++ t.queued ∧ t.bytes ≤ s.bytes := by
  obtain ⟨e, he, hst⟩ := Option.bind_eq_some_iff.mp hst
  obtain ⟨-, hst⟩ := Option.ite_none_right_eq_some.mp hst
  obtain ⟨fs, hfs⟩ := h.entry e he
  obtain ⟨⟨t', w⟩, hnext, rfl⟩ := Option.map_eq_some_iff.mp hst
  obtain ⟨f, gs, e', rfl, rfl, he', hq, hgs, hcalls⟩ := hfs.drained he hnext
  refine ⟨⟨?_, ?_⟩, ?_, ?_⟩
  · intro e1 he1
    cases Option.some.inj (he'.symm.trans he1)
    exact ⟨gs, hgs⟩
  · intro c hc
    rw [hcalls] at hc
    refine (h.calls c hc).later fun e1 he1 => ?_
    cases Option.some.inj (he.symm.trans he1)
    exact ⟨e', he', hq⟩
  · have hw : written (s, .drain stalls) = [f] := by
      unfold written
      simp only [he, Option.bind_some, hnext, Option.toList_some]
    rw [hw, hfs.queued he, hgs.queued he']
    rfl
  · rw [hfs.bytes he, hgs.bytes he']
    simp only [total, List.map_cons, List.sum_cons]
    omega

/-! ## one step, and a run -/

/-- **A step of a call or of the task.**  What it writes leaves the queue in front, what it puts on
the queue comes behind, and a frame that may be dropped does not bring the bytes over its limit. -/
theorem step_tally (h : Tally s) {a : SendAct} (ha : a.stays = true) (hst : step s a = some t) :
    Tally t ∧ s.queued ++ entered (s, a) = written (s, a) ++ t.queued ∧
      (s.dropping a = true → t.bytes ≤ s.bytes ∨ t.bytes ≤ WQ_DROP_BYTES) := by
  -- nothing but the drain task writes
  have hadds : (∀ d, a ≠ .drain d) → Adds s t (s.dropping a) →
      s.queued ++ entered (s, a) = written (s, a) ++ t.queued := by
    intro hno hadds
    obtain ⟨new, hnew⟩ := hadds.grows
    have hent : entered (s, a) = t.queued.drop s.queued.length := by
      unfold entered
      cases a with
      | drain d => exact absurd rfl (hno d)
      | _ => simp only [hst, Option.elim]
    have hwr : written (s, a) = [] := by
      unfold written
      cases a with
      | drain d => exact absurd rfl (hno d)
      | _ => rfl
    rw [hent, hwr, hnew, List.drop_left, List.nil_append]
  cases a with
  | call m p d =>
    obtain ⟨ht, hall⟩ := step_call_tally h hst
    exact ⟨ht, hadds nofun hall, hall.low⟩
  | wake i =>
    obtain ⟨ht, hall⟩ := step_wake_tally h hst
    exact ⟨ht, hadds nofun hall, hall.low⟩
  | drain d =>
    obtain ⟨ht, hq, hb⟩ := step_drain_tally h hst
    refine ⟨ht, ?_, fun _ => Or.inl hb⟩
    rw [← hq]
    exact List.append_nil _
  | accept =>
    obtain ⟨-, hst⟩ := Option.ite_none_right_eq_some.mp hst
    cases hst
    have hall : Adds s { s with served := true } false :=
      ⟨fun e he => by
        obtain ⟨fs, hfs⟩ := h.entry e he
        exact ⟨fs, hfs.congr rfl rfl rfl rfl rfl⟩,
      fun e he => ⟨e, he, rfl⟩, ⟨[], (List.append_nil _).symm⟩, nofun⟩
    exact ⟨hall.mkTally h.calls, hadds nofun hall, nofun⟩
  | start =>
    obtain ⟨e, he, hst⟩ := Option.bind_eq_some_iff.mp hst
    obtain ⟨-, hst⟩ := Option.ite_none_right_eq_some.mp hst
    cases hst
    obtain ⟨ht, hall⟩ := h.aside (if e.cancelled then .dead else .ready) false
    exact ⟨ht, hadds nofun hall, nofun⟩
  | read =>
    obtain ⟨e, he, hst⟩ := Option.bind_eq_some_iff.mp hst
    obtain ⟨-, hst⟩ := Option.ite_none_right_eq_some.mp hst
    cases hst
    obtain ⟨ht, hall⟩ := h.aside .ready false
    exact ⟨ht, hadds nofun hall, nofun⟩
  | lost => cases ha
  | cancel => cases ha
  | retire => cases ha

theorem Exact.bound (h : s.Exact e fs) :
    total fs ≤ WQ_MAXBYTES + fs.getLast?.elim 0 List.length := by
  have hcap := h.capped
  rcases List.eq_nil_or_concat fs with rfl | ⟨gs, f, rfl⟩
  · exact Nat.zero_le _
  · rw [List.concat_eq_append] at hcap ⊢
    rw [List.dropLast_concat] at hcap
    rw [total_append, List.getLast?_concat]
    simp only [total, List.map_cons, List.map_nil, List.sum_cons, List.sum_nil, Option.elim] at hcap ⊢
    omega

/-- the counters, the caps and the order, at the end of a run -/
structure Accounted (tr : List (SendQ × SendAct)) (t : SendQ) : Prop where
  /-- the counters are those of the queue, which holds nothing but frames -/
  exact : ∀ e, t.entry = some e →
    t.items e.q = t.queued.map some ∧ e.cnt = t.queued.length ∧ e.byts = total t.queued
  frames : t.queued.length ≤ WQ_MAXFRAMES
  /-- the bytes exceed the cap by the last frame at most -/
  bytes : total t.queued ≤ WQ_MAXBYTES + t.queued.getLast?.elim 0 List.length
  dropped : ∀ x ∈ tr, x.1.dropping x.2 = true → ∀ u, step x.1 x.2 = some u →
    u.bytes ≤ x.1.bytes ∨ u.bytes ≤ WQ_DROP_BYTES
  order : tr.flatMap entered = tr.flatMap written ++ t.queued

/-- **The accounts of a send queue.**  However the calls, the drain task and the peer take turns:
as long as the writer is not torn down, its counters are exact and bounded, and its frames are
written in the order they entered the queue. -/
theorem accounted {tr : List (SendQ × SendAct)} (h : Path step s tr t) (hnew : Unused s)
    (hstay : ∀ x ∈ tr, x.2.stays = true) : Accounted tr t := by
  have hstep : ∀ u a u', Tally u → a.stays = true → step u a = some u' → Tally u' :=
    fun _ _ _ hu ha hst => (step_tally hu ha hst).1
  have hall : ∀ u ∈ visited tr t, Tally u := h.all_of_ok hnew.tally (fun _ hu => hu) hstep hstay
  have ht : Tally t := hall t (List.mem_append_right _ (List.mem_singleton_self t))
  have hlow : ∀ x ∈ tr, x.1.dropping x.2 = true → ∀ u, step x.1 x.2 = some u →
      u.bytes ≤ x.1.bytes ∨ u.bytes ≤ WQ_DROP_BYTES := fun x hx hd _ hst =>
    (step_tally (hall x.1 (mem_visited hx)) (hstay x hx) hst).2.2 hd
  have hqueue : ∀ x ∈ tr, ∀ u, step x.1 x.2 = some u →
      queued x.1 ++ entered x = written x ++ queued u := fun x hx _ hst =>
    (step_tally (hall x.1 (mem_visited hx)) (hstay x hx) hst).2.1
  have horder : tr.flatMap entered = tr.flatMap written ++ t.queued := by
    have hfifo := h.fifo hqueue
    rw [hnew.queued] at hfifo
    exact hfifo
  cases he : t.entry with
  | none =>
    have hq : t.queued = [] := by
      rw [SendQ.queued, he]
      rfl
    refine ⟨fun e h' => ?_, ?_, ?_, hlow, horder⟩
    · rw [he] at h'
      cases h'
    · rw [hq]
      exact Nat.zero_le _
    · rw [hq]
      exact Nat.zero_le _
  | some e =>
    obtain ⟨fs, hfs⟩ := ht.entry e he
    have hq := hfs.queued he
    refine ⟨fun e' h' => ?_, ?_, ?_, hlow, horder⟩
    · cases Option.some.inj (he.symm.trans h')
      rw [hq]
      exact ⟨hfs.items, hfs.cnt, hfs.byts⟩
    · rw [hq]
      exact hfs.room
    · rw [hq]
      exact hfs.bound

/-- two frames are queued, one of them a beacon, and the first one is written -/
def twoFrames : List SendAct :=
  [.accept, .call T_ASSIGN [1, 2] none, .call T_BCAST [3] none, .start, .drain true, .read]

theorem accounted_twoFrames : ∃ t, run step init twoFrames = some t ∧ t.queued = [frame T_BCAST [3]] ∧
    Accounted (trace step init twoFrames) t := by
  have hsome : (run step init twoFrames).isSome = true := by decide
  obtain ⟨t, ht⟩ := Option.isSome_iff_exists.mp hsome
  have hq : ∀ t ∈ run step init twoFrames, t.queued = [frame T_BCAST [3]] := by decide
  have hstay : ∀ x ∈ trace step init twoFrames, x.2.stays = true := by decide
  exact ⟨t, ht, hq t ht, accounted (path_run ht) unused_init hstay⟩

end SendQ
end ShadowLan
