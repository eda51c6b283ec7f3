import ShadowLan.Hook.Release

/-!
# Slots of the stream table that nobody frees

A slot whose app socket is closed is freed by its own thread, in two places: at the verdict, if
the socket was given up before, and in the tail of the pipe.  A thread that ends anywhere else
leaves its slot to the app's `close()`, and `dt_on_close` frees only a slot whose thread has not
got to the wire.

* `NoLeak`         a closed stream whose thread has returned has no slot; so a full table is full
                   of open sockets and running threads;
* `LeakOk`         close finds a slot that it frees itself or whose thread is between its abort
                   check and its tail, and such a thread gets `DT_STOPEN` out and is confirmed;
* `no_leak`        a run of such steps leaks no slot;
* `leaked_dial`    a failed dial, then close: the slot is lost.
-/

namespace ShadowLan

/-- between the abort check and the tail -/
def Pc.serves : Pc → Bool
  | .stopen | .wait => true
  | pc => pc.piping

namespace StreamTable

/-- the thread of the slot's stream has not returned -/
def running (T : StreamTable) (i : Slot) : Bool :=
  T.threads[T.tid i]?.any fun w => w.thread.pc != .done

/-- the thread of the slot's stream has the slot and will free it -/
def serving (T : StreamTable) (i : Slot) : Bool :=
  T.threads[T.tid i]?.any fun w =>
    w.slot == some i && w.thread.sid == (T.g_st i).sid && w.thread.pc.serves

/-- a slot is in use, and the app has closed the socket of its stream -/
def orphan (T : StreamTable) (i : Slot) : Bool := (T.g_st i).used && T.closed i

def NoLeak (T : StreamTable) : Prop :=
  (∀ i, T.orphan i = true → T.running i = true) ∧
    (T.freeSlot = none →
      ∀ i, (T.g_st i).used = true ∧ (T.closed i = false ∨ T.running i = true))

/-- no orphan is left to a thread that will not free its slot -/
def LeakOk (T : StreamTable) : TableAct → Prop
  | .close s => ∀ i, (T.g_st i).used = true → T.owner i = s → T.closed i = false →
      T.bySock s = some i ∧
        (((T.g_st i).state = .connecting ∧ (T.g_st i).fdLive = false) ∨ T.serving i = true)
  | .thread k (.stopen false _) => ∀ i, T.tid i = k → T.orphan i = false
  | .thread k (.verdict none) => ∀ i, T.tid i = k → T.orphan i = false
  | .thread k (.verdict (some (type, rp))) => ∀ i, T.tid i = k → T.orphan i = true →
      (T.g_st i).gsock = 0 ∨ DtStream.isStok (T.g_st i).sid type rp = true
  | _ => True

instance (T : StreamTable) (a : TableAct) : Decidable (T.LeakOk a) := by
  unfold LeakOk
  split <;> infer_instance

theorem serving_iff {T : StreamTable} {i : Slot} : T.serving i = true ↔
    ∃ t, T.threads[T.tid i]? = some ⟨some i, t⟩ ∧ t.sid = (T.g_st i).sid ∧
      t.pc.serves = true := by
  unfold serving
  cases h : T.threads[T.tid i]? with
  | none => simp
  | some w =>
    obtain ⟨slot, t⟩ := w
    simp [and_assoc]

theorem running_of_serving {T : StreamTable} {i : Slot} (h : T.serving i = true) :
    T.running i = true := by
  obtain ⟨t, ht, -, hs⟩ := serving_iff.mp h
  unfold running
  rw [ht]
  show (t.pc != .done) = true
  rw [bne_iff_ne]
  rintro e
  rw [e] at hs; cases hs

/-! ## the invariant -/

/-- every orphan was handed to a thread that will free it -/
def Tended (T : StreamTable) : Prop :=
  ∀ i, T.orphan i = true → (T.g_st i).dead = true ∧ T.serving i = true

theorem tended_init : Tended init := by
  intro i h
  cases h

theorem Tended.noLeak {T : StreamTable} (h : T.Tended) : T.NoLeak := by
  have hrun : ∀ i, T.orphan i = true → T.running i = true :=
    fun i hi => running_of_serving (h i hi).2
  refine ⟨hrun, fun hfull i => ?_⟩
  have hu : (T.g_st i).used = true := by
    have := Fin.find?_eq_none_iff.mp hfull i
    simpa using this
  refine ⟨hu, ?_⟩
  cases hc : T.closed i with
  | false => exact Or.inl rfl
  | true => exact Or.inr (hrun i (by simp [orphan, hu, hc]))

theorem orphan_of {T T' : StreamTable} {i : Slot} (hk : (T.g_st i).Keeps (T'.g_st i))
    (hc : T'.closed i = T.closed i) (h : T'.orphan i = true) : T.orphan i = true := by
  unfold orphan at h ⊢
  rw [hc] at h
  obtain ⟨hu, hcl⟩ := Bool.and_eq_true_iff.mp h
  rw [hk.used hu, hcl]; rfl

/-- a step that leaves the threads alone keeps the thread at its slot -/
theorem serving_keep {T T' : StreamTable} {i : Slot} (hk : (T.g_st i).Keeps (T'.g_st i))
    (htid : T'.tid = T.tid) (hth : T'.threads = T.threads) (h : T.serving i = true) :
    T'.serving i = true := by
  obtain ⟨t, ht, hs, hpc⟩ := serving_iff.mp h
  exact serving_iff.mpr ⟨t, by rw [hth, htid]; exact ht, hs.trans hk.sid.symm, hpc⟩

/-- a step that leaves the threads and the app's closes alone -/
theorem Tended.quiet {T T' : StreamTable} {a : TableAct} (h : T.Tended) (hk : StepKeeps T T' a)
    (hth : T'.threads = T.threads) (ha : ∀ s, a ≠ .close s) : T'.Tended := by
  intro i ho
  obtain ⟨hd, hs⟩ := h i (orphan_of (hk.slots i) (congrFun (hk.closed ha) i) ho)
  exact ⟨(hk.slots i).dead hd, serving_keep (hk.slots i) hk.tid hth hs⟩

theorem onSlot_threads (T : StreamTable) (s : Nat) (f : DtStream → DtStream) :
    (T.onSlot s f).threads = T.threads ∧ (T.onSlot s f).tid = T.tid := by
  unfold onSlot
  cases T.bySock s <;> exact ⟨rfl, rfl⟩

/-! ## steps -/

theorem Tended.close {T : StreamTable} (h : T.Tended) {s : Nat} (ok : T.LeakOk (.close s)) :
    (T.onClose s).Tended := by
  have hk := T.onSlot_stepKeeps (.close s) s DtStream.close DtStream.close_keeps
  obtain ⟨e1, e2⟩ := T.onSlot_threads s DtStream.close
  intro i ho
  have hk' : (T.g_st i).Keeps ((T.onClose s).g_st i) := hk.slots i
  have hu' : ((T.onClose s).g_st i).used = true := (Bool.and_eq_true_iff.mp ho).1
  have hu := hk'.used hu'
  cases hc : T.closed i with
  | true =>
    obtain ⟨hd, hs⟩ := h i (by simp [orphan, hu, hc])
    exact ⟨hk'.dead hd, serving_keep hk' e2 e1 hs⟩
  | false =>
    have hown : T.owner i = s := by
      have hcl : (T.closed i || T.owner i == s) = true := (Bool.and_eq_true_iff.mp ho).2
      simpa [hc] using hcl
    obtain ⟨hf, hfree⟩ := ok i hu hown hc
    have hst : (T.onClose s).g_st i = (T.g_st i).close := by
      rw [onClose_found hf, Function.update_self]
    refine ⟨by rw [hst]; exact (T.g_st i).close_sets_dead, ?_⟩
    rcases hfree with ⟨h1, h2⟩ | hs
    · rw [hst, DtStream.close_frees h1 h2] at hu'; cases hu'
    · exact serving_keep hk' e2 e1 hs

/-- a serving thread of a closed stream goes on serving or frees the slot, unless its `DT_STOPEN`
fails or the stream is not confirmed -/
theorem section_serves {st st' : DtStream} {sid : Nat} {pc pc' : Pc} {e : Ev} {x : Eff}
    (h : Thread.Section st sid pc e st' pc' x) (hs : pc.serves = true)
    (hm : st.mine sid = true) (hd : st.dead = true) :
    pc'.serves = true ∨ st'.used = false ∨ (∃ fd, e = .stopen false fd) ∨ e = .verdict none ∨
      ∃ type rp, e = .verdict (some (type, rp)) ∧ st.gsock ≠ 0 ∧
        ¬ DtStream.isStok sid type rp = true := by
  cases h with
  | dialed | dialFailed | aborted | goesOn | closeFd => cases hs
  | stopenFailed fd => exact Or.inr (Or.inr (Or.inl ⟨fd, rfl⟩))
  | died => exact Or.inr (Or.inr (Or.inr (Or.inl rfl)))
  | refused type rp _ hg hok =>
    exact Or.inr (Or.inr (Or.inr (Or.inr ⟨type, rp, rfl, hg, hok⟩)))
  | gone type rp hno => exact absurd hm hno
  | detached => exact Or.inr (Or.inl rfl)
  | retire =>
    rw [DtStream.retire_done hm (Or.inl hd)]
    exact Or.inr (Or.inl rfl)
  | selected o r wr rd => cases wr <;> cases rd <;> exact Or.inl rfl
  | takeNone rd | again rd => cases rd <;> exact Or.inl rfl
  | _ => exact Or.inl rfl

theorem getElem?_set_other {α : Type*} {l : List α} {k j : Nat} {a : α} (h : j ≠ k) :
    (l.set k a)[j]? = l[j]? := List.getElem?_set_ne (Ne.symm h)

theorem Tended.lookup {T T' : StreamTable} (h : T.Tended) {k : Nat}
    (hstep : T.step (.lookup k) = some T') : T'.Tended := by
  have hk := step_keeps hstep (by simp)
  simp only [StreamTable.step] at hstep
  cases hw : T.threads[k]? with
  | none => rw [hw] at hstep; cases hstep
  | some w =>
    rw [hw] at hstep
    obtain ⟨hpc, hstep⟩ := Option.ite_none_right_eq_some.mp hstep
    have e := Option.some.inj hstep
    have hset : ∃ v, T'.threads = T.threads.set k v := by
      rw [← e]
      unfold StreamTable.lookup
      cases T.bySid w.thread.sid with
      | none => exact ⟨_, rfl⟩
      | some i => dsimp only; split_ifs <;> exact ⟨_, rfl⟩
    obtain ⟨v, hv⟩ := hset
    intro i ho
    obtain ⟨hd, hs⟩ := h i (orphan_of (hk.slots i) (congrFun (hk.closed (by simp)) i) ho)
    obtain ⟨t, ht, hsid, hserv⟩ := serving_iff.mp hs
    have hne : T.tid i ≠ k := by
      rintro e
      rw [e, hw] at ht
      have := Option.some.inj ht
      rw [this] at hpc
      have hpc' : t.pc = .start := hpc
      rw [hpc'] at hserv; cases hserv
    refine ⟨(hk.slots i).dead hd, serving_iff.mpr ⟨t, ?_, hsid.trans (hk.slots i).sid.symm, hserv⟩⟩
    rw [hv, hk.tid, getElem?_set_other hne]
    exact ht

theorem Tended.thread {T T' : StreamTable} (h : T.Tended) {k : Nat} {e : Ev}
    (ok : T.LeakOk (.thread k e)) (hstep : T.step (.thread k e) = some T') : T'.Tended := by
  have hk := step_keeps hstep (by simp)
  simp only [StreamTable.step] at hstep
  cases hw : T.threads[k]? with
  | none => rw [hw] at hstep; cases hstep
  | some w =>
    obtain ⟨slot, t⟩ := w
    cases slot with
    | none => rw [hw] at hstep; cases hstep
    | some i =>
      rw [hw] at hstep
      obtain ⟨⟨st', t', x⟩, hrun, e'⟩ := Option.map_eq_some_iff.mp hstep
      obtain ⟨hsid', hsec⟩ := Thread.step_section hrun
      have hth : T'.threads = T.threads.set k ⟨some i, t'⟩ := by rw [← e']; rfl
      intro j ho
      have hoj : T.orphan j = true :=
        orphan_of (hk.slots j) (congrFun (hk.closed (by simp)) j) ho
      obtain ⟨hd, hs⟩ := h j hoj
      obtain ⟨u, hu, husid, hserv⟩ := serving_iff.mp hs
      refine ⟨(hk.slots j).dead hd, serving_iff.mpr ?_⟩
      rw [hth, hk.tid]
      by_cases hj : T.tid j = k
      · -- the thread of this stream took the step
        rw [hj, hw] at hu
        cases Option.some.inj hu
        have hused : (T.g_st i).used = true := (Bool.and_eq_true_iff.mp hoj).1
        have hm : (T.g_st i).mine t.sid = true := by
          simp [DtStream.mine, hused, husid]
        have hlive : st'.used = true := by
          have hu' : (T'.g_st i).used = true := (Bool.and_eq_true_iff.mp ho).1
          have hkeep := keeps_handOver (Function.update T.g_st i st') (T.g_st i).orig x.vfail i
          rw [← e'] at hu'
          have hup := hkeep.used hu'
          rw [Function.update_self] at hup
          exact hup
        refine ⟨t', ?_, ?_, ?_⟩
        · rw [hj, List.getElem?_set_self (List.getElem?_eq_some_iff.mp hw).1]
        · rw [hsid', husid, (hk.slots i).sid]
        · rcases section_serves hsec hserv hm hd with h1 | h1 | ⟨fd, rfl⟩ | rfl | ⟨ty, rp, rfl, h1, h2⟩
          · exact h1
          · rw [hlive] at h1; cases h1
          · have := ok i hj
            rw [hoj] at this; cases this
          · have := ok i hj
            rw [hoj] at this; cases this
          · rcases ok i hj hoj with h3 | h3
            · exact absurd h3 h1
            · rw [husid] at h2
              exact absurd h3 h2
      · exact ⟨u, by rw [getElem?_set_other hj]; exact hu, husid.trans (hk.slots j).sid.symm, hserv⟩

theorem Tended.alloc {T : StreamTable} (h : T.Tended) (s sid : Nat) (dst : SockaddrIn) :
    (T.alloc s dst sid).Tended := by
  unfold StreamTable.alloc
  cases hf : T.freeSlot with
  | none => exact h
  | some i =>
    intro j ho
    obtain ⟨hu, hc⟩ := Bool.and_eq_true_iff.mp ho
    have hc' : Function.update T.closed i false j = true := hc
    have hu' : (Function.update T.g_st i ((T.g_st i).alloc s dst sid) j).used = true := hu
    have hj : j ≠ i := by
      rintro rfl
      rw [Function.update_self] at hc'; cases hc'
    rw [Function.update_of_ne hj] at hc' hu'
    obtain ⟨hd, hs⟩ := h j (by simp [orphan, hu', hc'])
    obtain ⟨t, ht, hsid, hserv⟩ := serving_iff.mp hs
    constructor
    · show (Function.update T.g_st i ((T.g_st i).alloc s dst sid) j).dead = true
      rw [Function.update_of_ne hj]; exact hd
    · refine serving_iff.mpr ⟨t, ?_, ?_, hserv⟩
      · show (T.threads ++ [_])[Function.update T.tid i T.threads.length j]? = _
        rw [Function.update_of_ne hj,
          List.getElem?_append_left (List.getElem?_eq_some_iff.mp ht).1]
        exact ht
      · show t.sid = (Function.update T.g_st i ((T.g_st i).alloc s dst sid) j).sid
        rw [Function.update_of_ne hj]; exact hsid

theorem Tended.step {T T' : StreamTable} {a : TableAct} (h : T.Tended) (ok : T.LeakOk a)
    (hstep : T.step a = some T') : T'.Tended := by
  cases a with
  | close s => cases hstep; exact h.close ok
  | lookup k => exact h.lookup hstep
  | thread k e => exact h.thread ok hstep
  | alloc k sid =>
    simp only [StreamTable.step] at hstep
    cases hk : T.pending[k]? with
    | none => rw [hk] at hstep; cases hstep
    | some x =>
      obtain ⟨s, dst⟩ := x
      rw [hk] at hstep
      rw [← Option.some.inj hstep]
      have h0 : Tended { T with pending := T.pending.eraseIdx k } := h
      exact h0.alloc s sid dst
  | connect s dst =>
    have hk := step_keeps hstep (by simp)
    refine h.quiet hk ?_ (by simp)
    simp only [StreamTable.step] at hstep
    cases hf : T.bySock s <;> rw [hf] at hstep <;> cases hstep <;> rfl
  | send s buf =>
    refine h.quiet (step_keeps hstep (by simp)) ?_ (by simp)
    cases hstep
    exact (T.onSlot_threads s fun st => (st.send buf).1).1
  | pop s blen =>
    refine h.quiet (step_keeps hstep (by simp)) ?_ (by simp)
    cases hstep
    exact (T.onSlot_threads s fun st => (st.pop blen).1).1
  | shutdown s rd wr =>
    refine h.quiet (step_keeps hstep (by simp)) ?_ (by simp)
    cases hstep
    exact (T.onSlot_threads s fun st => st.shutdown rd wr).1
  | markConnect s =>
    refine h.quiet (step_keeps hstep (by simp)) ?_ (by simp)
    cases hstep
    exact (T.onSlot_threads s fun st => { st with connectSignaled := true }).1
  | drain i e =>
    refine h.quiet (step_keeps hstep (by simp)) ?_ (by simp)
    simp only [StreamTable.step] at hstep
    obtain ⟨r, -, rfl⟩ := Option.map_eq_some_iff.mp hstep
    rfl

/-- **Slots do not leak** along a run in which close finds every stream where its slot will be
freed, and every closed stream gets its `DT_STOPEN` out and is confirmed. -/
theorem no_leak {T : StreamTable} {tr : List (StreamTable × TableAct)} (h : Path step init tr T)
    (hok : ∀ x ∈ tr, x.1.LeakOk x.2) : ∀ u ∈ visited tr T, u.NoLeak :=
  h.all_of_ok tended_init (fun _ hu => hu.noLeak) (fun _ _ _ hu ok hs => hu.step ok hs) hok

def retired : List TableAct :=
  dialing true ++ confirming ++ ([.close 7, .thread 0 .head, .thread 0 .drainTake,
    .thread 0 .retire, .thread 0 .closeFd] : List TableAct)

set_option maxRecDepth 4000 in
/-- an open stream is closed, drained and retired: its slot is free when its thread returns -/
theorem no_leak_open : ∃ tr T, Path step init tr T ∧ T.running 0 = false ∧
    (T.g_st 0).used = false ∧ ∀ u ∈ visited tr T, u.NoLeak := by
  have hrun : (run step init retired).isSome = true := by decide
  obtain ⟨T, hT⟩ := Option.isSome_iff_exists.mp hrun
  have hend : ∀ T ∈ run step init retired, T.running 0 = false ∧ (T.g_st 0).used = false := by
    decide
  obtain ⟨h1, h2⟩ := hend T hT
  exact ⟨_, T, path_run hT, h1, h2, no_leak (path_run hT) (by decide)⟩

def undialed : List TableAct := dialing false ++ [TableAct.close 7]

set_option maxRecDepth 4000 in
/-- the dial fails, then the app closes the socket: the thread has returned, the slot stays used -/
theorem leaked_dial : ∃ tr T, Path step init tr T ∧ (T.g_st 0).used = true ∧
    T.closed 0 = true ∧ T.running 0 = false := by
  have hrun : (run step init undialed).isSome = true := by decide
  obtain ⟨T, hT⟩ := Option.isSome_iff_exists.mp hrun
  have h : ∀ T ∈ run step init undialed,
      (T.g_st 0).used = true ∧ T.closed 0 = true ∧ T.running 0 = false := by
    decide
  exact ⟨_, T, path_run hT, h T hT⟩

end StreamTable

end ShadowLan
