import ShadowLan.Hook.Table

/-!
# Whose slots a stream thread writes to

A stream thread looks its slot up once and keeps the pointer.  The slot may be freed by a `close()`
and taken by another stream while the thread dials or waits, and most sections of the thread ask
`st->used && st->sid == sid` before they write.

* `Unharmed`     the sections that do not ask: what must hold of a slot for them to change nothing;
* `heir`         the slot of the stream that is handed the verdict of an abandoned dial;
* `Guarded`      the condition on a step;
* `guarded_iff`  a step of a thread leaves alone every slot that is not its own stream's exactly when
                 it meets the condition.
-/

namespace ShadowLan

/-- on a slot that is not the thread's: the section writes nothing new -/
def DtStream.Unharmed (st : DtStream) : Ev → Prop
  | .dial false | .stopen false _ => st.used = false ∨ st.state = .dead
  | .again | .commit => st.sending = false
  | .retire => st.threadDone = true
  | _ => True

instance (st : DtStream) : (e : Ev) → Decidable (st.Unharmed e)
  | .dial false | .stopen false _ => inferInstanceAs (Decidable (st.used = false ∨ st.state = .dead))
  | .again | .commit => inferInstanceAs (Decidable (st.sending = false))
  | .retire => inferInstanceAs (Decidable (st.threadDone = true))
  | .dial true | .abortCheck | .stopen true _ | .verdict _ | .head | .leave | .select .. | .take
  | .push _ | .recvErr | .recvAgain | .recvFin | .recv _ | .drainTake | .drainPush _ | .drainFail
  | .drainOk | .closeFd => instDecidableTrue

/-- the thread that makes the step -/
def TableAct.worker : TableAct → Option Nat
  | .lookup k | .thread k _ => some k
  | _ => none

namespace StreamTable
variable {T T' : StreamTable} {i j : Slot} {sid : Nat} {e : Ev}

/-- the slots that are unused or hold another stream than `sid` are the same -/
def Spares (T T' : StreamTable) (sid : Nat) : Prop :=
  ∀ j, (T.g_st j).mine sid = false → T'.g_st j = T.g_st j

/-- if the step is a thread's, it spares the slots that are not its own stream's -/
def Confined (T : StreamTable) (a : TableAct) : Prop :=
  ∀ T', T.step a = some T' → ∀ k w, a.worker = some k → T.threads[k]? = some w →
    T.Spares T' w.thread.sid

/-- who is handed the verdict of the stream `sid` in slot `i`, if its dial was abandoned: a
connecting stream with the same destination -/
def heir (T : StreamTable) (i : Slot) (sid : Nat) : Ev → Option Slot
  | .verdict (some (type, rp)) =>
    if (T.g_st i).mine sid ∧ (T.g_st i).gsock = 0 ∧ (vfailOf sid type rp).isSome then
      (peeked T.g_st (T.g_st i).orig).filter fun j => (T.g_st j).state = .connecting
    else none
  | _ => none

/-- the condition on a step -/
def Guarded (T : StreamTable) : TableAct → Prop
  | .thread k e =>
    match T.threads[k]? with
    | some ⟨some i, t⟩ =>
      ((T.g_st i).mine t.sid = false → (T.g_st i).Unharmed e) ∧
      (match T.heir i t.sid e with
        | some j => (T.g_st j).sid = t.sid
        | none => True)
    | _ => True
  | _ => True

instance (T : StreamTable) : (a : TableAct) → Decidable (T.Guarded a)
  | .thread k e => show Decidable (match T.threads[k]? with
      | some ⟨some i, t⟩ => ((T.g_st i).mine t.sid = false → (T.g_st i).Unharmed e) ∧
        (match T.heir i t.sid e with
          | some j => (T.g_st j).sid = t.sid
          | none => True)
      | _ => True) from
    match T.threads[k]? with
    | none | some ⟨none, _⟩ => instDecidableTrue
    | some ⟨some i, t⟩ =>
      have : Decidable (match T.heir i t.sid e with
          | some j => (T.g_st j).sid = t.sid
          | none => True) :=
        match T.heir i t.sid e with
        | some j => inferInstanceAs (Decidable ((T.g_st j).sid = t.sid))
        | none => instDecidableTrue
      inferInstanceAs (Decidable (_ ∧ _))
  | .connect .. | .alloc .. | .send .. | .pop .. | .shutdown .. | .markConnect _ | .close _
  | .lookup _ | .drain .. => instDecidableTrue

/-! ## sections -/

theorem failLocal_eq_self {st : DtStream} {reason : Nat} :
    st.failLocal reason = st ↔ st.used = false ∨ st.state = .dead := by
  unfold DtStream.failLocal
  split_ifs with h
  · -- the state changes
    refine iff_of_false (fun heq => h.2 (congrArg DtStream.state heq).symm) ?_
    rintro (hu | hd)
    · exact Bool.noConfusion (hu.symm.trans h.1)
    · exact h.2 hd
  · refine iff_of_true rfl ?_
    by_cases hu : st.used = true
    · exact Or.inr (of_not_not fun hd => h ⟨hu, hd⟩)
    · exact Or.inl (Bool.eq_false_iff.mpr hu)

theorem sending_eq_self {st : DtStream} :
    { st with sending := false } = st ↔ st.sending = false :=
  ⟨fun heq => (congrArg DtStream.sending heq).symm, fun h => by rw [← h]⟩

theorem sent_foreign {st : DtStream} (hm : st.mine sid = false) (k : Nat) :
    st.sent sid k = { st with sending := false } := by
  have hm' : ({ st with sending := false } : DtStream).mine sid = false := hm
  unfold DtStream.sent
  dsimp only
  rw [hm', if_neg fun h => Bool.noConfusion h.1]

theorem retire_foreign {st : DtStream} (hm : st.mine sid = false) :
    st.retire sid = { st with threadDone := true } := by
  have hm' : ({ st with threadDone := true } : DtStream).mine sid = false := hm
  unfold DtStream.retire
  dsimp only
  rw [hm', if_neg Bool.false_ne_true]

/-- a section leaves a slot that is not its own as it is exactly when it writes nothing new -/
theorem section_foreign {st st' : DtStream} {pc pc' : Pc} {x : Eff}
    (h : Thread.Section st sid pc e st' pc' x) (hm : st.mine sid = false) :
    st' = st ↔ st.Unharmed e := by
  have hno : ¬ st.mine sid = true := by rw [hm]; exact Bool.false_ne_true
  cases h with
  | dialFailed | stopenFailed => exact failLocal_eq_self
  | again => exact sending_eq_self
  | commit rd k => rw [sent_foreign hm]; exact sending_eq_self
  | retire =>
    rw [retire_foreign hm]
    exact ⟨fun heq => (congrArg DtStream.threadDone heq).symm, fun hd => by rw [← hd]⟩
  | detached _ _ hm' | opened _ _ hm' | refused _ _ hm' | take _ _ hm' => exact absurd hm' hno
  | stopened => exact iff_of_true (if_neg hno) trivial
  | died => exact iff_of_true (if_neg hno) trivial
  | recvErr => exact iff_of_true (if_neg hno) trivial
  | recvFin => exact iff_of_true (if_neg hno) trivial
  | recv => exact iff_of_true (if_neg hno) trivial
  | drainOk => exact iff_of_true (if_neg hno) trivial
  | headDead | headLive =>
    have hs : st.shutNow sid = false := by
      unfold DtStream.shutNow
      rw [hm]
      rfl
    exact iff_of_true (if_neg (by rw [hs]; exact Bool.false_ne_true)) trivial
  | _ => exact iff_of_true rfl trivial

/-! ## the verdict of an abandoned dial -/

/-- a slot without a socket and a freed one are no retry -/
theorem peeked_update {g : Slot → DtStream} {st : DtStream} (hg : (g i).gsock = 0)
    (hu : st.used = false) (dst : SockaddrIn) : peeked (Function.update g i st) dst = peeked g dst := by
  unfold peeked
  congr 1
  funext j
  by_cases hj : j = i
  · subst hj
    rw [Function.update_self, hu, hg]
    simp
  · rw [Function.update_of_ne hj]

theorem handed_eq_self {st : DtStream} {v : Nat} : st.handed v = st ↔ st.state ≠ .connecting := by
  unfold DtStream.handed
  split_ifs with h
  · refine iff_of_false (fun heq => ?_) (not_not_intro h)
    have hd := congrArg DtStream.state heq
    rw [h] at hd
    cases hd
  · exact iff_of_true rfl h

theorem peeked_spec {g : Slot → DtStream} {dst : SockaddrIn} (h : peeked g dst = some j) :
    (g j).used = true ∧ (g j).gsock ≠ 0 := by
  obtain ⟨hp, -⟩ := Fin.find?_eq_some_iff.mp h
  obtain ⟨hp, -⟩ := Bool.and_eq_true_iff.mp hp
  obtain ⟨hu, hg⟩ := Bool.and_eq_true_iff.mp hp
  exact ⟨hu, bne_iff_ne.mp hg⟩

/-- a section hands no verdict on, or it does so for the slot it frees -/
theorem section_heir {st' : DtStream} {pc pc' : Pc} {x : Eff}
    (h : Thread.Section (T.g_st i) sid pc e st' pc' x) :
    x.vfail = none ∧ T.heir i sid e = none ∨
      ∃ v, x.vfail = some v ∧ (T.g_st i).mine sid = true ∧ (T.g_st i).gsock = 0 ∧
        st'.used = false ∧ T.heir i sid e =
          (peeked T.g_st (T.g_st i).orig).filter fun j => (T.g_st j).state = .connecting := by
  cases h with
  | detached type rp hm hg =>
    rcases Option.eq_none_or_eq_some (vfailOf sid type rp) with hv | ⟨v, hv⟩
    · exact Or.inl ⟨hv, if_neg fun hx => by rw [hv] at hx; exact Bool.noConfusion hx.2.2⟩
    · exact Or.inr ⟨v, hv, hm, hg, rfl, if_pos ⟨hm, hg, by rw [hv]; rfl⟩⟩
  | opened type rp hm hg | refused type rp hm hg => exact Or.inl ⟨rfl, if_neg fun hx => hg hx.2.1⟩
  | gone type rp hm => exact Or.inl ⟨rfl, if_neg fun hx => hm hx.1⟩
  | _ => exact Or.inl ⟨rfl, rfl⟩

/-- **What a section of a thread spares.** -/
theorem spares_afterThread {k : Nat} {st' : DtStream} {t : Thread} {pc pc' : Pc} {x : Eff}
    (h : Thread.Section (T.g_st i) sid pc e st' pc' x) :
    T.Spares (T.afterThread k i st' t x) sid ↔
      ((T.g_st i).mine sid = false → (T.g_st i).Unharmed e) ∧
      (match T.heir i sid e with
        | some j => (T.g_st j).sid = sid
        | none => True) := by
  rcases section_heir h with ⟨hv, hheir⟩ | ⟨v, hv, hm, hg, hu, hheir⟩
  · -- only the thread's slot is written to
    have hst : (T.afterThread k i st' t x).g_st = Function.update T.g_st i st' := by
      unfold afterThread
      rw [hv]
      rfl
    rw [hheir]
    refine ⟨fun hs => ⟨fun hm => (section_foreign h hm).mp ?_, trivial⟩, fun hs j hj => ?_⟩
    · have hi := hs i hm
      rwa [hst, Function.update_self] at hi
    · rw [hst]
      by_cases hji : j = i
      · subst hji
        rw [Function.update_self]
        exact (section_foreign h hj).mpr (hs.1 hj)
      · exact Function.update_of_ne hji _ _
  · -- the slot is the thread's, and is freed
    have hown : ∀ {j}, (T.g_st j).mine sid = false → j ≠ i := fun hj hji => by
      rw [hji, hm] at hj
      cases hj
    have hst : (T.afterThread k i st' t x).g_st =
        handOver (Function.update T.g_st i st') (T.g_st i).orig (some v) := by
      rw [← hv]
      rfl
    have hl : ((T.g_st i).mine sid = false → (T.g_st i).Unharmed e) := fun hj =>
      absurd rfl (hown hj)
    rw [hheir, and_iff_right hl]
    unfold Spares
    rw [hst]
    unfold handOver
    rw [peeked_update hg hu]
    rcases Option.eq_none_or_eq_some (peeked T.g_st (T.g_st i).orig) with hp | ⟨n, hp⟩
    · rw [hp]
      exact iff_of_true (fun j hj => Function.update_of_ne (hown hj) _ _) trivial
    · obtain ⟨hused, hsock⟩ := peeked_spec hp
      have hni : n ≠ i := fun hni => hsock (by rw [hni, hg])
      rw [hp]
      show (∀ j, (T.g_st j).mine sid = false → Function.update (Function.update T.g_st i st') n
        ((Function.update T.g_st i st' n).handed v) j = T.g_st j) ↔ _
      rw [Function.update_of_ne hni]
      by_cases hc : (T.g_st n).state = .connecting
      · have hf : (some n).filter (fun j => decide ((T.g_st j).state = .connecting)) = some n := by
          simp [hc]
        rw [hf]
        show _ ↔ (T.g_st n).sid = sid
        constructor
        · intro hs
          by_contra hne
          have hmine : (T.g_st n).mine sid = false := by simp [DtStream.mine, hne]
          have hn := hs n hmine
          rw [Function.update_self] at hn
          exact handed_eq_self.mp hn hc
        · intro hsid j hj
          have hjn : j ≠ n := fun hjn => by
            rw [hjn, DtStream.mine, hused, hsid] at hj
            simp at hj
          rw [Function.update_of_ne hjn]
          exact Function.update_of_ne (hown hj) _ _
      · have hf : (some n).filter (fun j => decide ((T.g_st j).state = .connecting)) = none := by
          simp [hc]
        rw [hf]
        refine iff_of_true (fun j hj => ?_) trivial
        by_cases hjn : j = n
        · rw [hjn, Function.update_self]
          exact handed_eq_self.mpr hc
        · rw [Function.update_of_ne hjn]
          exact Function.update_of_ne (hown hj) _ _

/-- a step of a thread spares the slots that are not its own stream's iff it meets the condition -/
theorem guarded_iff {a : TableAct} (h : T.step a = some T') : T.Confined a ↔ T.Guarded a := by
  cases a with
  | thread k e =>
    have hstep := h
    simp only [step] at hstep
    rcases Option.eq_none_or_eq_some T.threads[k]? with hk | ⟨⟨slot, t⟩, hk⟩
    · rw [hk] at hstep
      cases hstep
    cases slot with
    | none =>
      rw [hk] at hstep
      cases hstep
    | some i =>
      rw [hk] at hstep
      obtain ⟨⟨st', t', x⟩, hsec, heq⟩ := Option.map_eq_some_iff.mp hstep
      have hspares := spares_afterThread (k := k) (t := t') (Thread.step_section hsec).2
      unfold Guarded
      dsimp only
      rw [hk]
      refine Iff.trans ⟨fun hc => ?_, fun hs u hu n w hn hw => ?_⟩ hspares
      · have hT := hc T' h k ⟨some i, t⟩ rfl hk
        rwa [← heq] at hT
      · rw [← Option.some.inj hn, hk] at hw
        rw [← Option.some.inj (h.symm.trans hu), ← heq, ← Option.some.inj hw]
        exact hs
  | lookup k =>
    refine iff_of_true (fun u hu n w hn hw => ?_) trivial
    simp only [step] at hu
    rw [← Option.some.inj hn] at hw
    rw [hw] at hu
    obtain ⟨-, hu⟩ := Option.ite_none_right_eq_some.mp hu
    rw [← Option.some.inj hu]
    intro j _
    unfold lookup
    cases T.bySid w.thread.sid with
    | none => rfl
    | some i =>
      dsimp only
      split_ifs <;> rfl
  | _ => exact iff_of_true (fun _ _ _ _ hn => absurd hn (Option.some_ne_none _).symm) trivial

/-- **Threads keep to their own streams.**  In every run, the steps of the threads leave alone what
is not their own stream's exactly when all of them meet the condition. -/
theorem confined_iff {tr : List (StreamTable × TableAct)} (hp : Path step init tr T) :
    (∀ x ∈ tr, x.1.Confined x.2) ↔ ∀ x ∈ tr, x.1.Guarded x.2 :=
  forall₂_congr fun _ hx => (hp.enabled hx).elim fun _ hu => guarded_iff hu

/-- a stream whose thread dials is closed, and its slot is another's when the dial ends -/
def reused (e : Ev) : List TableAct :=
  [.connect 7 ⟨1, 2⟩, .alloc 0 5, .lookup 0, .close 7, .connect 8 ⟨3, 4⟩, .alloc 0 6, .thread 0 e]

def reusedDialed : List TableAct :=
  reused (.dial true) ++ ([.thread 0 .abortCheck, .thread 0 (.stopen true 3),
    .thread 0 (.verdict none), .thread 0 .closeFd] : List TableAct)

set_option maxRecDepth 4000 in
/-- the dial succeeds: the thread goes on until the relay has no verdict for it -/
theorem confined_dialed : ∃ tr T, Path step init tr T ∧ (T.g_st 0).sid = 6 ∧
    ∀ x ∈ tr, x.1.Confined x.2 := by
  have hrun : (run step init reusedDialed).isSome = true := by decide
  obtain ⟨T, hT⟩ := Option.isSome_iff_exists.mp hrun
  have hend : ∀ T ∈ run step init reusedDialed, (T.g_st 0).sid = 6 := by decide
  exact ⟨_, T, path_run hT, hend T hT, (confined_iff (path_run hT)).mpr (by decide)⟩

set_option maxRecDepth 4000 in
/-- the dial fails: the stream that has the slot now is dead -/
theorem unconfined_dial : ∃ tr T, Path step init tr T ∧ (T.g_st 0).sid = 6 ∧
    (T.g_st 0).state = .dead ∧ ¬ ∀ x ∈ tr, x.1.Confined x.2 := by
  have hrun : (run step init (reused (.dial false))).isSome = true := by decide
  obtain ⟨T, hT⟩ := Option.isSome_iff_exists.mp hrun
  have hend : ∀ T ∈ run step init (reused (.dial false)),
      (T.g_st 0).sid = 6 ∧ (T.g_st 0).state = .dead := by
    decide
  refine ⟨_, T, path_run hT, (hend T hT).1, (hend T hT).2, fun hall => ?_⟩
  have hbad : ¬ ∀ x ∈ trace step init (reused (.dial false)), x.1.Guarded x.2 := by decide
  exact hbad fun x hx => ((path_run hT).enabled hx).elim fun _ hu => (guarded_iff hu).mp (hall x hx)

end StreamTable

end ShadowLan
