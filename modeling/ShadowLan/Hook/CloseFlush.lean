import ShadowLan.Hook.Send
import ShadowLan.Hook.Table

/-!
# What close() flushes

After `close()` the stream thread sends the out-queue chunk by chunk with `dt_st_send_all_tmo`, each
chunk with a budget of 150 ms: a wait for room that ends later gives the chunk up, and the stream
with it.

* `FlushPipe`       a stream, with the time since the drain began its chunk;
* `FlushPipe.step`  the sends of the drain with the time they take;
* `InBudget`        no wait for room ends after the budget of its chunk;
* `close_flush_iff` a stream that was closed while it was open has everything on the wire at the
                    end exactly when every wait was in the budget.

The process does not exit meanwhile: the exit drain takes no step here.
-/

namespace ShadowLan

/-- the budget of a chunk of the close drain, in milliseconds -/
def CLOSE_TMO : Nat := 150

structure FlushPipe where
  pipe : Pipe
  /-- since `dt_st_send_all_tmo` was called for the chunk in flight -/
  spent : Nat
  deriving DecidableEq

inductive FlushAct where
  /-- a step that is not a send of the close drain -/
  | act (a : Act)
  /-- the drain's send takes `k` bytes, after `d` ms -/
  | took (k d : Nat)
  /-- the send would block, and `select` returns after `d` ms -/
  | again (d : Nat)
  /-- the send would block, and a signal ends the `select` after `d` ms -/
  | intr (d : Nat)
  /-- the send or the `select` fails -/
  | fails
  deriving DecidableEq

/-- a step of the close drain's send loop -/
def Act.isDrainSend : Act → Bool
  | .thread (.drainPush _) | .thread .drainFail => true
  | _ => false

/-- the send loop has bytes of its chunk left -/
def Pc.blocks : Pc → Bool
  | .drainFly (_ :: _) _ => true
  | _ => false

namespace FlushPipe

def step (q : FlushPipe) : FlushAct → Option FlushPipe
  | .act a =>
    if a.isDrainSend then none
    else (q.pipe.step a).map fun p => ⟨p, if a = .thread .drainTake then 0 else q.spent⟩
  | .took k d => (q.pipe.step (.thread (.drainPush k))).map fun p => ⟨p, q.spent + d⟩
  | .again d =>
    if q.pipe.thread.pc.blocks then
      if CLOSE_TMO < q.spent + d then
        (q.pipe.step (.thread .drainFail)).map fun p => ⟨p, q.spent + d⟩
      else some ⟨q.pipe, q.spent + d⟩
    else none
  | .intr d => if q.pipe.thread.pc.blocks then some ⟨q.pipe, q.spent + d⟩ else none
  | .fails => (q.pipe.step (.thread .drainFail)).map fun p => ⟨p, q.spent⟩

def fresh (st0 : DtStream) (gsock : Nat) (dst : SockaddrIn) (sid : Nat) : FlushPipe :=
  ⟨Pipe.fresh st0 gsock dst sid, 0⟩

end FlushPipe

/-- the connection does not fail, the tunnel goes on, and the process does not exit -/
def FlushAct.healthy : FlushAct → Bool
  | .act (.drain _) | .act (.thread .leave) | .act (.thread .recvErr) | .fails => false
  | _ => true

def Healthy (tr : List (FlushPipe × FlushAct)) : Prop := ∀ x ∈ tr, x.2.healthy = true

/-- the app closes a stream that is open -/
def ClosesOpen (x : FlushPipe × FlushAct) : Prop :=
  x.2 = .act .close ∧ x.1.pipe.st.state = .opened ∧ x.1.pipe.st.dead = false

def ClosedOpen (tr : List (FlushPipe × FlushAct)) : Prop := ∃ x ∈ tr, ClosesOpen x

/-- no wait for room ends after the budget of its chunk -/
def InBudget (tr : List (FlushPipe × FlushAct)) : Prop :=
  ∀ x ∈ tr, ∀ d, x.2 = .again d → x.1.spent + d ≤ CLOSE_TMO

/-! ## what the drain relies on -/

namespace Pipe
variable {p p' : Pipe}

/-- A thread on the wire has its connection in the slot, the out-queue has no empty chunk, and an open
stream's thread is in the pipe. -/
structure Ready (p : Pipe) : Prop where
  live : p.thread.pc = .wait ∨ p.thread.pc.piping = true → p.st.used = true → p.st.fdLive = true
  full : ∀ c ∈ p.st.oh, c.rest ≠ []
  opens : p.st.state = .opened → p.thread.pc.piping = true

theorem ready_fresh (st0 : DtStream) (gsock : Nat) (dst : SockaddrIn) (sid : Nat) :
    (fresh st0 gsock dst sid).Ready where
  live := fun h => by
    rcases h with h | h <;> cases h
  full := fun _ h => absurd h List.not_mem_nil
  opens := fun h => by cases h

/-- the chunks, the connection and the place of the thread stay -/
theorem Ready.same (h : p.Ready) (hoh : p'.st.oh = p.st.oh)
    (hu : p'.st.used = true → p.st.used = true) (hl : p'.st.fdLive = p.st.fdLive)
    (hpc : p'.thread.pc = .wait ∨ p'.thread.pc.piping = true →
      p.thread.pc = .wait ∨ p.thread.pc.piping = true)
    (ho : p'.st.state = .opened → p'.thread.pc.piping = true) : p'.Ready where
  live := fun hw hused => by
    rw [hl]
    exact h.live (hpc hw) (hu hused)
  full := by
    rw [hoh]
    exact h.full
  opens := ho

theorem advance_full {oh : List (Chunk Byte)} (k : Nat) (h : ∀ c ∈ oh, c.rest ≠ []) :
    ∀ c ∈ advance oh k, c.rest ≠ [] := by
  cases oh with
  | nil => exact h
  | cons c q =>
    have hq : ∀ d ∈ q, d.rest ≠ [] := fun d hd => h d (List.mem_cons_of_mem c hd)
    rw [advance_cons]
    by_cases hlt : c.off + k < c.n
    · rw [if_pos hlt]
      intro d hd
      rcases List.mem_cons.mp hd with rfl | hd
      · intro hnil
        have hlen := congrArg List.length hnil
        rw [Chunk.length_rest] at hlen
        have hn : (⟨c.p, c.off + k⟩ : Chunk Byte).n = c.n := rfl
        have h0 : ([] : List Byte).length = 0 := rfl
        dsimp only at hlen
        omega
      · exact hq d hd
    · rw [if_neg hlt]
      exact hq

theorem send_full {st : DtStream} (buf : List Byte) (hcap : st.ototal ≤ DT_ST_MAXOUT)
    (h : ∀ c ∈ st.oh, c.rest ≠ []) :
    ∀ c ∈ (st.send buf).1.oh, c.rest ≠ [] := by
  unfold DtStream.send
  by_cases h1 : st.wrShut = true
  · rw [if_pos h1]
    exact h
  · rw [if_neg h1]
    by_cases h2 : st.dead = true ∨ st.state = .dead
    · rw [if_pos h2]
      exact h
    · rw [if_neg h2]
      cases hr : st.room buf.length with
      | none => exact h
      | some len =>
        dsimp only
        have hoh : (if DT_ST_MAXOUT < st.ototal + buf.length then { st with wrFull := true }
            else st : DtStream).oh = st.oh := by
          split <;> rfl
        by_cases h0 : len = 0
        · rw [if_pos h0, hoh]
          exact h
        · rw [if_neg h0]
          dsimp only
          rw [hoh]
          intro c hc
          rcases List.mem_append.mp hc with hc | hc
          · exact h c hc
          · rw [List.mem_singleton.mp hc, Chunk.rest_mk_zero]
            intro hnil
            have hlen := congrArg List.length hnil
            rw [List.length_take_of_le (room_le hr hcap).1] at hlen
            exact h0 hlen

theorem opened_failLocal {st : DtStream} {r : Nat} (h : (st.failLocal r).state = .opened) :
    st.state = .opened := by
  unfold DtStream.failLocal at h
  split at h
  · cases h
  · exact h

theorem opened_died {st : DtStream} {sid : Nat} (h : (st.died sid).state = .opened) :
    st.state = .opened := by
  unfold DtStream.died at h
  split at h
  · cases h
  · exact h

theorem goLive_spec (st : DtStream) (sid fd : Nat) :
    (st.goLive sid fd).oh = st.oh ∧ (st.goLive sid fd).used = st.used ∧
      (st.goLive sid fd).state = st.state ∧
      (st.mine sid = true → (st.goLive sid fd).fdLive = true) := by
  unfold DtStream.goLive
  by_cases hm : st.mine sid = true
  · rw [if_pos hm]
    exact ⟨rfl, rfl, rfl, fun _ => rfl⟩
  · rw [if_neg hm]
    exact ⟨rfl, rfl, rfl, fun h => absurd h hm⟩

theorem sent_spec (st : DtStream) (sid k : Nat) :
    ((st.sent sid k).oh = st.oh ∨ (st.sent sid k).oh = advance st.oh k) ∧
      (st.sent sid k).used = st.used ∧ (st.sent sid k).fdLive = st.fdLive := by
  unfold DtStream.sent
  dsimp only
  split
  · split <;> exact ⟨Or.inr rfl, rfl, rfl⟩
  · exact ⟨Or.inl rfl, rfl, rfl⟩

theorem drained_spec (st : DtStream) (sid : Nat) :
    (∀ c ∈ (st.drained sid).oh, c ∈ st.oh) ∧
      (st.drained sid).used = st.used ∧ (st.drained sid).fdLive = st.fdLive := by
  unfold DtStream.drained
  split
  · split
    · exact ⟨fun _ hc => hc, rfl, rfl⟩
    next hoh =>
      rw [hoh]
      exact ⟨fun _ hc => List.mem_cons_of_mem _ hc, rfl, rfl⟩
  · exact ⟨fun _ hc => hc, rfl, rfl⟩

theorem retire_spec {st : DtStream} {sid : Nat} (hm : st.mine sid = true) :
    (∀ c ∈ (st.retire sid).oh, c ∈ st.oh) ∧ (st.retire sid).state = .dead := by
  by_cases hdone : st.dead = true ∨ st.wrShut = true
  · rw [DtStream.retire_done hm hdone]
    exact ⟨fun _ hc => absurd hc List.not_mem_nil, rfl⟩
  · rw [DtStream.retire_open hm hdone]
    exact ⟨fun _ hc => hc, rfl⟩

/-- a section of the thread -/
theorem Ready.thread {e : Ev} (h : p.Ready) (hp : p.Sending)
    (hs : p.step (.thread e) = some p') : p'.Ready := by
  obtain ⟨⟨st', ⟨sid', pc'⟩, x⟩, hstep, rfl⟩ := Option.map_eq_some_iff.mp hs
  obtain ⟨rfl, hsec⟩ := Thread.step_section hstep
  generalize hpc : p.thread.pc = pc at hsec
  dsimp only at hsec
  -- before the pipe the stream is not open
  have hnot : pc.piping = false → p.st.state ≠ .opened := by
    intro hno ho
    have hpp := h.opens ho
    rw [hpc, hno] at hpp
    cases hpp
  have hout : ∀ {st : DtStream}, st.outSide = p.st.outSide →
      st.oh = p.st.oh ∧ st.used = p.st.used ∧ st.fdLive = p.st.fdLive := by
    intro st ho
    simp only [DtStream.outSide, Prod.mk.injEq] at ho
    exact ⟨ho.1, ho.2.2.1, ho.2.2.2.2.1⟩
  have hquiet : ∀ {st : DtStream} {pc' : Pc} {x : Eff}, st.outSide = p.st.outSide →
      (pc' = .wait ∨ pc'.piping = true → pc = .wait ∨ pc.piping = true) →
      (st.state = .opened → pc'.piping = true) →
      (p.afterThread st ⟨p.thread.sid, pc'⟩ x).Ready := by
    intro st pc' x ho hw hopen
    obtain ⟨e1, e2, e3⟩ := hout ho
    exact h.same e1 (fun hu => e2 ▸ hu) e3 (fun hw' => hpc ▸ hw hw') hopen
  cases hsec with
  | dialed | goesOn => exact hquiet rfl (by simp [Pc.piping]) fun ho => absurd ho (hnot rfl)
  | aborted | gone | closeFd =>
    exact hquiet rfl (by simp [Pc.piping]) fun ho => absurd ho (hnot rfl)
  | dialFailed | stopenFailed =>
    exact hquiet (p.st.failLocal_outSide _) (by simp [Pc.piping]) fun ho =>
      absurd (opened_failLocal ho) (hnot rfl)
  | stopened fd =>
    obtain ⟨e1, e2, e3, e4⟩ := goLive_spec p.st p.thread.sid fd
    refine ⟨fun _ hu => ?_, fun c hc => h.full c (e1 ▸ hc), fun ho => absurd (e3 ▸ ho) (hnot rfl)⟩
    have hused : p.st.used = true := e2 ▸ hu
    exact e4 (by rw [DtStream.mine, hused, hp.sid, beq_self_eq_true]; rfl)
  | died =>
    exact hquiet (p.st.died_outSide _) (by simp [Pc.piping]) fun ho =>
      absurd (opened_died ho) (hnot rfl)
  | detached =>
    refine ⟨?_, fun c hc => absurd hc List.not_mem_nil, fun ho => by cases ho⟩
    rintro (hw | hw) <;> cases hw
  | opened type rp =>
    exact hquiet (p.st.verdict_outSide _ type rp) (fun _ => Or.inl rfl) fun _ => rfl
  | refused type rp hm hg hok =>
    refine hquiet (p.st.verdict_outSide _ type rp) (fun _ => Or.inl rfl) fun ho => ?_
    unfold DtStream.verdict at ho
    rw [if_neg hok] at ho
    split at ho <;> cases ho
  | headDead | headLive => exact hquiet (p.st.atHead_outSide _) (fun _ => Or.inr rfl) fun _ => rfl
  | leaveTop | leaveSelect | recvAgain | drainTake | drainNone | drainPush | drainFail | push =>
    exact hquiet rfl (fun _ => Or.inr rfl) fun _ => rfl
  | selected o r wr rd =>
    exact hquiet rfl (fun _ => Or.inr rfl) fun _ => by cases wr <;> cases rd <;> rfl
  | takeNone rd => exact hquiet rfl (fun _ => Or.inr rfl) fun _ => by cases rd <;> rfl
  | take =>
    exact h.same rfl id rfl (fun _ => Or.inr (by rw [hpc]; rfl)) fun _ => rfl
  | again rd =>
    exact h.same rfl id rfl (fun _ => Or.inr (by rw [hpc]; rfl)) fun _ => by cases rd <;> rfl
  | commit rd k =>
    obtain ⟨e1, e2, e3⟩ := sent_spec p.st p.thread.sid k
    refine ⟨fun _ hu => ?_, ?_, fun _ => rfl⟩
    · exact e3.trans (h.live (Or.inr (by rw [hpc]; rfl)) (e2 ▸ hu))
    · rcases e1 with e1 | e1
      · exact fun c hc => h.full c (e1 ▸ hc)
      · exact fun c hc => advance_full k h.full c (e1 ▸ hc)
  | recvErr => exact hquiet (p.st.hardErr_outSide _) (fun _ => Or.inr rfl) fun _ => rfl
  | recvFin => exact hquiet (p.st.fin_outSide _) (fun _ => Or.inr rfl) fun _ => rfl
  | recv buf => exact hquiet (p.st.queued_outSide _ buf) (fun _ => Or.inr rfl) fun _ => rfl
  | drainOk =>
    obtain ⟨e1, e2, e3⟩ := drained_spec p.st p.thread.sid
    refine ⟨fun _ hu => ?_, fun c hc => h.full c (e1 c hc), fun _ => rfl⟩
    exact e3.trans (h.live (Or.inr (by rw [hpc]; rfl)) (e2 ▸ hu))
  | retire =>
    have hm := hp.mine (by rw [hpc]; rfl)
    obtain ⟨e1, e2⟩ := retire_spec hm
    refine ⟨?_, fun c hc => h.full c (e1 c hc), fun ho => ?_⟩
    · rintro (hw | hw) <;> cases hw
    · have ho : (p.st.retire p.thread.sid).state = .opened := ho
      rw [e2] at ho
      cases ho

theorem close_state (st : DtStream) : st.close.state = st.state := by
  unfold DtStream.close DtStream.freeQueues
  dsimp only
  split_ifs <;> rfl

/-- the app's calls -/
theorem Ready.act {a : Act} (h : p.Ready) (hp : p.Sending) (ha : ∀ e, a ≠ .drain e)
    (hs : p.step a = some p') : p'.Ready := by
  have hlive : ∀ {st : DtStream}, st.used = p.st.used → st.fdLive = p.st.fdLive →
      p.thread.pc = .wait ∨ p.thread.pc.piping = true → st.used = true → st.fdLive = true := by
    intro st hu hl hw hused
    rw [hl]
    exact h.live hw (hu ▸ hused)
  cases a with
  | thread e => exact h.thread hp hs
  | drain e => exact absurd rfl (ha e)
  | send buf =>
    obtain ⟨-, hs⟩ := Option.ite_none_right_eq_some.mp hs
    rw [← Option.some.inj hs]
    obtain ⟨ho, hstate⟩ := send_outSide p.st buf hp.cap
    have hsame : (p.st.send buf).1.used = p.st.used ∧ (p.st.send buf).1.fdLive = p.st.fdLive := by
      rcases ho with ⟨ho, -⟩ | ⟨ho, -⟩ <;>
        (simp only [DtStream.outSide, Prod.mk.injEq] at ho; exact ⟨ho.2.2.1, ho.2.2.2.2.1⟩)
    exact ⟨hlive hsame.1 hsame.2, send_full buf hp.cap h.full, fun ho => h.opens (hstate ▸ ho)⟩
  | pop blen =>
    obtain ⟨-, hs⟩ := Option.ite_none_right_eq_some.mp hs
    rw [← Option.some.inj hs]
    have ho := p.st.pop_outSide blen
    simp only [DtStream.outSide, Prod.mk.injEq] at ho
    exact h.same ho.1 (fun hu => ho.2.2.1 ▸ hu) ho.2.2.2.2.1 id
      fun hs => h.opens (p.st.pop_state blen ▸ hs)
  | shutdown rd wr =>
    obtain ⟨-, hs⟩ := Option.ite_none_right_eq_some.mp hs
    rw [← Option.some.inj hs]
    have ho := p.st.shutdown_outSide rd wr
    simp only [DtStream.outSide, Prod.mk.injEq] at ho
    exact h.same ho.1 (fun hu => ho.2.2.1 ▸ hu) ho.2.2.2.2.1 id
      fun hs => h.opens (p.st.shutdown_state rd wr ▸ hs)
  | handed v =>
    obtain ⟨-, hs⟩ := Option.ite_none_right_eq_some.mp hs
    rw [← Option.some.inj hs]
    have ho := p.st.handed_outSide v
    simp only [DtStream.outSide, Prod.mk.injEq] at ho
    refine h.same ho.1 (fun hu => ho.2.2.1 ▸ hu) ho.2.2.2.2.1 id fun hs => h.opens ?_
    have hs : (p.st.handed v).state = .opened := hs
    unfold DtStream.handed at hs
    split at hs
    · cases hs
    · exact hs
  | close =>
    obtain ⟨-, hs⟩ := Option.ite_none_right_eq_some.mp hs
    rw [← Option.some.inj hs]
    have hopens : p.st.close.state = .opened → p.thread.pc.piping = true :=
      fun ho => h.opens (close_state p.st ▸ ho)
    rcases close_outSide p.st with ⟨ho, -⟩ | ⟨-, -, hu, hoh, -⟩
    · simp only [DtStream.outSide, Prod.mk.injEq] at ho
      exact h.same ho.1 (fun hu => ho.2.2.1 ▸ hu) ho.2.2.2.2.1 id hopens
    · refine ⟨fun _ hused => ?_, fun c hc => ?_, hopens⟩
      · rw [hu] at hused
        cases hused
      · rw [hoh] at hc
        cases hc

/-- with the exit drain away and no chunk torn, nobody takes what another has -/
theorem sendOk_of_idle {a : Act} (hd : p.drain = .idle) (ht : p.torn = false)
    (ha : ∀ e, a ≠ .drain e) : p.SendOk a := by
  have hfly : p.drain.flies = false := by
    rw [hd]
    rfl
  cases a with
  | drain e => exact absurd rfl (ha e)
  | thread e =>
    cases e with
    | take => exact fun _ _ => ht
    | drainTake => exact fun _ => ⟨ht, hfly⟩
    | retire => exact fun _ => hfly
    | verdict r =>
      cases r with
      | none => trivial
      | some r => exact fun _ => hfly
    | _ => trivial
  | _ => trivial

/-- every step keeps what `DtStream.Keeps` says -/
theorem step_keeps {a : Act} (hs : p.step a = some p') : p.st.Keeps p'.st := by
  cases a with
  | thread e =>
    obtain ⟨r, hstep, rfl⟩ := Option.map_eq_some_iff.mp hs
    exact (Thread.step_section hstep).2.keeps
  | drain e =>
    obtain ⟨r, hstep, rfl⟩ := Option.map_eq_some_iff.mp hs
    exact (drainStep_section hstep).keeps
  | send buf =>
    obtain ⟨-, hs⟩ := Option.ite_none_right_eq_some.mp hs
    rw [← Option.some.inj hs]
    exact p.st.send_keeps buf
  | pop blen =>
    obtain ⟨-, hs⟩ := Option.ite_none_right_eq_some.mp hs
    rw [← Option.some.inj hs]
    exact p.st.pop_keeps blen
  | shutdown rd wr =>
    obtain ⟨-, hs⟩ := Option.ite_none_right_eq_some.mp hs
    rw [← Option.some.inj hs]
    exact p.st.shutdown_keeps rd wr
  | close =>
    obtain ⟨-, hs⟩ := Option.ite_none_right_eq_some.mp hs
    rw [← Option.some.inj hs]
    exact p.st.close_keeps
  | handed v =>
    obtain ⟨-, hs⟩ := Option.ite_none_right_eq_some.mp hs
    rw [← Option.some.inj hs]
    exact p.st.handed_keeps v

/-- the app finds a stream that was detached no more -/
theorem thread_of_gone {a : Act} (hg : p.st.gsock = 0) (ha : ∀ e, a ≠ .drain e)
    (hs : p.step a = some p') : ∃ e, a = .thread e := by
  have hno : ¬ p.found = true := by
    unfold found
    rw [hg]
    intro h
    simp only [Bool.and_eq_true, bne_iff_ne, beq_iff_eq] at h
    exact h.1.1 h.2.symm
  cases a with
  | thread e => exact ⟨e, rfl⟩
  | drain e => exact absurd rfl (ha e)
  | handed v =>
    obtain ⟨h, -⟩ := Option.ite_none_right_eq_some.mp hs
    exact absurd hg h.2
  | _ =>
    obtain ⟨h, -⟩ := Option.ite_none_right_eq_some.mp hs
    exact absurd h hno

/-- both invariants, with the exit drain away and no chunk torn -/
structure Sound (p : Pipe) : Prop where
  sending : p.Sending
  ready : p.Ready
  idle : p.drain = .idle
  whole : p.torn = false

theorem sound_fresh (st0 : DtStream) (gsock : Nat) (dst : SockaddrIn) (sid : Nat) :
    (fresh st0 gsock dst sid).Sound :=
  ⟨sending_fresh st0 gsock dst sid, ready_fresh st0 gsock dst sid, rfl, rfl⟩

theorem Sound.act {a : Act} (h : p.Sound) (ha : ∀ e, a ≠ .drain e) (hf : a ≠ .thread .drainFail)
    (hs : p.step a = some p') : p'.Sound := by
  refine ⟨h.sending.step (sendOk_of_idle h.idle h.whole ha) hs, h.ready.act h.sending ha hs, ?_, ?_⟩
  · cases a with
    | thread e =>
      obtain ⟨r, -, rfl⟩ := Option.map_eq_some_iff.mp hs
      show (if r.2.2.freed then p.drain.free else p.drain) = .idle
      rw [h.idle]
      split <;> rfl
    | drain e => exact absurd rfl (ha e)
    | close =>
      obtain ⟨-, hs⟩ := Option.ite_none_right_eq_some.mp hs
      rw [← Option.some.inj hs]
      show (if p.st.close.used then p.drain else p.drain.free) = .idle
      rw [h.idle]
      split <;> rfl
    | _ =>
      obtain ⟨-, hs⟩ := Option.ite_none_right_eq_some.mp hs
      rw [← Option.some.inj hs]
      exact h.idle
  · cases a with
    | thread e =>
      obtain ⟨⟨st', ⟨sid', pc'⟩, x⟩, hstep, rfl⟩ := Option.map_eq_some_iff.mp hs
      have htorn : x.torn = false := by
        have hsec := (Thread.step_section hstep).2
        generalize p.thread.pc = pc at hsec
        dsimp only at hsec
        cases hsec with
        | drainFail => exact absurd rfl hf
        | _ => rfl
      show (p.torn || x.torn) = false
      rw [h.whole, htorn]
      rfl
    | drain e => exact absurd rfl (ha e)
    | _ =>
      obtain ⟨-, hs⟩ := Option.ite_none_right_eq_some.mp hs
      rw [← Option.some.inj hs]
      exact h.whole

/-- nothing is left at the end -/
theorem Sound.wire_eq (h : p.Sound) (hpc : p.thread.pc = .drainTop) (hoh : p.st.oh = []) :
    p.wire = p.accepted := by
  obtain ⟨j, hj, hex⟩ := h.sending.held
  have hpp : p.thread.pc.piping = true := by
    rw [hpc]
    rfl
  have hup := h.sending.conn.2 (Or.inl hpp)
  have hall := hex (h.sending.piping hpp).1 (by rw [hup]; simp) h.whole
  rw [hoh, bytes_nil, List.drop_nil, List.append_nil] at hall
  exact hall.symm

/-- and something is left while a chunk is not out -/
theorem Sound.wire_ne {c : List Byte} {put : Bool} (h : p.Sound)
    (hpc : p.thread.pc = .drainFly c put) (hc : c ≠ []) : p.wire ≠ p.accepted := by
  obtain ⟨j, hj, hex⟩ := h.sending.held
  have hpp : p.thread.pc.piping = true := by
    rw [hpc]
    rfl
  have hup := h.sending.conn.2 (Or.inl hpp)
  have hall := hex (h.sending.piping hpp).1 (by rw [hup]; simp) h.whole
  rw [hpc] at hj
  obtain ⟨d, q, hoh, rfl, hjl, -, -⟩ := hj.of_drainFly
  intro heq
  rw [← heq] at hall
  have hnil : (bytes p.st.oh).drop j = [] := List.self_eq_append_right.mp hall
  rw [hoh, bytes_cons, List.drop_append_of_le_length hjl] at hnil
  exact hc (List.append_eq_nil_iff.mp hnil).1

end Pipe

/-- in the drain or behind it -/
def Pc.leaving : Pc → Bool
  | .drainTop | .drainFly _ _ | .tail => true
  | _ => false

theorem Pc.not_late_of_piping {pc : Pc} (h : pc.piping = true) : pc.late = false := by
  cases pc <;> first | rfl | cases h

namespace Pipe
variable {p p' : Pipe}

/-- the thread of a stream that nobody has closed does not drain -/
theorem Sound.stays {e : Ev} (h : p.Sound) (hd : p.st.dead = false)
    (hpc : p.thread.pc.leaving = false) (hl : e ≠ .leave) (hr : e ≠ .recvErr)
    (hs : p.step (.thread e) = some p') : p'.thread.pc.leaving = false := by
  obtain ⟨⟨st', ⟨sid', pc'⟩, x⟩, hstep, rfl⟩ := Option.map_eq_some_iff.mp hs
  obtain ⟨rfl, hsec⟩ := Thread.step_section hstep
  have hmine := h.sending.mine
  generalize p.thread.pc = pc at hsec hpc hmine
  show pc'.leaving = false
  dsimp only at hsec
  cases hsec with
  | leaveTop | leaveSelect => exact absurd rfl hl
  | recvErr => exact absurd rfl hr
  | headDead hno =>
    rcases hno with hno | hno
    · exact absurd (hmine rfl) hno
    · rw [hd] at hno
      cases hno
  | drainTake | drainNone | drainPush | drainFail | drainOk | retire => cases hpc
  | selected o r wr rd => cases wr <;> cases rd <;> rfl
  | takeNone rd | again rd => cases rd <;> rfl
  | _ => rfl

/-! ## after close() -/

/-- a stream that was closed while it was open: when its thread leaves the drain, all is out -/
structure Draining (p : Pipe) : Prop extends Sound p where
  dead : p.st.dead = true
  gone : p.st.gsock = 0
  place : p.thread.pc.piping = true ∨ p.thread.pc.late = true
  out : p.thread.pc = .tail ∨ p.thread.pc.late = true → p.wire = p.accepted

/-- the drain gave a chunk up -/
structure Lost (p : Pipe) : Prop where
  gone : p.st.gsock = 0
  place : p.thread.pc = .tail ∨ p.thread.pc.late = true
  short : p.wire ≠ p.accepted

theorem Sound.close (h : p.Sound) (ho : p.st.state = .opened)
    (hpc : p.thread.pc.leaving = false) (hs : p.step .close = some p') : p'.Draining := by
  have hs' := h.act (a := .close) (fun e => nofun) (fun e => nomatch e) hs
  obtain ⟨hf, hs⟩ := Option.ite_none_right_eq_some.mp hs
  have hused : p.st.used = true := by
    unfold found at hf
    simp only [Bool.and_eq_true] at hf
    exact hf.1.2
  have hpp := h.ready.opens ho
  have hlive := h.ready.live (Or.inr hpp) hused
  have hne : p.st.state ≠ .connecting := by
    rw [ho]
    simp
  rw [← Option.some.inj hs] at hs' ⊢
  refine ⟨hs', DtStream.close_sets_dead p.st, ?_, Or.inl hpp, ?_⟩
  · show p.st.close.gsock = 0
    have hdetach : p.st.state ≠ .connecting ∧ p.st.fdLive = true := ⟨hne, hlive⟩
    have hkeep : ¬ (p.st.state = .connecting ∧ ¬ p.st.fdLive = true) := fun h => hne h.1
    unfold DtStream.close
    dsimp only
    rw [if_pos hdetach, if_neg hkeep]
  · have hpc' : p.thread.pc.leaving = false := hpc
    rintro (ht | hl)
    · have ht : p.thread.pc = .tail := ht
      rw [ht] at hpc'
      cases hpc'
    · have hl : p.thread.pc.late = true := hl
      rw [Pc.not_late_of_piping hpp] at hl
      cases hl

/-- the drain finds the queue empty when it ends -/
theorem Sound.drainTake (h : p.Sound) (hs : p.step (.thread .drainTake) = some p') :
    p'.thread.pc = .tail → p'.wire = p'.accepted := by
  obtain ⟨r, hstep, rfl⟩ := Option.map_eq_some_iff.mp hs
  obtain ⟨hpc, hstep⟩ := Option.ite_none_right_eq_some.mp hstep
  have hpp : p.thread.pc.piping = true := by
    rw [hpc]
    rfl
  have hmine := h.sending.mine hpp
  have hlive := h.ready.live (Or.inr hpp) (h.sending.piping hpp).1
  cases hoh : p.st.oh with
  | nil =>
    have hf : p.st.front = none := by
      unfold DtStream.front
      rw [hoh]
      rfl
    rw [hf] at hstep
    rw [← Option.some.inj hstep]
    intro _
    show p.wire ++ [] = p.accepted
    rw [List.append_nil]
    exact h.wire_eq hpc hoh
  | cons c q =>
    have hf : p.st.front = some c.rest := by
      unfold DtStream.front
      rw [hoh]
      rfl
    have hne : c.rest ≠ [] := h.ready.full c (by rw [hoh]; exact List.mem_cons_self)
    rw [hf] at hstep
    dsimp only at hstep
    rw [if_pos ⟨hmine, hlive, hne⟩] at hstep
    rw [← Option.some.inj hstep]
    exact fun ht => Pc.noConfusion ht

/-- a section of the thread while it drains, and behind -/
theorem Draining.thread {e : Ev} (h : p.Draining) (hl : e ≠ .leave) (hr : e ≠ .recvErr)
    (hf : e ≠ .drainFail) (hs : p.step (.thread e) = some p') : p'.Draining := by
  have hsound := h.toSound.act (fun _ => Act.noConfusion) (fun he => hf (Act.thread.inj he)) hs
  have hkeep := step_keeps hs
  have hgone : p'.st.gsock = 0 := by
    rcases hkeep.gsock with hg | hg
    · exact hg.trans h.gone
    · exact hg
  have htail : e = .drainTake → p'.thread.pc = .tail → p'.wire = p'.accepted := by
    rintro rfl
    exact h.toSound.drainTake hs
  have hold := h.out
  have hplace := h.place
  obtain ⟨⟨st', ⟨sid', pc'⟩, x⟩, hstep, rfl⟩ := Option.map_eq_some_iff.mp hs
  obtain ⟨rfl, hsec⟩ := Thread.step_section hstep
  generalize p.thread.pc = pc at hsec hold hplace
  -- the wire is as it was when the thread is behind the drain
  have hout : (pc = .tail ∨ pc.late = true) → x.wire = [] → p.wire ++ x.wire = p.accepted := by
    intro hpc hx
    rw [hx, List.append_nil]
    exact hold hpc
  have hwhere : (pc'.piping = true ∨ pc'.late = true) ∧
      (pc' = .tail ∨ pc'.late = true → p.wire ++ x.wire = p.accepted) := by
    dsimp only at hsec
    cases hsec with
    | leaveTop | leaveSelect => exact absurd rfl hl
    | recvErr => exact absurd rfl hr
    | drainFail => exact absurd rfl hf
    | drainNone => exact ⟨Or.inl rfl, fun _ => htail rfl rfl⟩
    | retire => exact ⟨Or.inr rfl, fun _ => hout (Or.inl rfl) rfl⟩
    | closeFd => exact ⟨Or.inr rfl, fun _ => hout (Or.inr rfl) rfl⟩
    | selected o r wr rd => cases wr <;> cases rd <;> exact ⟨Or.inl rfl, by simp [afterSend, Pc.late]⟩
    | takeNone rd | again rd => cases rd <;> exact ⟨Or.inl rfl, by simp [afterSend, Pc.late]⟩
    | dialed | dialFailed | aborted | goesOn | stopened | stopenFailed | died | detached | opened |
      refused | gone => rcases hplace with hplace | hplace <;> cases hplace
    | _ => exact ⟨Or.inl rfl, by simp [Pc.late]⟩
  exact ⟨hsound, hkeep.dead h.dead, hgone, hwhere.1, hwhere.2⟩

/-- behind the drain nothing more is sent -/
theorem Lost.thread {e : Ev} (h : p.Lost) (hs : p.step (.thread e) = some p') : p'.Lost := by
  have hkeep := step_keeps hs
  have hgone : p'.st.gsock = 0 := by
    rcases hkeep.gsock with hg | hg
    · exact hg.trans h.gone
    · exact hg
  have hplace := h.place
  obtain ⟨⟨st', ⟨sid', pc'⟩, x⟩, hstep, rfl⟩ := Option.map_eq_some_iff.mp hs
  obtain ⟨rfl, hsec⟩ := Thread.step_section hstep
  generalize p.thread.pc = pc at hsec hplace
  have hwhere : (pc' = .tail ∨ pc'.late = true) ∧ x.wire = [] := by
    dsimp only at hsec
    cases hsec with
    | retire | closeFd => exact ⟨Or.inr rfl, rfl⟩
    | _ => rcases hplace with hplace | hplace <;> cases hplace
  refine ⟨hgone, hwhere.1, ?_⟩
  show p.wire ++ x.wire ≠ p.accepted
  rw [hwhere.2, List.append_nil]
  exact h.short

/-- a chunk that is given up is lost -/
theorem Draining.fail (h : p.Draining) (hs : p.step (.thread .drainFail) = some p') : p'.Lost := by
  have hkeep := step_keeps hs
  have hgone : p'.st.gsock = 0 := by
    rcases hkeep.gsock with hg | hg
    · exact hg.trans h.gone
    · exact hg
  have hne := fun c put => @h.toSound.wire_ne _ c put
  obtain ⟨⟨st', ⟨sid', pc'⟩, x⟩, hstep, rfl⟩ := Option.map_eq_some_iff.mp hs
  obtain ⟨rfl, hsec⟩ := Thread.step_section hstep
  generalize p.thread.pc = pc at hsec hne
  dsimp only at hsec
  cases hsec with
  | drainFail c put hc =>
    refine ⟨hgone, Or.inl rfl, ?_⟩
    show p.wire ++ [] ≠ p.accepted
    rw [List.append_nil]
    exact hne c put rfl hc

end Pipe

/-! ## runs -/

theorem Pc.leaving_of_blocks {pc : Pc} (h : pc.blocks = true) : pc.leaving = true := by
  cases pc <;> first | rfl | cases h

namespace FlushPipe
open Pipe
variable {q q' : FlushPipe} {x : FlushAct}

/-- the step is no wait that ends after the budget -/
def InTime (q : FlushPipe) (x : FlushAct) : Prop := ∀ d, x = .again d → q.spent + d ≤ CLOSE_TMO

/-- nobody has closed the stream -/
def Before (q : FlushPipe) : Prop :=
  q.pipe.st.dead = false → q.pipe.Sound ∧ q.pipe.thread.pc.leaving = false

/-- the step of the stream that a step with its time is -/
theorem step_pipe (h : q.step x = some q') :
    q'.pipe = q.pipe ∧ q.pipe.thread.pc.leaving = true ∨ ∃ a, q.pipe.step a = some q'.pipe ∧
      (x = .act a ∧ a.isDrainSend = false ∨ a.isDrainSend = true ∧ q.pipe.thread.pc.leaving = true) := by
  have hsend : ∀ {e : Ev} {p : Pipe}, (Act.thread e).isDrainSend = true →
      q.pipe.step (.thread e) = some p → q.pipe.thread.pc.leaving = true := by
    intro e p he hs
    obtain ⟨⟨st', ⟨sid', pc'⟩, x⟩, hstep, rfl⟩ := Option.map_eq_some_iff.mp hs
    obtain ⟨-, hsec⟩ := Thread.step_section hstep
    generalize q.pipe.thread.pc = pc at hsec
    cases hsec with
    | drainPush | drainFail => rfl
    | _ => cases he
  cases x with
  | act a =>
    obtain ⟨hno, h⟩ := Option.ite_none_left_eq_some.mp h
    obtain ⟨p, hp, rfl⟩ := Option.map_eq_some_iff.mp h
    exact Or.inr ⟨a, hp, Or.inl ⟨rfl, Bool.eq_false_iff.mpr hno⟩⟩
  | took k d =>
    obtain ⟨p, hp, rfl⟩ := Option.map_eq_some_iff.mp h
    exact Or.inr ⟨_, hp, Or.inr ⟨rfl, hsend rfl hp⟩⟩
  | again d =>
    obtain ⟨hb, h⟩ := Option.ite_none_right_eq_some.mp h
    split at h
    · obtain ⟨p, hp, rfl⟩ := Option.map_eq_some_iff.mp h
      exact Or.inr ⟨_, hp, Or.inr ⟨rfl, hsend rfl hp⟩⟩
    · rw [← Option.some.inj h]
      exact Or.inl ⟨rfl, Pc.leaving_of_blocks hb⟩
  | intr d =>
    obtain ⟨hb, h⟩ := Option.ite_none_right_eq_some.mp h
    rw [← Option.some.inj h]
    exact Or.inl ⟨rfl, Pc.leaving_of_blocks hb⟩
  | fails =>
    obtain ⟨p, hp, rfl⟩ := Option.map_eq_some_iff.mp h
    exact Or.inr ⟨_, hp, Or.inr ⟨rfl, hsend rfl hp⟩⟩

theorem not_drain {a : Act} (h : (FlushAct.act a).healthy = true) : ∀ e, a ≠ .drain e := by
  rintro e rfl
  cases h

/-- a stream that is not closed is not drained -/
theorem Before.step (h : q.Before) (hh : x.healthy = true) (hs : q.step x = some q') :
    q'.Before ∧ (q'.pipe.st.dead = false → q.pipe.st.dead = false ∧ q.InTime x) := by
  have hkey : q'.pipe.st.dead = false → q.pipe.st.dead = false ∧
      ∃ a, x = .act a ∧ q.pipe.step a = some q'.pipe ∧ a.isDrainSend = false := by
    intro hd'
    rcases step_pipe hs with ⟨hsame, hl⟩ | ⟨a, ha, hx⟩
    · rw [hsame] at hd'
      rw [(h hd').2] at hl
      cases hl
    · have hd : q.pipe.st.dead = false := by
        cases hd : q.pipe.st.dead with
        | false => rfl
        | true =>
          rw [(step_keeps ha).dead hd] at hd'
          cases hd'
      rcases hx with ⟨hx, hno⟩ | ⟨-, hl⟩
      · exact ⟨hd, a, hx, ha, hno⟩
      · rw [(h hd).2] at hl
        cases hl
  refine ⟨fun hd' => ?_, fun hd' => ?_⟩
  · obtain ⟨hd, a, rfl, ha, hno⟩ := hkey hd'
    obtain ⟨hsound, hl⟩ := h hd
    have hdrain := not_drain hh
    have hfail : a ≠ .thread .drainFail := by
      rintro rfl
      cases hno
    refine ⟨hsound.act hdrain hfail ha, ?_⟩
    cases a with
    | thread e =>
      refine hsound.stays hd hl ?_ ?_ ha
      · rintro rfl
        cases hh
      · rintro rfl
        cases hh
    | drain e => exact absurd rfl (hdrain e)
    | _ =>
      obtain ⟨-, ha⟩ := Option.ite_none_right_eq_some.mp ha
      rw [← Option.some.inj ha]
      exact hl
  · obtain ⟨hd, a, rfl, -⟩ := hkey hd'
    exact ⟨hd, fun _ he => FlushAct.noConfusion he⟩

/-- the app closes an open stream -/
theorem Before.close (h : q.Before) (hc : ClosesOpen (q, x)) (hs : q.step x = some q') :
    q'.pipe.Draining ∧ q.InTime x := by
  obtain ⟨rfl, ho, hd⟩ := hc
  obtain ⟨hsound, hl⟩ := h hd
  refine ⟨?_, fun _ he => FlushAct.noConfusion he⟩
  rcases step_pipe hs with ⟨-, hno⟩ | ⟨a, ha, ⟨he, -⟩ | ⟨-, hno⟩⟩
  · exact Bool.noConfusion (hno.symm.trans hl)
  · rw [← FlushAct.act.inj he] at ha
    exact hsound.close ho hl ha
  · exact Bool.noConfusion (hno.symm.trans hl)

theorem draining_step (h : q.pipe.Draining) (hh : x.healthy = true) (hs : q.step x = some q') :
    q.InTime x ∧ q'.pipe.Draining ∨ ¬ q.InTime x ∧ q'.pipe.Lost := by
  cases x with
  | act a =>
    left
    obtain ⟨hno, hs⟩ := Option.ite_none_left_eq_some.mp hs
    obtain ⟨p, hp, rfl⟩ := Option.map_eq_some_iff.mp hs
    obtain ⟨e, rfl⟩ := thread_of_gone h.gone (not_drain hh) hp
    refine ⟨fun _ he => FlushAct.noConfusion he, h.thread ?_ ?_ ?_ hp⟩
    · rintro rfl
      cases hh
    · rintro rfl
      cases hh
    · rintro rfl
      exact hno rfl
  | took k d =>
    left
    obtain ⟨p, hp, rfl⟩ := Option.map_eq_some_iff.mp hs
    exact ⟨fun _ he => FlushAct.noConfusion he, h.thread Ev.noConfusion Ev.noConfusion Ev.noConfusion hp⟩
  | again d =>
    obtain ⟨-, hs⟩ := Option.ite_none_right_eq_some.mp hs
    split at hs
    next hlate =>
      right
      obtain ⟨p, hp, rfl⟩ := Option.map_eq_some_iff.mp hs
      exact ⟨fun ht => absurd (ht d rfl) (Nat.not_le_of_lt hlate), h.fail hp⟩
    next hin =>
      left
      rw [← Option.some.inj hs]
      refine ⟨fun d' he => ?_, h⟩
      cases he
      exact Nat.le_of_not_lt hin
  | intr d =>
    left
    obtain ⟨-, hs⟩ := Option.ite_none_right_eq_some.mp hs
    rw [← Option.some.inj hs]
    exact ⟨fun _ he => FlushAct.noConfusion he, h⟩
  | fails => cases hh

theorem lost_step (h : q.pipe.Lost) (hh : x.healthy = true) (hs : q.step x = some q') :
    q'.pipe.Lost := by
  have hdrain : ∀ a, x = .act a → ∀ e, a ≠ .drain e := by
    rintro a rfl
    exact not_drain hh
  rcases step_pipe hs with ⟨hsame, -⟩ | ⟨a, ha, hx⟩
  · rw [hsame]
    exact h
  · have hno : ∀ e, a ≠ .drain e := by
      rcases hx with ⟨hx, -⟩ | ⟨hx, -⟩
      · exact hdrain a hx
      · rintro e rfl
        cases hx
    obtain ⟨e, rfl⟩ := thread_of_gone h.gone hno ha
    exact h.thread ha

/-- how far a run is -/
inductive Stage (tr : List (FlushPipe × FlushAct)) (q : FlushPipe) : Prop
  | before (hc : ¬ ClosedOpen tr) (hq : q.Before) (hb : q.pipe.st.dead = false → InBudget tr)
  | draining (hc : ClosedOpen tr) (hb : InBudget tr) (hq : q.pipe.Draining)
  | lost (hc : ClosedOpen tr) (hb : ¬ InBudget tr) (hq : q.pipe.Lost)

theorem inBudget_snoc {tr : List (FlushPipe × FlushAct)} :
    InBudget (tr ++ [(q, x)]) ↔ InBudget tr ∧ q.InTime x := by
  constructor
  · intro h
    exact ⟨fun y hy => h y (List.mem_append_left _ hy),
      fun d he => h (q, x) (List.mem_append_right _ List.mem_cons_self) d he⟩
  · rintro ⟨h1, h2⟩ y hy
    rcases List.mem_append.mp hy with hy | hy
    · exact h1 y hy
    · rw [List.mem_singleton.mp hy]
      exact h2

theorem closedOpen_snoc {tr : List (FlushPipe × FlushAct)} :
    ClosedOpen (tr ++ [(q, x)]) ↔ ClosedOpen tr ∨ ClosesOpen (q, x) := by
  constructor
  · rintro ⟨y, hy, hc⟩
    rcases List.mem_append.mp hy with hy | hy
    · exact Or.inl ⟨y, hy, hc⟩
    · rw [List.mem_singleton.mp hy] at hc
      exact Or.inr hc
  · rintro (⟨y, hy, hc⟩ | hc)
    · exact ⟨y, List.mem_append_left _ hy, hc⟩
    · exact ⟨_, List.mem_append_right _ List.mem_cons_self, hc⟩

theorem Stage.step {tr : List (FlushPipe × FlushAct)} (h : Stage tr q) (hh : x.healthy = true)
    (hs : q.step x = some q') : Stage (tr ++ [(q, x)]) q' := by
  cases h with
  | before hc hq hb =>
    by_cases hx : ClosesOpen (q, x)
    · obtain ⟨hd, ht⟩ := hq.close hx hs
      exact .draining (closedOpen_snoc.mpr (Or.inr hx)) (inBudget_snoc.mpr ⟨hb hx.2.2, ht⟩) hd
    · obtain ⟨hq', ht⟩ := hq.step hh hs
      refine .before (fun h => (closedOpen_snoc.mp h).elim hc hx) hq' fun hd' => ?_
      obtain ⟨hd, ht⟩ := ht hd'
      exact inBudget_snoc.mpr ⟨hb hd, ht⟩
  | draining hc hb hq =>
    have hc' : ClosedOpen (tr ++ [(q, x)]) := closedOpen_snoc.mpr (Or.inl hc)
    rcases draining_step hq hh hs with ⟨ht, hq'⟩ | ⟨ht, hq'⟩
    · exact .draining hc' (inBudget_snoc.mpr ⟨hb, ht⟩) hq'
    · exact .lost hc' (fun h => ht (inBudget_snoc.mp h).2) hq'
  | lost hc hb hq =>
    exact .lost (closedOpen_snoc.mpr (Or.inl hc)) (fun h => hb (inBudget_snoc.mp h).1)
      (lost_step hq hh hs)

theorem stage_run {st0 : DtStream} {gsock sid : Nat} {dst : SockaddrIn}
    {tr : List (FlushPipe × FlushAct)} (h : Path step (fresh st0 gsock dst sid) tr q)
    (hh : Healthy tr) : Stage tr q := by
  induction h with
  | nil =>
    refine .before (fun hc => ?_) (fun _ => ⟨sound_fresh st0 gsock dst sid, rfl⟩) fun _ x hx => ?_
    · obtain ⟨x, hx, -⟩ := hc
      cases hx
    · cases hx
  | @snoc tr u u' l hp hl ih =>
    have hpre := ih fun x hx => hh x (List.mem_append_left _ hx)
    exact hpre.step (hh (u, l) (List.mem_append_right _ List.mem_cons_self)) hl

/-- **close() flushes within a budget.**  When the thread of a stream that was closed while it was
open is about to close the connection, everything the app queued is on the wire exactly when no wait
for room ended after the budget of its chunk. -/
theorem close_flush_iff {st0 : DtStream} {gsock sid : Nat} {dst : SockaddrIn}
    {tr : List (FlushPipe × FlushAct)} (h : Path step (fresh st0 gsock dst sid) tr q)
    (hh : Healthy tr) (hc : ClosedOpen tr) (hend : q.pipe.thread.pc.late = true) :
    q.pipe.wire = q.pipe.accepted ↔ InBudget tr := by
  cases stage_run h hh with
  | before hno => exact absurd hc hno
  | draining _ hb hq => exact ⟨fun _ => hb, fun _ => hq.out (Or.inr hend)⟩
  | lost _ hb hq => exact ⟨fun he => absurd he hq.short, fun h => absurd h hb⟩

/-! ### two close() calls -/

/-- three bytes are queued and the socket is closed; the drain takes the chunk -/
def goodbye : List FlushAct :=
  handshake.map FlushAct.act ++ ([.act (.send [104, 105, 33]), .act .close, .act (.thread .head),
    .act (.thread .drainTake), .took 2 1] : List FlushAct)

def retiring : List FlushAct :=
  [.act (.thread .retire), .act (.thread .closeFd)]

/-- the relay takes the rest after a while -/
def paced : List FlushAct :=
  goodbye ++ ([.again 50, .again 50, .took 1 1, .act (.thread .drainOk),
    .act (.thread .drainTake)] : List FlushAct) ++ retiring

/-- the relay takes nothing for three turns of the `select`, and would take the rest then -/
def slow : List FlushAct :=
  goodbye ++ ([.again 50, .again 50, .again 50] : List FlushAct) ++ retiring

instance (x : FlushPipe × FlushAct) : Decidable (ClosesOpen x) :=
  inferInstanceAs (Decidable (_ ∧ _ ∧ _))

theorem close_flush_paced : ∃ tr q, Path step (fresh .zero 7 ⟨10, 80⟩ 1) tr q ∧
    q.pipe.thread.pc.late = true ∧ q.pipe.accepted = [104, 105, 33] ∧
    q.pipe.wire = q.pipe.accepted := by
  have hrun : (run step (fresh .zero 7 ⟨10, 80⟩ 1) paced).isSome = true := by decide
  obtain ⟨q, hq⟩ := Option.isSome_iff_exists.mp hrun
  have hend : ∀ q ∈ run step (fresh .zero 7 ⟨10, 80⟩ 1) paced,
      q.pipe.thread.pc.late = true ∧ q.pipe.accepted = [104, 105, 33] := by
    decide
  have hh : (trace step (fresh .zero 7 ⟨10, 80⟩ 1) paced).all (fun x => x.2.healthy) = true := by
    decide
  have hc : (trace step (fresh .zero 7 ⟨10, 80⟩ 1) paced).any (fun x => ClosesOpen x) = true := by
    decide
  have hb : (trace step (fresh .zero 7 ⟨10, 80⟩ 1) paced).all (fun x =>
      match x.2 with
      | .again d => x.1.spent + d ≤ CLOSE_TMO
      | _ => true) = true := by
    decide
  obtain ⟨hl, ha⟩ := hend q hq
  obtain ⟨x, hx, hcx⟩ := List.any_eq_true.mp hc
  refine ⟨_, q, path_run hq, hl, ha, (close_flush_iff (path_run hq) (List.all_eq_true.mp hh)
    ⟨x, hx, of_decide_eq_true hcx⟩ hl).mpr fun y hy d he => ?_⟩
  have hy := List.all_eq_true.mp hb y hy
  rw [he] at hy
  exact of_decide_eq_true hy

/-- the connection has not failed, and the last byte is gone -/
theorem close_flush_slow : ∃ tr q, Path step (fresh .zero 7 ⟨10, 80⟩ 1) tr q ∧ Healthy tr ∧
    ClosedOpen tr ∧ q.pipe.thread.pc.late = true ∧ q.pipe.accepted = [104, 105, 33] ∧
    q.pipe.wire = [104, 105] := by
  have hrun : (run step (fresh .zero 7 ⟨10, 80⟩ 1) slow).isSome = true := by decide
  obtain ⟨q, hq⟩ := Option.isSome_iff_exists.mp hrun
  have hend : ∀ q ∈ run step (fresh .zero 7 ⟨10, 80⟩ 1) slow,
      q.pipe.thread.pc.late = true ∧ q.pipe.accepted = [104, 105, 33] ∧
        q.pipe.wire = [104, 105] := by
    decide
  have hh : (trace step (fresh .zero 7 ⟨10, 80⟩ 1) slow).all (fun x => x.2.healthy) = true := by
    decide
  have hc : (trace step (fresh .zero 7 ⟨10, 80⟩ 1) slow).any (fun x => ClosesOpen x) = true := by
    decide
  obtain ⟨x, hx, hcx⟩ := List.any_eq_true.mp hc
  exact ⟨_, q, path_run hq, List.all_eq_true.mp hh, ⟨x, hx, of_decide_eq_true hcx⟩, hend q hq⟩

end FlushPipe

end ShadowLan
