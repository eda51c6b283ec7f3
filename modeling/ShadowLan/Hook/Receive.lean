import ShadowLan.Lib.Runs
import ShadowLan.Hook.Pump

/-!
# The receive path of a tunneled stream

What the stream thread has read from the relay is, in order, what the app got followed by the
content of the in-queue, with two exceptions that the source makes.  A read that does not fit
under `DT_ST_MAXIN` is dropped (the flag `in_paused` stops only the next read), and the tail of
the thread frees the in-queue of a stream whose app has shut down just its write side.

* `Lossless`           nothing that was read is lost, and `total` counts the queue;
* `ReceiveOk`          a step that takes neither of the two exits;
* `receive_exact`      a run is lossless throughout exactly when all its steps are `ReceiveOk`;
* `seventeenth_read`   sixteen full reads, then one more byte: it is gone.
-/

namespace ShadowLan

/-! ## what a section does to the in-queue -/

/-- the in-queue side of a slot -/
def DtStream.inSide (st : DtStream) : List (Chunk Byte) × Nat × Bool × Bool × Bool × Nat :=
  (st.h, st.total, st.dead, st.rdShut, st.wrShut, st.sid)

namespace DtStream

theorem send_inSide (st : DtStream) (buf : List Byte) :
    (st.send buf).1.inSide = st.inSide ∧ (st.send buf).1.used = st.used := by
  unfold send
  by_cases h1 : st.wrShut = true
  · rw [if_pos h1]; exact ⟨rfl, rfl⟩
  · rw [if_neg h1]
    by_cases h2 : st.dead = true ∨ st.state = .dead
    · rw [if_pos h2]; exact ⟨rfl, rfl⟩
    · rw [if_neg h2]
      cases st.room buf.length with
      | none => exact ⟨rfl, rfl⟩
      | some len => constructor <;> (dsimp only; split_ifs <;> rfl)

theorem handed_inSide (st : DtStream) (v : Nat) :
    (st.handed v).inSide = st.inSide ∧ (st.handed v).used = st.used := by
  unfold handed
  split_ifs <;> exact ⟨rfl, rfl⟩

theorem failLocal_inSide (st : DtStream) (r : Nat) :
    (st.failLocal r).inSide = st.inSide ∧ (st.failLocal r).used = st.used := by
  unfold failLocal
  split_ifs <;> exact ⟨rfl, rfl⟩

theorem verdict_inSide (st : DtStream) (sid type : Nat) (rp : List Byte) :
    (st.verdict sid type rp).inSide = st.inSide ∧ (st.verdict sid type rp).used = st.used := by
  unfold verdict
  split_ifs <;> exact ⟨rfl, rfl⟩

theorem sent_inSide (st : DtStream) (sid k : Nat) :
    (st.sent sid k).inSide = st.inSide ∧ (st.sent sid k).used = st.used := by
  unfold sent
  dsimp only
  split_ifs <;> exact ⟨rfl, rfl⟩

theorem drained_inSide (st : DtStream) (sid : Nat) :
    (st.drained sid).inSide = st.inSide ∧ (st.drained sid).used = st.used := by
  unfold drained
  split_ifs
  · cases st.oh with
    | nil => exact ⟨rfl, rfl⟩
    | cons c q => exact ⟨rfl, rfl⟩
  · exact ⟨rfl, rfl⟩

theorem flushed_inSide (st : DtStream) (off0 : Nat) :
    (st.flushed off0).inSide = st.inSide ∧ (st.flushed off0).used = st.used := by
  unfold flushed
  dsimp only
  split_ifs
  · cases st.oh with
    | nil => exact ⟨rfl, rfl⟩
    | cons c q => exact ⟨rfl, rfl⟩
  · exact ⟨rfl, rfl⟩

theorem goLive_inSide (st : DtStream) (sid fd : Nat) :
    (st.goLive sid fd).inSide = st.inSide ∧ (st.goLive sid fd).used = st.used := by
  unfold goLive
  split_ifs <;> exact ⟨rfl, rfl⟩

theorem died_inSide (st : DtStream) (sid : Nat) :
    (st.died sid).inSide = st.inSide ∧ (st.died sid).used = st.used := by
  unfold died
  split_ifs <;> exact ⟨rfl, rfl⟩

theorem atHead_inSide (st : DtStream) (sid : Nat) :
    (st.atHead sid).inSide = st.inSide ∧ (st.atHead sid).used = st.used := by
  unfold atHead
  split_ifs <;> exact ⟨rfl, rfl⟩

theorem hardErr_inSide (st : DtStream) (sid : Nat) :
    (st.hardErr sid).inSide = st.inSide ∧ (st.hardErr sid).used = st.used := by
  unfold hardErr
  split_ifs <;> exact ⟨rfl, rfl⟩

theorem fin_inSide (st : DtStream) (sid : Nat) :
    (st.fin sid).inSide = st.inSide ∧ (st.fin sid).used = st.used := by
  unfold fin
  split_ifs <;> exact ⟨rfl, rfl⟩

/-- what `dt_stream_pop` hands out and what it leaves are the queue it found -/
theorem pop_split (st : DtStream) (blen : Nat) :
    (st.pop blen).2.2 ++ bytes (st.pop blen).1.h = bytes st.h ∧
      (st.pop blen).1.total = st.total - (st.pop blen).2.2.length := by
  unfold pop
  by_cases hh : st.h ≠ []
  · rw [if_pos hh]
    dsimp only
    split_ifs <;> exact ⟨gather_split st.h blen, rfl⟩
  · rw [if_neg hh]
    split_ifs <;> exact ⟨rfl, rfl⟩

theorem pop_rest (st : DtStream) (blen : Nat) :
    (st.pop blen).1.dead = st.dead ∧ (st.pop blen).1.rdShut = st.rdShut ∧
      (st.pop blen).1.sid = st.sid ∧ (st.pop blen).1.used = st.used := by
  unfold pop
  dsimp only
  split_ifs <;> exact ⟨rfl, rfl, rfl, rfl⟩

theorem shutdown_rd (st : DtStream) (wr : Bool) : (st.shutdown true wr).rdShut = true := by
  cases wr <;> rfl

theorem shutdown_wr (st : DtStream) (wr : Bool) :
    (st.shutdown false wr).h = st.h ∧ (st.shutdown false wr).total = st.total := by
  cases wr <;> exact ⟨rfl, rfl⟩

theorem shutdown_rest (st : DtStream) (rd wr : Bool) :
    (st.shutdown rd wr).dead = st.dead ∧ (st.shutdown rd wr).sid = st.sid ∧
      (st.shutdown rd wr).used = st.used := by
  cases rd <;> cases wr <;> exact ⟨rfl, rfl, rfl⟩

theorem close_sid (st : DtStream) : st.close.sid = st.sid := by
  unfold close
  dsimp only
  split_ifs <;> rfl

end DtStream

/-- **What one section of the stream thread does to the in-queue**: nothing, or it queues a read,
or it is the tail, or it frees a slot whose verdict nobody waits for. -/
theorem Thread.Section.inSide {st st' : DtStream} {sid : Nat} {pc pc' : Pc} {e : Ev} {x : Eff}
    (h : Thread.Section st sid pc e st' pc' x) :
    (e ≠ .retire ∧ (∀ b, e ≠ .recv b) ∧ (st'.inSide = st.inSide ∧ st'.used = st.used) ∧
        x.received = []) ∨
      (∃ buf, e = .recv buf ∧ 0 < buf.length ∧ pc = .recv ∧ st' = st.queued sid buf ∧
        x.received = buf) ∨
      (e = .retire ∧ pc = .tail ∧ st' = st.retire sid ∧ pc'.late = true ∧ x.received = []) ∨
      (e ≠ .retire ∧ (∀ b, e ≠ .recv b) ∧ pc = .wait ∧ st' = st.freeDetached ∧
        pc'.late = true ∧ x.received = []) := by
  cases h with
  | recv buf h0 h => exact Or.inr (Or.inl ⟨buf, rfl, h0, rfl, rfl, rfl⟩)
  | retire => exact Or.inr (Or.inr (Or.inl ⟨rfl, rfl, rfl, rfl, rfl⟩))
  | detached type rp hm hg =>
    exact Or.inr (Or.inr (Or.inr ⟨by simp, by simp, rfl, rfl, rfl, rfl⟩))
  | dialFailed | stopenFailed =>
    exact Or.inl ⟨by simp, by simp, st.failLocal_inSide _, rfl⟩
  | stopened fd => exact Or.inl ⟨by simp, by simp, st.goLive_inSide sid fd, rfl⟩
  | died => exact Or.inl ⟨by simp, by simp, st.died_inSide sid, rfl⟩
  | opened | refused => exact Or.inl ⟨by simp, by simp, st.verdict_inSide sid _ _, rfl⟩
  | headDead | headLive => exact Or.inl ⟨by simp, by simp, st.atHead_inSide sid, rfl⟩
  | commit rd k => exact Or.inl ⟨by simp, by simp, st.sent_inSide sid k, rfl⟩
  | recvErr => exact Or.inl ⟨by simp, by simp, st.hardErr_inSide sid, rfl⟩
  | recvFin => exact Or.inl ⟨by simp, by simp, st.fin_inSide sid, rfl⟩
  | drainOk => exact Or.inl ⟨by simp, by simp, st.drained_inSide sid, rfl⟩
  | _ => exact Or.inl ⟨by simp, by simp, ⟨rfl, rfl⟩, rfl⟩

/-- the thread never goes back before the pipe loop, and never leaves its end -/
theorem Thread.Section.onward {st st' : DtStream} {sid : Nat} {pc pc' : Pc} {e : Ev} {x : Eff}
    (h : Thread.Section st sid pc e st' pc' x) :
    (pc'.early = true → pc.early = true) ∧ (pc.late = true → pc'.late = true) := by
  cases h with
  | selected o r wr rd => cases wr <;> cases rd <;> simp [Pc.early, Pc.late, afterSend]
  | takeNone rd | again rd => cases rd <;> simp [Pc.early, Pc.late, afterSend]
  | _ => simp [Pc.early, Pc.late]

theorem DrainSection.inSide {st st' : DtStream} {d d' : DrainPc} {e : DrainEv} {x : Eff}
    (h : DrainSection st d e st' d' x) : st'.inSide = st.inSide ∧ st'.used = st.used := by
  cases h with
  | ok fd off0 => exact st.flushed_inSide off0
  | release => split_ifs <;> exact ⟨rfl, rfl⟩
  | _ => exact ⟨rfl, rfl⟩

/-! ## the invariant -/

namespace Pipe

/-- what was read is what the app got followed by what is queued, as long as the app has neither
closed the socket nor shut its read side down -/
def Lossless (p : Pipe) : Prop :=
  p.st.dead = false → p.st.rdShut = false →
    p.delivered ++ bytes p.st.h = p.received ∧ p.st.total = (bytes p.st.h).length ∧
      p.st.total ≤ DT_ST_MAXIN

/-- the step neither drops a read nor frees bytes that the app may still read -/
def ReceiveOk (p : Pipe) : Act → Prop
  | .thread (.recv buf) =>
    p.st.dead = false → p.st.rdShut = false → p.st.total + buf.length ≤ DT_ST_MAXIN
  | .thread .retire =>
    p.st.dead = false → p.st.rdShut = false → p.st.wrShut = true → p.st.total = 0
  | _ => True

instance (p : Pipe) (a : Act) : Decidable (p.ReceiveOk a) := by
  unfold ReceiveOk
  split <;> infer_instance

structure Receiving (p : Pipe) : Prop where
  sid : p.st.sid = p.thread.sid
  /-- a slot that is gone was closed, or its thread is at its end -/
  gone : p.st.used = false → p.st.dead = true ∨ p.thread.pc.late = true
  /-- nothing is read before the pipe loop -/
  early : p.thread.pc.early = true → p.received = []
  lossless : p.Lossless

theorem receiving_fresh (st0 : DtStream) (gsock : Nat) (dst : SockaddrIn) (sid : Nat) :
    (fresh st0 gsock dst sid).Receiving where
  sid := rfl
  gone := fun h => by cases h
  early := fun _ => rfl
  lossless := fun _ _ => ⟨rfl, rfl, Nat.zero_le _⟩

/-- the slot of an open stream stays the thread's until the thread ends -/
theorem Receiving.mine {p : Pipe} (hp : p.Receiving) (hpc : p.thread.pc.late = false)
    (hd : p.st.dead = false) : p.st.mine p.thread.sid = true := by
  have hu : p.st.used = true := by
    by_contra hno
    rcases hp.gone (Bool.eq_false_iff.mpr hno) with h | h
    · rw [hd] at h; cases h
    · rw [hpc] at h; cases h
  simp [DtStream.mine, hu, hp.sid]

theorem lossless_of_inSide {p p' : Pipe} (hs : p'.st.inSide = p.st.inSide)
    (hd : p'.delivered = p.delivered) (hr : p'.received = p.received) (h : p.Lossless) :
    p'.Lossless := by
  simp only [DtStream.inSide, Prod.mk.injEq] at hs
  obtain ⟨e1, e2, e3, e4, -, -⟩ := hs
  unfold Lossless
  rw [e1, e2, e3, e4, hd, hr]
  exact h

/-- a read that fits is queued behind what is there -/
theorem queued_fits {st : DtStream} {sid : Nat} {buf : List Byte} (hm : st.mine sid = true)
    (hfit : st.total + buf.length ≤ DT_ST_MAXIN) :
    st.queued sid buf = { st with h := push st.h buf, total := st.total + buf.length } := by
  unfold DtStream.queued
  rw [if_pos hm, if_neg (Nat.not_lt.mpr hfit)]

theorem queued_rest (st : DtStream) (sid : Nat) (buf : List Byte) :
    (st.queued sid buf).dead = st.dead ∧ (st.queued sid buf).rdShut = st.rdShut ∧
      (st.queued sid buf).sid = st.sid ∧ (st.queued sid buf).used = st.used := by
  unfold DtStream.queued
  split_ifs <;> exact ⟨rfl, rfl, rfl, rfl⟩

/-- a read that does not fit leaves the queue as it was -/
theorem queued_over {st : DtStream} {sid : Nat} {buf : List Byte}
    (hover : ¬ st.total + buf.length ≤ DT_ST_MAXIN) : (st.queued sid buf).h = st.h := by
  unfold DtStream.queued
  rw [if_pos (Nat.not_le.mp hover)]
  split_ifs <;> rfl

theorem retire_rest (st : DtStream) (sid : Nat) :
    (st.retire sid).dead = st.dead ∧ (st.retire sid).rdShut = st.rdShut ∧
      (st.retire sid).sid = st.sid := by
  unfold DtStream.retire
  dsimp only
  split_ifs <;> exact ⟨rfl, rfl, rfl⟩

/-- the tail frees the queue of a stream whose app is done writing, and of no other open one -/
theorem retire_queue {st : DtStream} (sid : Nat) (hd : st.dead = false) :
    ((st.retire sid).h = st.h ∧ (st.retire sid).total = st.total) ∨
      (st.mine sid = true ∧ st.wrShut = true ∧ (st.retire sid).h = [] ∧
        (st.retire sid).total = 0) := by
  unfold DtStream.retire DtStream.freeQueues DtStream.mine
  dsimp only
  split_ifs with h1 h2
  · refine Or.inr ⟨h1, ?_, rfl, rfl⟩
    rcases h2 with h2 | h2
    · rw [hd] at h2; cases h2
    · exact h2
  · exact Or.inl ⟨rfl, rfl⟩
  · exact Or.inl ⟨rfl, rfl⟩

theorem Receiving.thread {p p' : Pipe} {e : Ev} (hp : p.Receiving) (ok : p.ReceiveOk (.thread e))
    (h : p.step (.thread e) = some p') : p'.Receiving := by
  obtain ⟨⟨st', t', x⟩, hstep, rfl⟩ := Option.map_eq_some_iff.mp h
  obtain ⟨hsid, hsec⟩ := Thread.step_section hstep
  obtain ⟨hearly, hlate⟩ := hsec.onward
  rcases hsec.inSide with ⟨-, -, ⟨hin, hu⟩, hx⟩ | ⟨buf, rfl, h0, hpc, rfl, hx⟩ |
    ⟨rfl, -, rfl, hl, hx⟩ | ⟨-, -, hpc, rfl, hl, hx⟩
  · have hrec : p.received ++ x.received = p.received := by rw [hx, List.append_nil]
    constructor
    · show st'.sid = t'.sid
      have e1 : st'.sid = p.st.sid := congrArg (fun v => v.2.2.2.2.2) hin
      rw [e1, hsid, hp.sid]
    · intro hgone
      rcases hp.gone (hu.symm.trans hgone) with hd | hd
      · have e1 : st'.dead = p.st.dead := congrArg (fun v => v.2.2.1) hin
        exact Or.inl (e1.trans hd)
      · exact Or.inr (hlate hd)
    · intro he
      exact hrec.trans (hp.early (hearly he))
    · exact lossless_of_inSide hin rfl hrec hp.lossless
  · obtain ⟨e1, e2, e3, e4⟩ := queued_rest p.st p.thread.sid buf
    constructor
    · show (p.st.queued p.thread.sid buf).sid = t'.sid
      rw [e3, hsid, hp.sid]
    · intro hgone
      rcases hp.gone (e4.symm.trans hgone) with hd | hd
      · exact Or.inl (e1.trans hd)
      · exact Or.inr (hlate hd)
    · intro he
      have := hearly he
      rw [hpc] at this; cases this
    · intro hd hr
      have hd0 : p.st.dead = false := e1.symm.trans hd
      have hr0 : p.st.rdShut = false := e2.symm.trans hr
      obtain ⟨l1, l2, l3⟩ := hp.lossless hd0 hr0
      have hfit := ok hd0 hr0
      show p.delivered ++ bytes (p.st.queued p.thread.sid buf).h = p.received ++ x.received ∧
        (p.st.queued p.thread.sid buf).total =
          (bytes (p.st.queued p.thread.sid buf).h).length ∧
        (p.st.queued p.thread.sid buf).total ≤ DT_ST_MAXIN
      rw [queued_fits (hp.mine (by rw [hpc]; rfl) hd0) hfit, hx, ← l1]
      show p.delivered ++ bytes (push p.st.h buf) = (p.delivered ++ bytes p.st.h) ++ buf ∧
        p.st.total + buf.length = (bytes (push p.st.h buf)).length ∧
        p.st.total + buf.length ≤ DT_ST_MAXIN
      rw [bytes_push, List.append_assoc, List.length_append, ← l2]
      exact ⟨rfl, rfl, hfit⟩
  · have hrec : p.received ++ x.received = p.received := by rw [hx, List.append_nil]
    obtain ⟨e1, e2, e3⟩ := retire_rest p.st p.thread.sid
    constructor
    · show (p.st.retire p.thread.sid).sid = t'.sid
      rw [e3, hsid, hp.sid]
    · exact fun _ => Or.inr hl
    · intro he
      have hno := hearly he
      exact hrec.trans (hp.early hno)
    · intro hd hr
      have hd0 : p.st.dead = false := e1.symm.trans hd
      have hr0 : p.st.rdShut = false := e2.symm.trans hr
      obtain ⟨l1, l2, l3⟩ := hp.lossless hd0 hr0
      show p.delivered ++ bytes (p.st.retire p.thread.sid).h = p.received ++ x.received ∧
        (p.st.retire p.thread.sid).total = (bytes (p.st.retire p.thread.sid).h).length ∧
        (p.st.retire p.thread.sid).total ≤ DT_ST_MAXIN
      rw [hrec]
      rcases retire_queue p.thread.sid hd0 with ⟨q1, q2⟩ | ⟨hm, hw, q1, q2⟩
      · rw [q1, q2]; exact ⟨l1, l2, l3⟩
      · have hz : p.st.total = 0 := ok hd0 hr0 hw
        have hnil : bytes p.st.h = [] := List.eq_nil_of_length_eq_zero (l2.symm.trans hz)
        rw [q1, q2, ← l1, hnil]
        exact ⟨rfl, rfl, Nat.zero_le _⟩
  · have hrec : p.received ++ x.received = p.received := by rw [hx, List.append_nil]
    have hnil : p.received = [] := hp.early (by rw [hpc]; rfl)
    constructor
    · show p.st.sid = t'.sid
      rw [hsid, hp.sid]
    · exact fun _ => Or.inr hl
    · exact fun _ => hrec.trans hnil
    · intro hd hr
      obtain ⟨l1, l2, l3⟩ := hp.lossless hd hr
      rw [hnil] at l1
      obtain ⟨d0, -⟩ := List.append_eq_nil_iff.mp l1
      show p.delivered ++ [] = p.received ++ x.received ∧ 0 = 0 ∧ 0 ≤ DT_ST_MAXIN
      rw [hrec, hnil, d0]
      exact ⟨rfl, rfl, Nat.zero_le _⟩

/-- a section that leaves the in-queue, the thread and the two histories alone -/
theorem Receiving.of_inSide {p p' : Pipe} (hp : p.Receiving)
    (hs : p'.st.inSide = p.st.inSide ∧ p'.st.used = p.st.used) (ht : p'.thread = p.thread)
    (hd : p'.delivered = p.delivered) (hr : p'.received = p.received) : p'.Receiving := by
  obtain ⟨hin, hu⟩ := hs
  constructor
  · have e1 : p'.st.sid = p.st.sid := congrArg (fun v => v.2.2.2.2.2) hin
    rw [e1, ht, hp.sid]
  · intro hgone
    have e1 : p'.st.dead = p.st.dead := congrArg (fun v => v.2.2.1) hin
    rw [e1, ht]
    exact hp.gone (hu.symm.trans hgone)
  · intro he
    rw [ht] at he
    exact hr.trans (hp.early he)
  · exact lossless_of_inSide hin hd hr hp.lossless

theorem Receiving.pop {p : Pipe} (hp : p.Receiving) (blen : Nat) :
    Receiving { p with
      st := (p.st.pop blen).1, delivered := p.delivered ++ (p.st.pop blen).2.2 } := by
  obtain ⟨e1, e2, e3, e4⟩ := p.st.pop_rest blen
  obtain ⟨q1, q2⟩ := p.st.pop_split blen
  constructor
  · exact e3.trans hp.sid
  · intro hgone
    rcases hp.gone (e4.symm.trans hgone) with hd | hd
    · exact Or.inl (e1.trans hd)
    · exact Or.inr hd
  · exact hp.early
  · intro hd hr
    obtain ⟨l1, l2, l3⟩ := hp.lossless (e1.symm.trans hd) (e2.symm.trans hr)
    have hlen := congrArg List.length q1
    rw [List.length_append] at hlen
    refine ⟨?_, ?_, ?_⟩
    · show (p.delivered ++ (p.st.pop blen).2.2) ++ bytes (p.st.pop blen).1.h = p.received
      rw [List.append_assoc, q1, l1]
    · show (p.st.pop blen).1.total = (bytes (p.st.pop blen).1.h).length
      rw [q2]; omega
    · show (p.st.pop blen).1.total ≤ DT_ST_MAXIN
      rw [q2]; omega

theorem Receiving.shutdown {p : Pipe} (hp : p.Receiving) (rd wr : Bool) :
    Receiving { p with st := p.st.shutdown rd wr } := by
  obtain ⟨e1, e2, e3⟩ := p.st.shutdown_rest rd wr
  constructor
  · exact e2.trans hp.sid
  · intro hgone
    rcases hp.gone (e3.symm.trans hgone) with hd | hd
    · exact Or.inl (e1.trans hd)
    · exact Or.inr hd
  · exact hp.early
  · intro hd hr
    cases rd with
    | true =>
      have hr' : (p.st.shutdown true wr).rdShut = false := hr
      rw [p.st.shutdown_rd wr] at hr'; cases hr'
    | false =>
      obtain ⟨q1, q2⟩ := p.st.shutdown_wr wr
      have hr0 : p.st.rdShut = false := by
        have hr' : (p.st.shutdown false wr).rdShut = false := hr
        cases wr <;> exact hr'
      show p.delivered ++ bytes (p.st.shutdown false wr).h = p.received ∧
        (p.st.shutdown false wr).total = (bytes (p.st.shutdown false wr).h).length ∧
        (p.st.shutdown false wr).total ≤ DT_ST_MAXIN
      rw [q1, q2]
      exact hp.lossless (e1.symm.trans hd) hr0

theorem Receiving.step {p p' : Pipe} {a : Act} (hp : p.Receiving) (ok : p.ReceiveOk a)
    (h : p.step a = some p') : p'.Receiving := by
  cases a with
  | thread e => exact hp.thread ok h
  | drain e =>
    obtain ⟨⟨st', d', x⟩, hstep, rfl⟩ := Option.map_eq_some_iff.mp h
    exact hp.of_inSide (drainStep_section hstep).inSide rfl rfl rfl
  | send buf =>
    obtain ⟨-, h⟩ := Option.ite_none_right_eq_some.mp h
    cases h
    exact hp.of_inSide (p.st.send_inSide buf) rfl rfl rfl
  | pop blen =>
    obtain ⟨-, h⟩ := Option.ite_none_right_eq_some.mp h
    cases h
    exact hp.pop blen
  | shutdown rd wr =>
    obtain ⟨-, h⟩ := Option.ite_none_right_eq_some.mp h
    cases h
    exact hp.shutdown rd wr
  | close =>
    obtain ⟨-, h⟩ := Option.ite_none_right_eq_some.mp h
    cases h
    have e := p.st.close_sets_dead
    refine ⟨p.st.close_sid.trans hp.sid, fun _ => Or.inl e, hp.early, fun hd => ?_⟩
    rw [e] at hd; cases hd
  | handed v =>
    obtain ⟨-, h⟩ := Option.ite_none_right_eq_some.mp h
    cases h
    exact hp.of_inSide (p.st.handed_inSide v) rfl rfl rfl

/-- **Each of the two exits loses bytes.** -/
theorem not_lossless {p p' : Pipe} {a : Act} (hp : p.Receiving) (hbad : ¬ p.ReceiveOk a)
    (h : p.step a = some p') : ¬ p'.Lossless := by
  cases a with
  | thread e =>
    obtain ⟨⟨st', t', x⟩, hstep, rfl⟩ := Option.map_eq_some_iff.mp h
    obtain ⟨-, hsec⟩ := Thread.step_section hstep
    cases e with
    | recv buf =>
      simp only [ReceiveOk, Classical.not_imp] at hbad
      obtain ⟨hd, hr, hover⟩ := hbad
      rcases hsec.inSide with ⟨-, hno, -⟩ | ⟨b, hb, h0, -, rfl, hx⟩ | ⟨hno, -⟩ | ⟨-, hno, -⟩
      · exact absurd rfl (hno buf)
      · cases hb
        obtain ⟨e1, e2, -⟩ := queued_rest p.st p.thread.sid buf
        intro hl
        obtain ⟨l1, -⟩ := hp.lossless hd hr
        obtain ⟨l1', -⟩ := hl (e1.trans hd) (e2.trans hr)
        have l2 : p.delivered ++ bytes (p.st.queued p.thread.sid buf).h
            = p.received ++ x.received := l1'
        rw [queued_over hover, hx, l1] at l2
        have := List.self_eq_append_right.mp l2
        rw [this] at h0; cases h0
      · cases hno
      · exact absurd rfl (hno buf)
    | retire =>
      simp only [ReceiveOk, Classical.not_imp] at hbad
      obtain ⟨hd, hr, hw, hz⟩ := hbad
      rcases hsec.inSide with ⟨hno, -⟩ | ⟨b, hb, -⟩ | ⟨-, hpc, rfl, -, hx⟩ | ⟨hno, -⟩
      · exact absurd rfl hno
      · cases hb
      · obtain ⟨e1, e2, -⟩ := retire_rest p.st p.thread.sid
        intro hl
        obtain ⟨l1, l2, -⟩ := hp.lossless hd hr
        obtain ⟨l1', -⟩ := hl (e1.trans hd) (e2.trans hr)
        have l3 : p.delivered ++ bytes (p.st.retire p.thread.sid).h
            = p.received ++ x.received := l1'
        have hm := hp.mine (by rw [hpc]; rfl) hd
        rw [DtStream.retire_done hm (Or.inr hw), hx, ← l1, List.append_nil] at l3
        have hlen : p.delivered.length = (p.delivered ++ bytes p.st.h).length := by
          rw [← l3]
          exact congrArg List.length (List.append_nil _).symm
        rw [List.length_append] at hlen
        omega
      · exact absurd rfl hno
    | _ => exact absurd trivial hbad
  | _ => exact absurd trivial hbad

/-- **The receive path is lossless exactly when no read overruns the cap** (and the tail does not
free a queue that is still read from): for every run of one stream, whoever takes the steps. -/
theorem receive_exact {st0 : DtStream} {gsock sid : Nat} {dst : SockaddrIn} {p : Pipe}
    {tr : List (Pipe × Act)} (h : Path step (fresh st0 gsock dst sid) tr p) :
    (∀ q ∈ visited tr p, q.Lossless) ↔ ∀ x ∈ tr, x.1.ReceiveOk x.2 :=
  h.all_iff_ok (receiving_fresh st0 gsock dst sid) (fun _ hq => hq.lossless)
    (fun _ _ _ hq ok hl => hq.step ok hl) (fun _ _ _ hq hbad hl => not_lossless hq hbad hl)

/-! ## a read past the cap -/

/-- one round of the pipe loop that reads `buf` -/
def round (buf : List Byte) : List Act :=
  [.thread .head, .thread (.select false true), .thread (.recv buf)]

def greeting : List Act := handshake ++ round [104, 105] ++ ([.pop 1, .pop 9] : List Act)

/-- one short greeting is read and popped in two parts: nothing is lost on the way -/
theorem receive_exact_greeting : ∃ tr p,
    Path step (fresh .zero 7 ⟨10, 80⟩ 1) tr p ∧ p.delivered = [104, 105] ∧
      ∀ q ∈ visited tr p, q.Lossless := by
  have hrun : (run step (fresh .zero 7 ⟨10, 80⟩ 1) greeting).isSome = true := by decide
  obtain ⟨p, hp⟩ := Option.isSome_iff_exists.mp hrun
  have hd : (run step (fresh .zero 7 ⟨10, 80⟩ 1) greeting).map delivered = some [104, 105] := by
    decide
  rw [hp] at hd
  refine ⟨_, p, path_run hp, Option.some.inj hd, (receive_exact (path_run hp)).mpr ?_⟩
  decide

/-- a round on a stream that is open, read from and not paused -/
theorem run_round (p : Pipe) (sid : Nat) (buf : List Byte) (ht : p.thread = ⟨sid, .top⟩)
    (hm : p.st.mine sid = true) (hd : p.st.dead = false) (hw : p.st.wrShut = false)
    (hpause : p.st.inPaused = false) (hfin : p.st.peerFin = false) (h0 : 0 < buf.length)
    (hle : buf.length ≤ 65536) :
    run step p (round buf)
      = some { p with st := p.st.queued sid buf, received := p.received ++ buf } := by
  have hs : p.st.shutNow sid = false := by simp [DtStream.shutNow, hw]
  have hh : p.st.atHead sid = p.st := by simp [DtStream.atHead, hs]
  obtain ⟨gsock, st, thread, drain, conn, torn, received, delivered, accepted, wire⟩ := p
  cases ht
  simp_all [round, run, step, Thread.step, afterThread, afterSend]

/-- stream 1 after the handshake and `n` reads of `buf` -/
def filled (buf : List Byte) (n : Nat) : Pipe :=
  let p := fresh .zero 7 ⟨10, 80⟩ 1
  { p with
    st := { p.st with
      h := List.replicate n ⟨buf, 0⟩, total := n * buf.length, state := .opened,
      everOpen := true, fd := some 5, fdLive := true },
    thread := ⟨1, .top⟩, conn := .up, received := (List.replicate n buf).flatten }

theorem run_fill {buf : List Byte} (h : buf.length = 65536) (n : Nat) (hn : n < 16) :
    run step (filled buf n) (round buf) = some (filled buf (n + 1)) := by
  rw [run_round (filled buf n) 1 buf rfl rfl rfl rfl rfl rfl (by omega) (by omega)]
  have ht : (filled buf n).st.total + buf.length = (filled buf (n + 1)).st.total :=
    (Nat.succ_mul n buf.length).symm
  have hfit : (filled buf n).st.total + buf.length ≤ DT_ST_MAXIN := by
    rw [ht]
    show (n + 1) * buf.length ≤ 1024 * 1024
    rw [h]; omega
  rw [queued_fits rfl hfit, ht]
  have hq : push (filled buf n).st.h buf = (filled buf (n + 1)).st.h := by
    show List.replicate n _ ++ [_] = List.replicate (n + 1) _
    rw [List.replicate_succ']
  have hr : (filled buf n).received ++ buf = (filled buf (n + 1)).received := by
    show (List.replicate n buf).flatten ++ buf = (List.replicate (n + 1) buf).flatten
    rw [List.replicate_succ', List.flatten_append, List.flatten_singleton]
  rw [hq, hr]
  rfl

theorem path_fill {buf : List Byte} (h : buf.length = 65536) (n : Nat) (hn : n ≤ 16) :
    ∃ tr, Path step (fresh .zero 7 ⟨10, 80⟩ 1) tr (filled buf n) := by
  induction n with
  | zero =>
    have hrun : run step (fresh .zero 7 ⟨10, 80⟩ 1) handshake = some (filled [] 0) := by decide
    have he : filled buf 0 = filled [] 0 := by
      unfold filled
      rw [Nat.zero_mul, Nat.zero_mul]
      rfl
    rw [he]
    exact ⟨_, path_run hrun⟩
  | succ n ih =>
    obtain ⟨tr, hp⟩ := ih (by omega)
    exact ⟨_, hp.trans (path_run (run_fill h n (by omega)))⟩

theorem overrun (buf : List Byte) (h : buf.length = 65536) :
    ∃ tr p, Path step (fresh .zero 7 ⟨10, 80⟩ 1) tr p ∧ p.st.dead = false ∧
      p.st.rdShut = false ∧ p.delivered = [] ∧ p.received = (List.replicate 16 buf).flatten ++ [1] ∧
      bytes p.st.h = (List.replicate 16 buf).flatten := by
  obtain ⟨tr, hp⟩ := path_fill h 16 (Nat.le_refl 16)
  have hrun := run_round (filled buf 16) 1 [1] rfl rfl rfl rfl rfl rfl
    (by decide) (by decide)
  have hover : ¬ (filled buf 16).st.total + [(1 : Byte)].length ≤ DT_ST_MAXIN := by
    show ¬ 16 * buf.length + 1 ≤ 1024 * 1024
    omega
  obtain ⟨e1, e2, -⟩ := queued_rest (filled buf 16).st 1 [1]
  refine ⟨_, _, hp.trans (path_run hrun), e1, e2, rfl, rfl, ?_⟩
  show bytes ((filled buf 16).st.queued 1 [1]).h = _
  rw [queued_over hover]
  show bytes (List.replicate 16 ⟨buf, 0⟩) = _
  rw [bytes_replicate, Chunk.rest_mk_zero]

/-- sixteen full reads, then one byte: the app has done nothing, and the byte is gone -/
theorem seventeenth_read : ∃ tr p, Path step (fresh .zero 7 ⟨10, 80⟩ 1) tr p ∧
    p.st.dead = false ∧ p.st.rdShut = false ∧ p.delivered ++ bytes p.st.h ≠ p.received := by
  obtain ⟨tr, p, hp, hd, hr, e1, e2, e3⟩ :=
    overrun (List.replicate 65536 0) List.length_replicate
  refine ⟨tr, p, hp, hd, hr, fun he => ?_⟩
  rw [e1, e2, e3, List.nil_append] at he
  exact absurd (List.self_eq_append_right.mp he) (List.cons_ne_nil _ _)

end Pipe

end ShadowLan
