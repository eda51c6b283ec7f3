import ShadowLan.Hook.Slot

/-!
# The stream thread and the exit drain

Both are programs with a counter: `Pc` says where a stream thread is in `dt_stream_thread`,
`DrainPc` where `dt_flush_streams` is with one stream.  One step is the outcome of a call made
outside the lock together with the section that follows it; what the section does outside the
slot is returned as an effect `Eff`.

* `Thread.step`, `drainStep`                       the two step functions;
* `Thread.Section`, `DrainSection`                 their branches, one constructor each;
* `Thread.step_section`, `drainStep_section`       every step is one of the branches.
-/

namespace ShadowLan

/-! ## the stream thread -/

/-- where a stream thread is in `dt_stream_thread`.  In `sendFly` and `drainFly` it holds bytes of
the front chunk it has taken and sends them outside the lock. -/
inductive Pc where
  /-- spawned, has not looked its slot up -/
  | start
  /-- dialing the relay -/
  | dial
  /-- connected, before the abort check -/
  | dialed
  /-- past the abort check, `DT_STOPEN` not sent -/
  | stopen
  /-- waiting for the verdict -/
  | wait
  /-- head of the pipe loop -/
  | top
  /-- in `select`, with what the loop head saw -/
  | select (hasOut rd : Bool)
  | sendTop (rd : Bool)
  | sendFly (rd : Bool) (p : List Byte)
  | sentFly (rd : Bool) (k : Nat)
  | recv
  | drainTop
  | drainFly (p : List Byte) (put : Bool)
  | tail
  /-- closing the relay connection -/
  | closing
  | done
  deriving DecidableEq

/-- before the pipe loop -/
def Pc.early : Pc → Bool
  | .start | .dial | .dialed | .stopen | .wait => true
  | _ => false

/-- after the tail -/
def Pc.late : Pc → Bool
  | .closing | .done => true
  | _ => false

/-- the thread holds a chunk -/
def Pc.flies : Pc → Bool
  | .sendFly _ _ | .sentFly _ _ | .drainFly _ _ => true
  | _ => false

/-- the thread's send loop holds a chunk -/
def Pc.sends : Pc → Bool
  | .sendFly _ _ | .sentFly _ _ => true
  | _ => false

/-- `DT_STOPEN` is not out -/
def Pc.before : Pc → Bool
  | .start | .dial | .dialed | .stopen => true
  | _ => false

/-- from the pipe loop to the tail -/
def Pc.piping : Pc → Bool
  | .top | .select _ _ | .sendTop _ | .sendFly _ _ | .sentFly _ _ | .recv | .drainTop
  | .drainFly _ _ | .tail => true
  | _ => false

structure Thread where
  sid : Nat
  pc : Pc
  deriving DecidableEq

/-- what a section does outside the slot -/
structure Eff where
  /-- bytes put on the relay connection -/
  wire : List Byte := []
  /-- bytes read from it -/
  received : List Byte := []
  /-- the relay connection is the stream's from now on (`DT_STOPEN` is out) -/
  up : Bool := false
  /-- the relay connection is closed -/
  down : Bool := false
  /-- a drain gave the front chunk up with part of it on the wire -/
  torn : Bool := false
  /-- memory of the out-queue was freed -/
  freed : Bool := false
  /-- a `DT_STSHUT` is queued on the control link -/
  stshut : Bool := false
  /-- the verdict of an abandoned dial is handed to a retry for the same destination -/
  vfail : Option Nat := none
  deriving DecidableEq

/-- steps of the stream thread: the outcome of a call outside the lock, with the section after it -/
inductive Ev where
  | dial (ok : Bool)
  | abortCheck
  | stopen (ok : Bool) (fd : Nat)
  /-- what `dt_st_recv_frame` returned: `none` is `-1` -/
  | verdict (r : Option (Nat × List Byte))
  | head
  /-- the pipe loop is left: the tunnel stops or `select` fails -/
  | leave
  | select (wr rd : Bool)
  | take
  | push (k : Nat)
  | again
  | commit
  | recvErr
  | recvAgain
  | recvFin
  | recv (buf : List Byte)
  | drainTake
  | drainPush (k : Nat)
  | drainFail
  | drainOk
  | retire
  | closeFd
  deriving DecidableEq

/-- after the send loop the thread reads if `select` said so -/
def afterSend (rd : Bool) : Pc := if rd then .recv else .top

/-- the verdict that an abandoned dial hands on, if the stream did not connect (`vfail = 0`) -/
def vfailOf (sid type : Nat) (rp : List Byte) : Option Nat :=
  let vfail := if DtStream.isStok sid type rp then 0
    else if DtStream.isStfail sid type rp then (rp.getD 4 0).toNat
    else STF_NO_ROUTE
  if vfail = 0 then none else some vfail

/-- one step of `dt_stream_thread` on the slot it points to -/
def Thread.step (st : DtStream) (t : Thread) : Ev → Option (DtStream × Thread × Eff)
  | .dial ok =>
    if t.pc = .dial then
      if ok then some (st, ⟨t.sid, .dialed⟩, {})
      else some (st.failLocal STF_JOIN_TIMEOUT, ⟨t.sid, .done⟩, {})
    else none
  | .abortCheck =>
    if t.pc = .dialed then
      if ¬ st.used ∨ st.dead then some (st, ⟨t.sid, .done⟩, {})
      else some (st, ⟨t.sid, .stopen⟩, {})
    else none
  | .stopen ok fd =>
    if t.pc = .stopen then
      if ok then some (st.goLive t.sid fd, ⟨t.sid, .wait⟩, { up := true })
      else some (st.failLocal STF_JOIN_TIMEOUT, ⟨t.sid, .done⟩, {})
    else none
  | .verdict none =>
    if t.pc = .wait then some (st.died t.sid, ⟨t.sid, .closing⟩, {}) else none
  | .verdict (some (type, rp)) =>
    if t.pc = .wait then
      if st.mine t.sid then
        if st.gsock = 0 then
          some (st.freeDetached, ⟨t.sid, .closing⟩,
            { freed := true, vfail := vfailOf t.sid type rp })
        else if DtStream.isStok t.sid type rp then
          some (st.verdict t.sid type rp, ⟨t.sid, .top⟩, {})
        else some (st.verdict t.sid type rp, ⟨t.sid, .closing⟩, {})
      else some (st, ⟨t.sid, .closing⟩, {})
    else none
  | .head =>
    if t.pc = .top then
      some (st.atHead t.sid,
        ⟨t.sid, if ¬ st.mine t.sid ∨ st.dead then .drainTop
          else .select (decide (0 < st.ototal) && !st.flushing) (!st.inPaused && !st.peerFin)⟩,
        { stshut := st.shutNow t.sid })
    else none
  | .leave =>
    match t.pc with
    | .top | .select _ _ => some (st, ⟨t.sid, .tail⟩, {})
    | _ => none
  | .select wr rd =>
    match t.pc with
    | .select hasOut canRd =>
      if (wr → hasOut) ∧ (rd → canRd) then
        some (st, ⟨t.sid, if wr then .sendTop rd else afterSend rd⟩, {})
      else none
    | _ => none
  | .take =>
    match t.pc with
    | .sendTop rd =>
      match st.front with
      | some p =>
        if st.mine t.sid ∧ ¬ st.flushing ∧ p ≠ [] then
          some ({ st with sending := true }, ⟨t.sid, .sendFly rd p⟩, {})
        else some (st, ⟨t.sid, afterSend rd⟩, {})
      | none => some (st, ⟨t.sid, afterSend rd⟩, {})
    | _ => none
  | .push k =>
    match t.pc with
    | .sendFly rd p =>
      if 0 < k ∧ k ≤ p.length then some (st, ⟨t.sid, .sentFly rd k⟩, { wire := p.take k })
      else none
    | _ => none
  | .again =>
    match t.pc with
    | .sendFly rd _ => some ({ st with sending := false }, ⟨t.sid, afterSend rd⟩, {})
    | _ => none
  | .commit =>
    match t.pc with
    | .sentFly rd k =>
      some (st.sent t.sid k, ⟨t.sid, .sendTop rd⟩, { freed := st.mine t.sid })
    | _ => none
  | .recvErr =>
    if t.pc = .recv then some (st.hardErr t.sid, ⟨t.sid, .tail⟩, {}) else none
  | .recvAgain => if t.pc = .recv then some (st, ⟨t.sid, .top⟩, {}) else none
  | .recvFin => if t.pc = .recv then some (st.fin t.sid, ⟨t.sid, .top⟩, {}) else none
  | .recv buf =>
    if t.pc = .recv ∧ 0 < buf.length ∧ buf.length ≤ 65536 then
      some (st.queued t.sid buf, ⟨t.sid, .top⟩, { received := buf })
    else none
  | .drainTake =>
    if t.pc = .drainTop then
      match st.front with
      | some p =>
        if st.mine t.sid ∧ st.fdLive ∧ p ≠ [] then some (st, ⟨t.sid, .drainFly p false⟩, {})
        else some (st, ⟨t.sid, .tail⟩, {})
      | none => some (st, ⟨t.sid, .tail⟩, {})
    else none
  | .drainPush k =>
    match t.pc with
    | .drainFly p _ =>
      if 0 < k ∧ k ≤ p.length then
        some (st, ⟨t.sid, .drainFly (p.drop k) true⟩, { wire := p.take k })
      else none
    | _ => none
  | .drainFail =>
    match t.pc with
    | .drainFly p put => if p ≠ [] then some (st, ⟨t.sid, .tail⟩, { torn := put }) else none
    | _ => none
  | .drainOk =>
    match t.pc with
    | .drainFly p _ => if p = [] then some (st.drained t.sid, ⟨t.sid, .drainTop⟩, {}) else none
    | _ => none
  | .retire =>
    if t.pc = .tail then
      some (st.retire t.sid, ⟨t.sid, .closing⟩,
        { freed := st.mine t.sid && (st.dead || st.wrShut) })
    else none
  | .closeFd =>
    if t.pc = .closing then some (st, ⟨t.sid, .done⟩, { down := true }) else none

/-- the sections of the stream thread, one constructor a branch: all that a step can do -/
inductive Thread.Section (st : DtStream) (sid : Nat) :
    Pc → Ev → DtStream → Pc → Eff → Prop
  | dialed : Section st sid .dial (.dial true) st .dialed {}
  | dialFailed :
    Section st sid .dial (.dial false) (st.failLocal STF_JOIN_TIMEOUT) .done {}
  | aborted (h : ¬ st.used ∨ st.dead) : Section st sid .dialed .abortCheck st .done {}
  | goesOn (h : ¬ (¬ st.used ∨ st.dead)) : Section st sid .dialed .abortCheck st .stopen {}
  | stopened (fd : Nat) :
    Section st sid .stopen (.stopen true fd) (st.goLive sid fd) .wait { up := true }
  | stopenFailed (fd : Nat) :
    Section st sid .stopen (.stopen false fd) (st.failLocal STF_JOIN_TIMEOUT) .done {}
  | died : Section st sid .wait (.verdict none) (st.died sid) .closing {}
  | detached (type : Nat) (rp : List Byte) (hm : st.mine sid) (hg : st.gsock = 0) :
    Section st sid .wait (.verdict (some (type, rp))) st.freeDetached .closing
      { freed := true, vfail := vfailOf sid type rp }
  | opened (type : Nat) (rp : List Byte) (hm : st.mine sid) (hg : st.gsock ≠ 0)
    (hok : DtStream.isStok sid type rp) :
    Section st sid .wait (.verdict (some (type, rp))) (st.verdict sid type rp) .top {}
  | refused (type : Nat) (rp : List Byte) (hm : st.mine sid) (hg : st.gsock ≠ 0)
    (hok : ¬ DtStream.isStok sid type rp) :
    Section st sid .wait (.verdict (some (type, rp))) (st.verdict sid type rp) .closing {}
  | gone (type : Nat) (rp : List Byte) (hm : ¬ st.mine sid) :
    Section st sid .wait (.verdict (some (type, rp))) st .closing {}
  | headDead (h : ¬ st.mine sid ∨ st.dead) :
    Section st sid .top .head (st.atHead sid) .drainTop { stshut := st.shutNow sid }
  | headLive (h : ¬ (¬ st.mine sid ∨ st.dead)) :
    Section st sid .top .head (st.atHead sid)
      (.select (decide (0 < st.ototal) && !st.flushing) (!st.inPaused && !st.peerFin))
      { stshut := st.shutNow sid }
  | leaveTop : Section st sid .top .leave st .tail {}
  | leaveSelect (o r : Bool) : Section st sid (.select o r) .leave st .tail {}
  | selected (o r wr rd : Bool) (h : (wr → o) ∧ (rd → r)) :
    Section st sid (.select o r) (.select wr rd) st
      (if wr then .sendTop rd else afterSend rd) {}
  | take (rd : Bool) (p : List Byte) (hm : st.mine sid) (hf : ¬ st.flushing)
    (hp : st.front = some p) (hne : p ≠ []) :
    Section st sid (.sendTop rd) .take { st with sending := true } (.sendFly rd p) {}
  | takeNone (rd : Bool) : Section st sid (.sendTop rd) .take st (afterSend rd) {}
  | push (rd : Bool) (p : List Byte) (k : Nat) (h0 : 0 < k) (hk : k ≤ p.length) :
    Section st sid (.sendFly rd p) (.push k) st (.sentFly rd k) { wire := p.take k }
  | again (rd : Bool) (p : List Byte) :
    Section st sid (.sendFly rd p) .again { st with sending := false } (afterSend rd) {}
  | commit (rd : Bool) (k : Nat) :
    Section st sid (.sentFly rd k) .commit (st.sent sid k) (.sendTop rd)
      { freed := st.mine sid }
  | recvErr : Section st sid .recv .recvErr (st.hardErr sid) .tail {}
  | recvAgain : Section st sid .recv .recvAgain st .top {}
  | recvFin : Section st sid .recv .recvFin (st.fin sid) .top {}
  | recv (buf : List Byte) (h0 : 0 < buf.length) (h : buf.length ≤ 65536) :
    Section st sid .recv (.recv buf) (st.queued sid buf) .top { received := buf }
  | drainTake (p : List Byte) (hm : st.mine sid) (hl : st.fdLive) (hp : st.front = some p)
    (hne : p ≠ []) : Section st sid .drainTop .drainTake st (.drainFly p false) {}
  | drainNone : Section st sid .drainTop .drainTake st .tail {}
  | drainPush (p : List Byte) (put : Bool) (k : Nat) (h0 : 0 < k) (hk : k ≤ p.length) :
    Section st sid (.drainFly p put) (.drainPush k) st (.drainFly (p.drop k) true)
      { wire := p.take k }
  | drainFail (p : List Byte) (put : Bool) (hne : p ≠ []) :
    Section st sid (.drainFly p put) .drainFail st .tail { torn := put }
  | drainOk (put : Bool) :
    Section st sid (.drainFly [] put) .drainOk (st.drained sid) .drainTop {}
  | retire : Section st sid .tail .retire (st.retire sid) .closing
      { freed := st.mine sid && (st.dead || st.wrShut) }
  | closeFd : Section st sid .closing .closeFd st .done { down := true }

/-- **Inversion of the thread's step.**  The thread keeps its stream id, and what it does is one
of the sections. -/
theorem Thread.step_section {st st' : DtStream} {t t' : Thread} {e : Ev} {x : Eff}
    (h : Thread.step st t e = some (st', t', x)) :
    t'.sid = t.sid ∧ Thread.Section st t.sid t.pc e st' t'.pc x := by
  obtain ⟨sid, pc⟩ := t
  cases e with
  | verdict r =>
    cases r with
    | none =>
      simp only [Thread.step] at h
      split_ifs at h with hpc
      cases h; cases hpc; exact ⟨rfl, .died⟩
    | some v =>
      simp only [Thread.step] at h
      split_ifs at h with hpc hm hg hok <;> cases h <;> cases hpc
      · exact ⟨rfl, .detached _ _ hm hg⟩
      · exact ⟨rfl, .opened _ _ hm hg hok⟩
      · exact ⟨rfl, .refused _ _ hm hg hok⟩
      · exact ⟨rfl, .gone _ _ hm⟩
  | dial ok =>
    simp only [Thread.step] at h
    split_ifs at h with hpc hok <;> cases h <;> cases hpc
    · cases hok; exact ⟨rfl, .dialed⟩
    · cases Bool.eq_false_iff.mpr hok; exact ⟨rfl, .dialFailed⟩
  | abortCheck =>
    simp only [Thread.step] at h
    split_ifs at h with hpc hab <;> cases h <;> cases hpc
    · exact ⟨rfl, .aborted hab⟩
    · exact ⟨rfl, .goesOn hab⟩
  | stopen ok fd =>
    simp only [Thread.step] at h
    split_ifs at h with hpc hok <;> cases h <;> cases hpc
    · cases hok; exact ⟨rfl, .stopened fd⟩
    · cases Bool.eq_false_iff.mpr hok; exact ⟨rfl, .stopenFailed fd⟩
  | head =>
    simp only [Thread.step] at h
    split_ifs at h with hpc hd <;> cases h <;> cases hpc
    · exact ⟨rfl, .headDead hd⟩
    · exact ⟨rfl, .headLive hd⟩
  | leave =>
    cases pc <;> simp only [Thread.step] at h <;> cases h
    · exact ⟨rfl, .leaveTop⟩
    · exact ⟨rfl, .leaveSelect _ _⟩
  | select wr rd =>
    cases pc <;> simp only [Thread.step] at h <;> try cases h
    obtain ⟨hs, h⟩ := Option.ite_none_right_eq_some.mp h
    cases h; exact ⟨rfl, .selected _ _ wr rd hs⟩
  | take =>
    cases pc <;> simp only [Thread.step] at h <;> try cases h
    cases hf : st.front with
    | none => rw [hf] at h; cases h; exact ⟨rfl, .takeNone _⟩
    | some p =>
      rw [hf] at h
      dsimp only at h
      split_ifs at h with hc <;> cases h
      · exact ⟨rfl, .take _ p hc.1 hc.2.1 hf hc.2.2⟩
      · exact ⟨rfl, .takeNone _⟩
  | push k =>
    cases pc <;> simp only [Thread.step] at h <;> try cases h
    split_ifs at h with hk
    cases h; exact ⟨rfl, .push _ _ k hk.1 hk.2⟩
  | again =>
    cases pc <;> simp only [Thread.step] at h <;> cases h
    exact ⟨rfl, .again _ _⟩
  | commit =>
    cases pc <;> simp only [Thread.step] at h <;> cases h
    exact ⟨rfl, .commit _ _⟩
  | recvErr =>
    simp only [Thread.step] at h
    split_ifs at h with hpc
    cases h; cases hpc; exact ⟨rfl, .recvErr⟩
  | recvAgain =>
    simp only [Thread.step] at h
    split_ifs at h with hpc
    cases h; cases hpc; exact ⟨rfl, .recvAgain⟩
  | recvFin =>
    simp only [Thread.step] at h
    split_ifs at h with hpc
    cases h; cases hpc; exact ⟨rfl, .recvFin⟩
  | recv buf =>
    simp only [Thread.step] at h
    split_ifs at h with hr
    obtain ⟨hpc, h0, hle⟩ := hr
    cases h; cases hpc; exact ⟨rfl, .recv buf h0 hle⟩
  | drainTake =>
    simp only [Thread.step] at h
    split_ifs at h with hpc
    cases hpc
    cases hf : st.front with
    | none => rw [hf] at h; cases h; exact ⟨rfl, .drainNone⟩
    | some p =>
      rw [hf] at h
      dsimp only at h
      split_ifs at h with hc <;> cases h
      · exact ⟨rfl, .drainTake p hc.1 hc.2.1 hf hc.2.2⟩
      · exact ⟨rfl, .drainNone⟩
  | drainPush k =>
    cases pc <;> simp only [Thread.step] at h <;> try cases h
    split_ifs at h with hk
    cases h; exact ⟨rfl, .drainPush _ _ k hk.1 hk.2⟩
  | drainFail =>
    cases pc <;> simp only [Thread.step] at h <;> try cases h
    split_ifs at h with hne
    cases h; exact ⟨rfl, .drainFail _ _ hne⟩
  | drainOk =>
    cases pc <;> simp only [Thread.step] at h <;> try cases h
    split_ifs at h with hnil
    cases h; cases hnil; exact ⟨rfl, .drainOk _⟩
  | retire =>
    simp only [Thread.step] at h
    split_ifs at h with hpc
    cases h; cases hpc; exact ⟨rfl, .retire⟩
  | closeFd =>
    simp only [Thread.step] at h
    split_ifs at h with hpc
    cases h; cases hpc; exact ⟨rfl, .closeFd⟩

/-! ## the exit drain -/

/-- where `dt_flush_streams` is with one stream.  In `fly` it holds the front chunk it has taken:
the descriptor, what is left to send, the offset it found, whether part of it is out, and whether
the chunk's memory was freed meanwhile. -/
inductive DrainPc where
  | idle
  | claimed
  | fly (fd : Option Nat) (p : List Byte) (off0 : Nat) (put freed : Bool)
  | leaving
  deriving DecidableEq

inductive DrainEv where
  | claim
  | take
  | push (bs : List Byte)
  /-- the chunk is out; `more` if the 900 ms budget allows another round -/
  | ok (more : Bool)
  | fail
  | release
  deriving DecidableEq

/-- one step of `dt_flush_streams` on one slot.  `take` while `sending` is set is the wait for the
pump's send running out of its budget; a chunk that was freed under the drain reads as anything. -/
def drainStep (st : DtStream) (d : DrainPc) : DrainEv → Option (DtStream × DrainPc × Eff)
  | .claim =>
    if d = .idle ∧ st.used ∧ st.fdLive ∧ st.oh ≠ [] ∧ st.state ≠ .dead then
      some ({ st with flushing := true }, .claimed, {})
    else none
  | .take =>
    if d = .claimed then
      match st.front with
      | some p =>
        if st.used ∧ ¬ st.sending ∧ p ≠ [] then
          some ({ st with sending := true },
            .fly st.fd p (st.oh.head?.elim 0 Chunk.off) false false, {})
        else some (st, .leaving, {})
      | none => some (st, .leaving, {})
    else none
  | .push bs =>
    match d with
    | .fly (some fd) p off0 _ freed =>
      if bs ≠ [] ∧ bs.length ≤ p.length ∧ (freed ∨ bs = p.take bs.length) then
        some (st, .fly (some fd) (p.drop bs.length) off0 true freed, { wire := bs })
      else none
    | _ => none
  | .ok more =>
    match d with
    | .fly _ p off0 _ _ =>
      if p = [] then some (st.flushed off0, if more then .claimed else .leaving, {}) else none
    | _ => none
  | .fail =>
    match d with
    | .fly _ p _ put _ =>
      if p ≠ [] then some ({ st with sending := false }, .leaving, { torn := put }) else none
    | _ => none
  | .release =>
    if d = .leaving then
      some (if st.used then { st with flushing := false } else st, .idle, {})
    else none

/-- the sections of the exit drain -/
inductive DrainSection (st : DtStream) : DrainPc → DrainEv → DtStream → DrainPc → Eff → Prop
  | claim (hu : st.used) (hl : st.fdLive) (ho : st.oh ≠ []) (hd : st.state ≠ .dead) :
    DrainSection st .idle .claim { st with flushing := true } .claimed {}
  | take (p : List Byte) (hu : st.used) (hs : ¬ st.sending) (hp : st.front = some p)
    (hne : p ≠ []) :
    DrainSection st .claimed .take { st with sending := true }
      (.fly st.fd p (st.oh.head?.elim 0 Chunk.off) false false) {}
  | takeNone : DrainSection st .claimed .take st .leaving {}
  | push (fd : Nat) (p : List Byte) (off0 : Nat) (put freed : Bool) (bs : List Byte)
    (h0 : bs ≠ []) (hle : bs.length ≤ p.length) (hb : freed ∨ bs = p.take bs.length) :
    DrainSection st (.fly (some fd) p off0 put freed) (.push bs) st
      (.fly (some fd) (p.drop bs.length) off0 true freed) { wire := bs }
  | ok (fd : Option Nat) (off0 : Nat) (put freed more : Bool) :
    DrainSection st (.fly fd [] off0 put freed) (.ok more) (st.flushed off0)
      (if more then .claimed else .leaving) {}
  | fail (fd : Option Nat) (p : List Byte) (off0 : Nat) (put freed : Bool) (hne : p ≠ []) :
    DrainSection st (.fly fd p off0 put freed) .fail { st with sending := false } .leaving
      { torn := put }
  | release :
    DrainSection st .leaving .release (if st.used then { st with flushing := false } else st)
      .idle {}

theorem drainStep_section {st st' : DtStream} {d d' : DrainPc} {e : DrainEv} {x : Eff}
    (h : drainStep st d e = some (st', d', x)) : DrainSection st d e st' d' x := by
  cases e with
  | claim =>
    simp only [drainStep] at h
    split_ifs at h with hc
    obtain ⟨rfl, hu, hl, ho, hd⟩ := hc
    cases h; exact .claim hu hl ho hd
  | take =>
    simp only [drainStep] at h
    split_ifs at h with hc
    cases hc
    cases hf : st.front with
    | none => rw [hf] at h; cases h; exact .takeNone
    | some p =>
      rw [hf] at h
      dsimp only at h
      split_ifs at h with hk <;> cases h
      · exact .take p hk.1 hk.2.1 hf hk.2.2
      · exact .takeNone
  | push bs =>
    cases d with
    | fly fd p off0 put freed =>
      cases fd with
      | none => simp [drainStep] at h
      | some fd =>
        simp only [drainStep] at h
        split_ifs at h with hb
        cases h; exact .push fd p off0 put freed bs hb.1 hb.2.1 hb.2.2
    | _ => simp [drainStep] at h
  | ok more =>
    cases d <;> simp only [drainStep] at h <;> try cases h
    obtain ⟨rfl, h⟩ := Option.ite_none_right_eq_some.mp h
    cases h; exact .ok _ _ _ _ more
  | fail =>
    cases d <;> simp only [drainStep] at h <;> try cases h
    split_ifs at h with hne
    cases h; exact .fail _ _ _ _ _ hne
  | release =>
    simp only [drainStep] at h
    obtain ⟨rfl, h⟩ := Option.ite_none_right_eq_some.mp h
    cases h; exact .release

end ShadowLan
