import ShadowLan.Lib.Runs
import ShadowLan.Hook.Pump

/-!
# The send path of a tunneled stream

Three loops take chunks off the out-queue: the send loop of the pump, its drain after `close()`,
and the exit drain.  `Held oh pc d j`: at most one of them has the front chunk of `oh` in flight,
`j` of its bytes are out, and it holds the rest.  The flags `flushing` and `sending` keep the send
loop and the exit drain apart.  The close drain looks at neither, and a drain that gives up in
the middle of a chunk leaves the chunk with its old offset.

* `Exact`            what is on the wire is an initial part of what the app's calls accepted, and
                     `ototal` counts the out-queue;
* `SendOk`           nobody takes a chunk that the close drain or the exit drain has in flight or
                     has torn, and no queue is freed under the exit drain;
* `send_exact`       a run of such steps is exact in every state it visits;
* `sent_twice`       close, and exit at once: the same bytes go out twice.
-/

namespace ShadowLan

/-! ## where the loops are -/

theorem Pc.flies_of_sends {pc : Pc} (h : pc.sends = true) : pc.flies = true := by
  cases pc <;> first | rfl | cases h

theorem Pc.flies_of_not_piping {pc : Pc} (h : ¬ pc.piping = true) : pc.flies = false := by
  cases pc <;> first | rfl | exact absurd rfl h

/-- the relay connection is the thread's -/
def Pc.ConnOk (pc : Pc) (c : Conn) : Prop :=
  (pc.before = true → c = .none) ∧
    (pc.piping = true ∨ pc = .wait ∨ pc = .closing → c = .up)

/-- the exit drain holds a chunk -/
def DrainPc.flies : DrainPc → Bool
  | .fly _ _ _ _ _ => true
  | _ => false

/-- at most one loop has the front chunk in flight: `j` of its bytes are out, it holds the rest -/
inductive Held : List (Chunk Byte) → Pc → DrainPc → Nat → Prop
  | rest {oh : List (Chunk Byte)} {pc : Pc} {d : DrainPc} (hpc : pc.flies = false)
    (hd : d.flies = false) : Held oh pc d 0
  | sendFly {c : Chunk Byte} {q : List (Chunk Byte)} {rd : Bool} {d : DrainPc}
    (hd : d.flies = false) : Held (c :: q) (.sendFly rd c.rest) d 0
  | sentFly {c : Chunk Byte} {q : List (Chunk Byte)} {rd : Bool} {k : Nat} {d : DrainPc}
    (hd : d.flies = false) (hk : k ≤ c.rest.length) : Held (c :: q) (.sentFly rd k) d k
  | drainFly {c : Chunk Byte} {q : List (Chunk Byte)} {put : Bool} {j : Nat} {d : DrainPc}
    (hd : d.flies = false) (hj : j ≤ c.rest.length) (hput : put = false → j = 0) :
    Held (c :: q) (.drainFly (c.rest.drop j) put) d j
  | fly {c : Chunk Byte} {q : List (Chunk Byte)} {pc : Pc} {fd : Option Nat} {put : Bool} {j : Nat}
    (hpc : pc.flies = false) (hc : c.off < c.n) (hj : j ≤ c.rest.length)
    (hput : put = false → j = 0) : Held (c :: q) pc (.fly fd (c.rest.drop j) c.off put false) j

theorem Held.push {oh : List (Chunk Byte)} {pc : Pc} {d : DrainPc} {j : Nat}
    (h : Held oh pc d j) (b : List Byte) : Held (push oh b) pc d j := by
  cases h with
  | rest hpc hd => exact .rest hpc hd
  | sendFly hd => exact .sendFly hd
  | sentFly hd hk => exact .sentFly hd hk
  | drainFly hd hj hput => exact .drainFly hd hj hput
  | fly hpc hc hj hput => exact .fly hpc hc hj hput

/-- what is out is part of the queue's content -/
theorem Held.le {oh : List (Chunk Byte)} {pc : Pc} {d : DrainPc} {j : Nat}
    (h : Held oh pc d j) : j ≤ (bytes oh).length := by
  cases h with
  | rest | sendFly => exact Nat.zero_le _
  | sentFly _ hj | drainFly _ hj | fly _ _ hj =>
    rw [bytes_cons, List.length_append]
    omega

/-- a thread that holds nothing may go where it holds nothing -/
theorem Held.move {oh : List (Chunk Byte)} {pc pc' : Pc} {d : DrainPc} {j : Nat}
    (h : Held oh pc d j) (hpc : pc.flies = false) (hpc' : pc'.flies = false) :
    Held oh pc' d j := by
  cases h with
  | rest _ hd => exact .rest hpc' hd
  | fly _ hc hj hput => exact .fly hpc' hc hj hput
  | sendFly | sentFly | drainFly => cases hpc

/-- an exit drain that holds nothing may go where it holds nothing -/
theorem Held.moveDrain {oh : List (Chunk Byte)} {pc : Pc} {d d' : DrainPc} {j : Nat}
    (h : Held oh pc d j) (hd : d.flies = false) (hd' : d'.flies = false) :
    Held oh pc d' j := by
  cases h with
  | rest hpc _ => exact .rest hpc hd'
  | sendFly => exact .sendFly hd'
  | sentFly _ hk => exact .sentFly hd' hk
  | drainFly _ hj hput => exact .drainFly hd' hj hput
  | fly => cases hd

theorem Held.of_sendFly {oh : List (Chunk Byte)} {rd : Bool} {r : List Byte} {d : DrainPc}
    {j : Nat} (h : Held oh (.sendFly rd r) d j) :
    ∃ c q, oh = c :: q ∧ r = c.rest ∧ j = 0 ∧ d.flies = false := by
  cases h with
  | rest h => cases h
  | fly h => cases h
  | sendFly hd => exact ⟨_, _, rfl, rfl, rfl, hd⟩

theorem Held.of_sentFly {oh : List (Chunk Byte)} {rd : Bool} {k : Nat} {d : DrainPc}
    {j : Nat} (h : Held oh (.sentFly rd k) d j) :
    ∃ c q, oh = c :: q ∧ k ≤ c.rest.length ∧ k = j ∧ d.flies = false := by
  cases h with
  | rest h => cases h
  | fly h => cases h
  | sentFly hd hk => exact ⟨_, _, rfl, hk, rfl, hd⟩

theorem Held.of_drainFly {oh : List (Chunk Byte)} {put : Bool} {r : List Byte} {d : DrainPc}
    {j : Nat} (h : Held oh (.drainFly r put) d j) :
    ∃ c q, oh = c :: q ∧ r = c.rest.drop j ∧ j ≤ c.rest.length ∧ (put = false → j = 0) ∧
      d.flies = false := by
  cases h with
  | rest h => cases h
  | fly h => cases h
  | drainFly hd hj hput => exact ⟨_, _, rfl, rfl, hj, hput, hd⟩

theorem Held.of_fly {oh : List (Chunk Byte)} {pc : Pc} {fd : Option Nat} {r : List Byte}
    {off0 : Nat} {put freed : Bool} {j : Nat} (h : Held oh pc (.fly fd r off0 put freed) j) :
    ∃ c q, oh = c :: q ∧ r = c.rest.drop j ∧ off0 = c.off ∧ c.off < c.n ∧ j ≤ c.rest.length ∧
      (put = false → j = 0) ∧ freed = false ∧ pc.flies = false := by
  cases h with
  | rest _ h => cases h
  | sendFly h | sentFly h | drainFly h => cases h
  | fly hpc hc hj hput => exact ⟨_, _, rfl, rfl, rfl, hc, hj, hput, rfl, hpc⟩

/-! ## what a section does to the out-queue -/

/-- the out-queue side of a slot -/
def DtStream.outSide (st : DtStream) :
    List (Chunk Byte) × Nat × Bool × Option Nat × Bool × Bool × Bool × Nat :=
  (st.oh, st.ototal, st.used, st.fd, st.fdLive, st.flushing, st.sending, st.sid)

namespace DtStream

theorem handed_outSide (st : DtStream) (v : Nat) : (st.handed v).outSide = st.outSide := by
  unfold handed
  split_ifs <;> rfl

theorem failLocal_outSide (st : DtStream) (r : Nat) : (st.failLocal r).outSide = st.outSide := by
  unfold failLocal
  split_ifs <;> rfl

theorem died_outSide (st : DtStream) (sid : Nat) : (st.died sid).outSide = st.outSide := by
  unfold died
  split_ifs <;> rfl

theorem verdict_outSide (st : DtStream) (sid type : Nat) (rp : List Byte) :
    (st.verdict sid type rp).outSide = st.outSide := by
  unfold verdict
  split_ifs <;> rfl

theorem atHead_outSide (st : DtStream) (sid : Nat) : (st.atHead sid).outSide = st.outSide := by
  unfold atHead
  split_ifs <;> rfl

theorem atHead_state (st : DtStream) (sid : Nat) : (st.atHead sid).state = st.state := by
  unfold atHead
  split_ifs <;> rfl

theorem hardErr_outSide (st : DtStream) (sid : Nat) : (st.hardErr sid).outSide = st.outSide := by
  unfold hardErr
  split_ifs <;> rfl

theorem fin_outSide (st : DtStream) (sid : Nat) : (st.fin sid).outSide = st.outSide := by
  unfold fin
  split_ifs <;> rfl

theorem queued_outSide (st : DtStream) (sid : Nat) (buf : List Byte) :
    (st.queued sid buf).outSide = st.outSide := by
  unfold queued
  split_ifs <;> rfl

theorem pop_outSide (st : DtStream) (blen : Nat) : (st.pop blen).1.outSide = st.outSide := by
  unfold pop
  dsimp only
  split_ifs <;> rfl

theorem pop_state (st : DtStream) (blen : Nat) : (st.pop blen).1.state = st.state := by
  unfold pop
  dsimp only
  split_ifs <;> rfl

theorem shutdown_state (st : DtStream) (rd wr : Bool) :
    (st.shutdown rd wr).state = st.state := by
  cases rd <;> cases wr <;> rfl

theorem shutdown_outSide (st : DtStream) (rd wr : Bool) :
    (st.shutdown rd wr).outSide = st.outSide := by
  cases rd <;> cases wr <;> rfl

end DtStream

namespace Pipe

/-- nothing is sent twice, skipped or reordered, and `ototal` counts the out-queue -/
def Exact (p : Pipe) : Prop :=
  p.wire <+: p.accepted ∧ p.st.ototal = (bytes p.st.oh).length ∧ p.st.ototal ≤ DT_ST_MAXOUT

/-- no loop takes a chunk that a drain has in flight or has torn, and the queue is not freed under
the exit drain -/
def SendOk (p : Pipe) : Act → Prop
  | .thread .take => p.st.flushing = false → p.st.oh ≠ [] → p.torn = false
  | .thread .drainTake => p.st.oh ≠ [] → p.torn = false ∧ p.drain.flies = false
  | .drain .take =>
    p.st.sending = false → p.st.oh ≠ [] →
      p.torn = false ∧ (p.thread.pc.flies = true → p.thread.pc.sends = true)
  | .thread .retire => p.st.dead = true ∨ p.st.wrShut = true → p.drain.flies = false
  | .thread (.verdict (some _)) => p.st.gsock = 0 → p.drain.flies = false
  | _ => True

instance (p : Pipe) (a : Act) : Decidable (p.SendOk a) := by
  cases a with
  | thread x =>
    cases x with
    | verdict v => cases v <;> unfold SendOk <;> infer_instance
    | _ => unfold SendOk; infer_instance
  | drain x => cases x <;> unfold SendOk <;> infer_instance
  | _ => unfold SendOk; infer_instance

structure Sending (p : Pipe) : Prop where
  sid : p.st.sid = p.thread.sid
  total : p.st.ototal = (bytes p.st.oh).length
  cap : p.st.ototal ≤ DT_ST_MAXOUT
  sent : p.wire <+: p.accepted
  conn : p.thread.pc.ConnOk p.conn
  piping : p.thread.pc.piping = true → p.st.used = true ∧ p.st.state ≠ .connecting
  /-- no descriptor before the connection -/
  unfd : p.conn = .none → p.st.fd = none ∧ ∀ fd q off0 put freed,
    p.drain = .fly fd q off0 put freed → fd = none
  /-- the exit drain works on a slot with `flushing` set -/
  live : p.drain ≠ .idle → p.st.flushing = true ∧ p.st.fdLive = true
  /-- a send loop works with `sending` set -/
  busy : p.thread.pc.sends = true → p.st.sending = true
  fly : p.drain.flies = true → p.st.used = true
  whole : p.torn = true → p.thread.pc.flies = false ∧ p.drain.flies = false
  held : ∃ j, Held p.st.oh p.thread.pc p.drain j ∧
    (p.st.used = true → p.conn ≠ .closed → p.torn = false →
      p.accepted = p.wire ++ (bytes p.st.oh).drop j)

theorem sending_fresh (st0 : DtStream) (gsock : Nat) (dst : SockaddrIn) (sid : Nat) :
    (fresh st0 gsock dst sid).Sending where
  sid := rfl
  total := rfl
  cap := Nat.zero_le _
  sent := List.prefix_rfl
  conn := ⟨fun _ => rfl, by simp [fresh, Pc.piping]⟩
  piping := fun h => by cases h
  unfd := fun _ => ⟨rfl, fun _ _ _ _ _ h => by cases h⟩
  live := fun h => absurd rfl h
  busy := fun h => by cases h
  fly := fun h => by cases h
  whole := fun h => by cases h
  held := ⟨0, .rest rfl rfl, fun _ _ _ => rfl⟩

/-- a section that leaves the out-queue alone, of a thread that holds nothing before and after, or
of someone else -/
theorem Sending.quiet {p p' : Pipe} (hp : p.Sending) (ho : p'.st.outSide = p.st.outSide)
    (hsid : p'.thread.sid = p.thread.sid) (hd : p'.drain = p.drain) (hc : p'.conn = p.conn)
    (ht : p'.torn = p.torn) (ha : p'.accepted = p.accepted) (hw : p'.wire = p.wire)
    (hpc : p'.thread.pc = p.thread.pc ∨
      p.thread.pc.flies = false ∧ p'.thread.pc.flies = false)
    (hconn : p'.thread.pc.ConnOk p.conn)
    (hpipe : p'.thread.pc.piping = true → p.st.used = true ∧ p'.st.state ≠ .connecting) :
    p'.Sending := by
  simp only [DtStream.outSide, Prod.mk.injEq] at ho
  obtain ⟨e1, e2, e3, e4, e5, e6, e7, e8⟩ := ho
  have hflies : p'.thread.pc.flies = p.thread.pc.flies := by
    rcases hpc with h | ⟨h, h'⟩
    · rw [h]
    · rw [h, h']
  have hsends : p'.thread.pc.sends = true → p.thread.pc.sends = true := by
    rcases hpc with h | ⟨h, h'⟩
    · rw [h]; exact id
    · intro hs
      rw [Pc.flies_of_sends hs] at h'; cases h'
  constructor
  · rw [e8, hsid]; exact hp.sid
  · rw [e1, e2]; exact hp.total
  · rw [e2]; exact hp.cap
  · rw [ha, hw]; exact hp.sent
  · rw [hc]; exact hconn
  · rw [e3]; exact hpipe
  · rw [hc, e4, hd]; exact hp.unfd
  · rw [hd, e6, e5]; exact hp.live
  · rw [e7]; exact fun h => hp.busy (hsends h)
  · rw [hd, e3]; exact hp.fly
  · rw [ht, hd, hflies]; exact hp.whole
  · obtain ⟨j, hj, hex⟩ := hp.held
    rw [e1, hd, e3, hc, ht, ha, hw]
    refine ⟨j, ?_, hex⟩
    rcases hpc with h | ⟨h, h'⟩
    · rw [h]; exact hj
    · exact hj.move h h'

/-! ## the app's calls -/

theorem room_le {st : DtStream} {len k : Nat} (h : st.room len = some k)
    (hcap : st.ototal ≤ DT_ST_MAXOUT) : k ≤ len ∧ st.ototal + k ≤ DT_ST_MAXOUT := by
  unfold DtStream.room at h
  by_cases hover : DT_ST_MAXOUT < st.ototal + len
  · rw [if_pos hover] at h
    dsimp only at h
    split_ifs at h with h1 h2 h2
    · cases h; omega
    · cases h; omega
  · rw [if_neg hover] at h
    cases h; omega

/-- `dt_stream_send` queues what it accepts behind what is there, under the cap -/
theorem send_outSide (st : DtStream) (buf : List Byte) (hcap : st.ototal ≤ DT_ST_MAXOUT) :
    ((st.send buf).1.outSide = st.outSide ∧ (st.send buf).2.2 = [] ∨
      (st.send buf).1.outSide = { st with
        oh := push st.oh (st.send buf).2.2,
        ototal := st.ototal + (st.send buf).2.2.length : DtStream }.outSide ∧
      st.ototal + (st.send buf).2.2.length ≤ DT_ST_MAXOUT) ∧
    (st.send buf).1.state = st.state := by
  unfold DtStream.send
  by_cases h1 : st.wrShut = true
  · rw [if_pos h1]; exact ⟨Or.inl ⟨rfl, rfl⟩, rfl⟩
  · rw [if_neg h1]
    by_cases h2 : st.dead = true ∨ st.state = .dead
    · rw [if_pos h2]; exact ⟨Or.inl ⟨rfl, rfl⟩, rfl⟩
    · rw [if_neg h2]
      cases hroom : st.room buf.length with
      | none => exact ⟨Or.inl ⟨rfl, rfl⟩, rfl⟩
      | some len =>
        obtain ⟨hle, hfit⟩ := room_le hroom hcap
        have hlen : (buf.take len).length = len := List.length_take_of_le hle
        dsimp only
        by_cases h0 : len = 0
        · rw [if_pos h0]
          constructor
          · exact Or.inl ⟨by split_ifs <;> rfl, rfl⟩
          · split_ifs <;> rfl
        · rw [if_neg h0]
          constructor
          · refine Or.inr ⟨?_, by rw [hlen]; exact hfit⟩
            rw [hlen]
            split_ifs <;> rfl
          · split_ifs <;> rfl

theorem Sending.send {p : Pipe} (hp : p.Sending) (buf : List Byte) :
    Sending { p with
      st := (p.st.send buf).1, accepted := p.accepted ++ (p.st.send buf).2.2 } := by
  obtain ⟨ho, hstate⟩ := send_outSide p.st buf hp.cap
  have hpipe : p.thread.pc.piping = true →
      p.st.used = true ∧ (p.st.send buf).1.state ≠ .connecting := by
    rw [hstate]; exact hp.piping
  rcases ho with ⟨ho, hnil⟩ | ⟨ho, hfit⟩
  · exact hp.quiet ho rfl rfl rfl rfl (by rw [hnil, List.append_nil]) rfl (Or.inl rfl) hp.conn
      hpipe
  · simp only [DtStream.outSide, Prod.mk.injEq] at ho
    obtain ⟨e1, e2, e3, e4, e5, e6, e7, e8⟩ := ho
    obtain ⟨j, hj, hex⟩ := hp.held
    constructor <;> dsimp only
    · rw [e8]; exact hp.sid
    · rw [e1, e2, bytes_push, List.length_append, hp.total]
    · rw [e2]; exact hfit
    · exact hp.sent.trans (List.prefix_append _ _)
    · exact hp.conn
    · rw [e3]; exact hpipe
    · rw [e4]; exact hp.unfd
    · rw [e6, e5]; exact hp.live
    · rw [e7]; exact hp.busy
    · rw [e3]; exact hp.fly
    · exact hp.whole
    · rw [e1, e3]
      refine ⟨j, hj.push _, fun hu hc ht => ?_⟩
      rw [hex hu hc ht, bytes_push, List.append_assoc, List.drop_append_of_le_length hj.le]

/-- the queue is freed and the slot with it, while nobody holds a chunk -/
theorem Sending.freed {p p' : Pipe} (hp : p.Sending) (hu : p'.st.used = false)
    (hoh : p'.st.oh = []) (hot : p'.st.ototal = 0) (hfd : p'.st.fd = none)
    (hs1 : p'.st.sid = p'.thread.sid) (hl : p'.st.fdLive = p.st.fdLive)
    (hfl : p'.st.flushing = p.st.flushing) (hd : p'.drain = p.drain)
    (hfly : p.drain.flies = false) (hpc : p'.thread.pc.flies = false)
    (hc : p'.conn = p.conn) (hconn : p'.thread.pc.ConnOk p.conn)
    (hpipe : p'.thread.pc.piping = false) (ha : p'.accepted = p.accepted)
    (hw : p'.wire = p.wire) : p'.Sending := by
  constructor
  · exact hs1
  · rw [hot, hoh]; rfl
  · rw [hot]; exact Nat.zero_le _
  · rw [ha, hw]; exact hp.sent
  · rw [hc]; exact hconn
  · rw [hpipe]; exact fun h => by cases h
  · rw [hd]
    refine fun _ => ⟨hfd, fun fd q off0 put freed he => ?_⟩
    rw [he] at hfly; cases hfly
  · rw [hd, hfl, hl]; exact hp.live
  · intro hs
    rw [Pc.flies_of_sends hs] at hpc; cases hpc
  · rw [hd, hfly]; exact fun h => by cases h
  · rw [hd]; exact fun _ => ⟨hpc, hfly⟩
  · refine ⟨0, .rest hpc (by rw [hd]; exact hfly), fun hu' => ?_⟩
    rw [hu] at hu'; cases hu'

/-- `dt_on_close` frees only a slot whose thread has not got to the wire -/
theorem close_outSide (st : DtStream) :
    (st.close.outSide = st.outSide ∧ st.close.state = st.state) ∨
      (st.state = .connecting ∧ st.fdLive = false ∧ st.close.used = false ∧ st.close.oh = [] ∧
        st.close.ototal = 0 ∧ st.close.fd = none ∧ st.close.sid = st.sid ∧
        st.close.fdLive = st.fdLive ∧ st.close.flushing = st.flushing) := by
  unfold DtStream.close
  dsimp only
  by_cases h1 : st.state = .connecting ∧ ¬ st.fdLive = true
  · have h2 : ¬ (st.state ≠ .connecting ∧ st.fdLive = true) := fun h => h.1 h1.1
    rw [if_neg h2, if_pos h1]
    exact Or.inr ⟨h1.1, Bool.eq_false_iff.mpr h1.2, rfl, rfl, rfl, rfl, rfl, rfl, rfl⟩
  · by_cases h2 : st.state ≠ .connecting ∧ st.fdLive = true
    · rw [if_pos h2, if_neg h1]; exact Or.inl ⟨rfl, rfl⟩
    · rw [if_neg h2, if_neg h1]; exact Or.inl ⟨rfl, rfl⟩

theorem Sending.close {p : Pipe} (hp : p.Sending) : Sending { p with
    st := p.st.close, drain := if p.st.close.used then p.drain else p.drain.free } := by
  have hidle : p.drain.free = p.drain ∨ p.drain.flies = true := by
    cases p.drain <;> first | exact Or.inl rfl | exact Or.inr rfl
  rcases close_outSide p.st with ⟨ho, hstate⟩ | ⟨hs, hl, hu, e1, e2, e3, e4, e5, e6⟩
  · have hd : (if p.st.close.used then p.drain else p.drain.free) = p.drain := by
      have hu : p.st.close.used = p.st.used := congrArg (fun v => v.2.2.1) ho
      rw [hu]
      rcases hidle with h | h
      · rw [h, ite_self]
      · rw [if_pos (hp.fly h)]
    rw [hd]
    refine hp.quiet ho rfl rfl rfl rfl rfl rfl (Or.inl rfl) hp.conn ?_
    show _ → _ ∧ p.st.close.state ≠ _
    rw [hstate]; exact hp.piping
  · have hdl : p.drain = .idle := by
      by_contra hno
      have := (hp.live hno).2
      rw [hl] at this; cases this
    have hpipe : ¬ p.thread.pc.piping = true := fun h => (hp.piping h).2 hs
    have hd : (if p.st.close.used then p.drain else p.drain.free) = p.drain := by
      rw [hdl]; exact ite_self _
    rw [hd]
    exact hp.freed hu e1 e2 e3 (e4.trans hp.sid) e5 e6 rfl (by rw [hdl]; rfl)
      (Pc.flies_of_not_piping hpipe) rfl hp.conn (Bool.eq_false_iff.mpr hpipe) rfl rfl

/-! ## the stream thread -/

/-- `Pc.ConnOk` of a place in or after the pipe, on a connection that is up -/
theorem connOk_up {pc : Pc} (h : pc.before = false) : pc.ConnOk .up := by
  refine ⟨fun hb => ?_, fun _ => rfl⟩
  rw [h] at hb; cases hb

theorem afterSend_places (rd : Bool) : (afterSend rd).flies = false ∧
    (afterSend rd).before = false := by
  cases rd <;> exact ⟨rfl, rfl⟩

theorem selected_places (wr rd : Bool) :
    (if wr then Pc.sendTop rd else afterSend rd).flies = false ∧
      (if wr then Pc.sendTop rd else afterSend rd).before = false := by
  cases wr <;> cases rd <;> exact ⟨rfl, rfl⟩

/-- a section of the thread in the pipe that holds nothing before and after -/
theorem Sending.piped {p : Pipe} {st' : DtStream} {t' : Thread} {x : Eff} (hp : p.Sending)
    (hpc : p.thread.pc.piping = true) (hf : p.thread.pc.flies = false)
    (ho : st'.outSide = p.st.outSide) (hs : st'.state = p.st.state ∨ st'.state = .dead)
    (hsid : t'.sid = p.thread.sid) (hf' : t'.pc.flies = false) (hb : t'.pc.before = false)
    (hx : x.wire = [] ∧ x.up = false ∧ x.down = false ∧ x.torn = false ∧ x.freed = false) :
    (p.afterThread st' t' x).Sending := by
  obtain ⟨x1, x2, x3, x4, x5⟩ := hx
  have hup : p.conn = .up := hp.conn.2 (Or.inl hpc)
  obtain ⟨hu, hst⟩ := hp.piping hpc
  refine hp.quiet ho hsid ?_ ?_ ?_ rfl ?_ (Or.inr ⟨hf, hf'⟩) ?_ fun _ => ⟨hu, ?_⟩
  · show (if x.freed = true then p.drain.free else p.drain) = p.drain
    rw [x5]; rfl
  · show (if x.up = true then Conn.up else if x.down = true then Conn.closed else p.conn) = p.conn
    rw [x2, x3]; rfl
  · show (p.torn || x.torn) = p.torn
    rw [x4, Bool.or_false]
  · show p.wire ++ x.wire = p.wire
    rw [x1, List.append_nil]
  · rw [hup]; exact connOk_up hb
  · show st'.state ≠ .connecting
    rcases hs with h | h
    · rw [h]; exact hst
    · rw [h]; simp

/-- the thread goes on before the pipe, or ends -/
theorem Sending.unpiped {p : Pipe} {st' : DtStream} {t' : Thread} (hp : p.Sending)
    (hpc : p.thread.pc.piping = false) (ho : st'.outSide = p.st.outSide)
    (hsid : t'.sid = p.thread.sid) (hpc' : t'.pc.piping = false)
    (hconn : t'.pc.ConnOk p.conn) : (p.afterThread st' t' {}).Sending := by
  refine hp.quiet ho hsid rfl rfl (Bool.or_false _) rfl (List.append_nil _)
    (Or.inr ⟨?_, ?_⟩) hconn fun h => ?_
  · exact Pc.flies_of_not_piping (Bool.eq_false_iff.mp hpc)
  · exact Pc.flies_of_not_piping (Bool.eq_false_iff.mp hpc')
  · have h' : t'.pc.piping = true := h
    rw [hpc'] at h'; cases h'

theorem connOk_before {pc : Pc} (h : pc.before = true) : pc.ConnOk .none := by
  refine ⟨fun _ => rfl, ?_⟩
  rintro (h' | rfl | rfl)
  · cases pc <;> first | (cases h; done) | cases h'
  · cases h
  · cases h

theorem connOk_done (c : Conn) : Pc.done.ConnOk c := by
  simp [Pc.ConnOk, Pc.before, Pc.piping]

/-- `DT_STOPEN` is out -/
theorem Sending.stopened {p : Pipe} (hp : p.Sending) (hpc : p.thread.pc = .stopen) (fd : Nat) :
    (p.afterThread (p.st.goLive p.thread.sid fd) ⟨p.thread.sid, .wait⟩
      { up := true }).Sending := by
  obtain ⟨st, hst, e1, e2, e3, e4, e5, e6, e7⟩ : ∃ st, st = p.st.goLive p.thread.sid fd ∧
      st.oh = p.st.oh ∧ st.ototal = p.st.ototal ∧ st.used = p.st.used ∧
      st.flushing = p.st.flushing ∧ st.sid = p.st.sid ∧
      (p.st.fdLive = true → st.fdLive = true) ∧ p.drain.flies = p.drain.flies := by
    refine ⟨_, rfl, ?_⟩
    unfold DtStream.goLive
    split_ifs <;> exact ⟨rfl, rfl, rfl, rfl, rfl, fun h => by first | rfl | exact h, rfl⟩
  rw [← hst]
  have hnone : p.conn = .none := hp.conn.1 (by rw [hpc]; rfl)
  obtain ⟨j, hj, hex⟩ := hp.held
  constructor <;> dsimp only [afterThread]
  · rw [e5]; exact hp.sid
  · rw [e1, e2]; exact hp.total
  · rw [e2]; exact hp.cap
  · rw [List.append_nil]; exact hp.sent
  · exact connOk_up rfl
  · exact fun h => by cases h
  · exact fun h => by cases h
  · intro hd
    obtain ⟨h1, h2⟩ := hp.live hd
    exact ⟨e4.trans h1, e6 h2⟩
  · exact fun h => by cases h
  · rw [e3]; exact hp.fly
  · rw [Bool.or_false]
    exact fun h => ⟨rfl, (hp.whole h).2⟩
  · rw [e1, e3, List.append_nil, Bool.or_false]
    refine ⟨j, hj.move (by rw [hpc]; rfl) rfl, fun hu _ ht => hex hu ?_ ht⟩
    rw [hnone]; simp

/-- A section of the thread on the running connection that changes nothing of the slot but `sending`:
it is told by what the thread holds of the front chunk and by what it puts on the wire. -/
theorem Sending.pump {p : Pipe} (hp : p.Sending) (hpp : p.thread.pc.piping = true) (sending : Bool)
    {pc : Pc} {w : List Byte} {torn : Bool} (hb : pc.before = false)
    (hbusy : pc.sends = true → sending = true) (hsent : p.wire ++ w <+: p.accepted)
    (hwhole : (p.torn || torn) = true → pc.flies = false ∧ p.drain.flies = false)
    (hheld : ∃ j, Held p.st.oh pc p.drain j ∧
      (p.st.used = true → p.conn ≠ .closed → (p.torn || torn) = false →
        p.accepted = p.wire ++ w ++ (bytes p.st.oh).drop j)) :
    (p.afterThread { p.st with sending := sending } ⟨p.thread.sid, pc⟩
      { wire := w, torn := torn }).Sending where
  sid := hp.sid
  total := hp.total
  cap := hp.cap
  sent := hsent
  conn := by
    show pc.ConnOk p.conn
    rw [hp.conn.2 (Or.inl hpp)]
    exact connOk_up hb
  piping := fun _ => hp.piping hpp
  unfd := hp.unfd
  live := hp.live
  busy := hbusy
  fly := hp.fly
  whole := hwhole
  held := hheld

/-- a thread that holds the front chunk has torn none -/
theorem Sending.untorn {p : Pipe} (hp : p.Sending) (hf : p.thread.pc.flies = true) :
    p.torn = false := by
  cases ht : p.torn with
  | false => rfl
  | true =>
    have hno := (hp.whole ht).1
    rw [hf] at hno
    cases hno

/-- the send loop takes the front chunk: the exit drain is not at work -/
theorem Sending.take {p : Pipe} {rd : Bool} {c : List Byte} (hp : p.Sending)
    (hpc : p.thread.pc = .sendTop rd) (hf : ¬ p.st.flushing = true) (hc : p.st.front = some c)
    (ok : p.SendOk (.thread .take)) :
    (p.afterThread { p.st with sending := true } ⟨p.thread.sid, .sendFly rd c⟩ {}).Sending := by
  have hidle : p.drain = .idle := by
    by_contra hno
    exact hf (hp.live hno).1
  cases hoh : p.st.oh with
  | nil => simp [DtStream.front, hoh] at hc
  | cons d q =>
    have hcd : d.rest = c := by
      rw [DtStream.front, hoh] at hc
      exact Option.some.inj hc
    have ht : p.torn = false := ok (Bool.eq_false_iff.mpr hf) (by rw [hoh]; simp)
    obtain ⟨j, hj, hex⟩ := hp.held
    have hj0 : j = 0 := by
      rw [hpc, hidle, hoh] at hj
      cases hj
      rfl
    refine hp.pump (by rw [hpc]; rfl) true rfl (fun _ => rfl) ?_ ?_ ?_
    · rw [List.append_nil]; exact hp.sent
    · rw [ht]; exact nofun
    · rw [hoh, ← hcd, List.append_nil, Bool.or_false]
      refine ⟨0, .sendFly (by rw [hidle]; rfl), fun hu hcl ht => ?_⟩
      have := hex hu hcl ht
      rw [hj0, hoh] at this
      exact this

/-- what the send loop has put on the wire leaves the queue -/
theorem sent_outSide {st : DtStream} {sid k : Nat} {c : Chunk Byte} {q : List (Chunk Byte)}
    (hm : st.mine sid = true) (hoh : st.oh = c :: q) :
    (st.sent sid k).outSide = { st with
      oh := advance st.oh k, ototal := subSize st.ototal k, sending := false : DtStream }.outSide ∧
    (st.sent sid k).state = st.state := by
  have hm' : ({ st with sending := false } : DtStream).mine sid = true := hm
  have hne : ({ st with sending := false } : DtStream).oh ≠ [] := by
    show st.oh ≠ []
    rw [hoh]; simp
  unfold DtStream.sent
  dsimp only
  rw [if_pos ⟨hm', hne⟩]
  constructor <;> (split_ifs <;> rfl)

theorem subSize_total {p : Pipe} (hp : p.Sending) {k : Nat} (hk : k ≤ (bytes p.st.oh).length) :
    subSize p.st.ototal k = p.st.ototal - k := by
  have h1 := hp.cap
  have h2 : DT_ST_MAXOUT = 262144 := rfl
  exact subSize_eq _ _ (by rw [hp.total]; exact hk) (by omega)

/-- the slot is the thread's as long as it is used -/
theorem Sending.mine {p : Pipe} (hp : p.Sending) (hpc : p.thread.pc.piping = true) :
    p.st.mine p.thread.sid = true := by
  simp [DtStream.mine, (hp.piping hpc).1, hp.sid]

/-- `k` more bytes of the front chunk go out -/
theorem drop_split {p : Pipe} {c : Chunk Byte} {q : List (Chunk Byte)} {j k : Nat}
    (hacc : p.accepted = p.wire ++ (bytes p.st.oh).drop j) (hoh : p.st.oh = c :: q)
    (hj : j ≤ c.rest.length) (hk : k ≤ (c.rest.drop j).length) :
    p.accepted = (p.wire ++ (c.rest.drop j).take k) ++ (bytes p.st.oh).drop (j + k) := by
  rw [List.length_drop] at hk
  rw [hacc, hoh, bytes_cons, List.drop_append_of_le_length hj,
    List.drop_append_of_le_length (by omega), List.append_assoc,
    ← List.append_assoc ((c.rest.drop j).take k), ← List.drop_drop, List.take_append_drop]

/-- the send loop's send took `k` bytes -/
theorem Sending.push {p : Pipe} {rd : Bool} {c : List Byte} {k : Nat} (hp : p.Sending)
    (hpc : p.thread.pc = .sendFly rd c) (hk : k ≤ c.length) :
    (p.afterThread p.st ⟨p.thread.sid, .sentFly rd k⟩ { wire := c.take k }).Sending := by
  have hup : p.conn = .up := hp.conn.2 (Or.inl (by rw [hpc]; rfl))
  have hu := (hp.piping (by rw [hpc]; rfl)).1
  obtain ⟨j, hj, hex⟩ := hp.held
  have ht := hp.untorn (by rw [hpc]; rfl)
  rw [hpc] at hj
  obtain ⟨c, q, hoh, rfl, rfl, hd⟩ := hj.of_sendFly
  have hsplit := drop_split (hex hu (by rw [hup]; simp) ht) hoh (Nat.zero_le _) hk
  rw [List.drop_zero, Nat.zero_add] at hsplit
  refine hp.pump (by rw [hpc]; rfl) p.st.sending rfl (fun _ => hp.busy (by rw [hpc]; rfl)) ?_ ?_ ?_
  · rw [hsplit]; exact List.prefix_append _ _
  · rw [ht]; exact nofun
  · rw [hoh]
    refine ⟨k, .sentFly hd hk, fun _ _ _ => ?_⟩
    rw [← hoh]; exact hsplit

/-- the bytes that are out leave the queue -/
theorem Sending.commit {p : Pipe} {rd : Bool} {k : Nat} (hp : p.Sending)
    (hpc : p.thread.pc = .sentFly rd k) :
    (p.afterThread (p.st.sent p.thread.sid k) ⟨p.thread.sid, .sendTop rd⟩
      { freed := p.st.mine p.thread.sid }).Sending := by
  have hpp : p.thread.pc.piping = true := by rw [hpc]; rfl
  have hup : p.conn = .up := hp.conn.2 (Or.inl hpp)
  obtain ⟨hu, hst⟩ := hp.piping hpp
  obtain ⟨j, hj, hex⟩ := hp.held
  have hm := hp.mine hpp
  have hle := hj.le
  rw [hpc] at hj
  obtain ⟨c, q, hoh, hk, rfl, hd⟩ := hj.of_sentFly
  obtain ⟨ho, hstate⟩ := sent_outSide (k := k) hm hoh
  simp only [DtStream.outSide, Prod.mk.injEq] at ho
  obtain ⟨e1, e2, e3, e4, e5, e6, e7, e8⟩ := ho
  have hbytes : bytes (p.st.sent p.thread.sid k).oh = (bytes p.st.oh).drop k := by
    rw [e1, hoh, bytes_advance c q k hk]
  have hot : (p.st.sent p.thread.sid k).ototal = p.st.ototal - k := by
    rw [e2, subSize_total hp hle]
  have hfree : p.drain.free = p.drain := by
    cases hdr : p.drain <;> first | rfl | (rw [hdr] at hd; cases hd)
  constructor <;> dsimp only [afterThread]
  · rw [e8]; exact hp.sid
  · rw [hot, hbytes, List.length_drop, hp.total]
  · rw [hot]; exact Nat.le_trans (Nat.sub_le _ _) hp.cap
  · rw [List.append_nil]; exact hp.sent
  · rw [hup]; exact connOk_up rfl
  · rw [e3, hstate]; exact fun _ => ⟨hu, hst⟩
  · rw [hup]; exact fun h => by cases h
  · rw [e6, e5, hfree, ite_self]; exact hp.live
  · exact fun h => by cases h
  · rw [e3]; exact fun _ => hu
  · rw [Bool.or_false, hfree, ite_self]; exact fun _ => ⟨rfl, hd⟩
  · rw [hfree, ite_self, e3, List.append_nil, Bool.or_false]
    refine ⟨0, .rest rfl (by exact hd), fun hu _ ht => ?_⟩
    rw [hbytes, List.drop_zero]
    exact hex hu (by rw [hup]; simp) ht

/-- the send loop's send took nothing -/
theorem Sending.again {p : Pipe} {rd : Bool} {c : List Byte} (hp : p.Sending)
    (hpc : p.thread.pc = .sendFly rd c) :
    (p.afterThread { p.st with sending := false } ⟨p.thread.sid, afterSend rd⟩ {}).Sending := by
  obtain ⟨hf, hb⟩ := afterSend_places rd
  obtain ⟨j, hj, hex⟩ := hp.held
  rw [hpc] at hj
  obtain ⟨c, q, -, -, rfl, hd⟩ := hj.of_sendFly
  refine hp.pump (by rw [hpc]; rfl) false hb (fun hs => ?_) ?_ (fun _ => ⟨hf, hd⟩) ?_
  · rw [Pc.flies_of_sends hs] at hf; cases hf
  · rw [List.append_nil]; exact hp.sent
  · rw [List.append_nil, Bool.or_false]
    exact ⟨0, .rest hf hd, hex⟩

/-- the close drain takes the front chunk -/
theorem Sending.drainTake {p : Pipe} {c : List Byte} (hp : p.Sending)
    (hpc : p.thread.pc = .drainTop) (hc : p.st.front = some c)
    (ok : p.SendOk (.thread .drainTake)) :
    (p.afterThread p.st ⟨p.thread.sid, .drainFly c false⟩ {}).Sending := by
  have hpp : p.thread.pc.piping = true := by rw [hpc]; rfl
  cases hoh : p.st.oh with
  | nil => simp [DtStream.front, hoh] at hc
  | cons d q =>
    have hcd : d.rest = c := by
      rw [DtStream.front, hoh] at hc
      exact Option.some.inj hc
    obtain ⟨ht, hd⟩ := ok (by rw [hoh]; simp)
    obtain ⟨j, hj, hex⟩ := hp.held
    rw [hpc, hoh] at hj
    generalize hdr : p.drain = e at hj
    cases hj with
    | fly => rw [hdr] at hd; cases hd
    | rest =>
      refine hp.pump hpp p.st.sending rfl nofun ?_ ?_ ?_
      · rw [List.append_nil]; exact hp.sent
      · rw [ht]; exact nofun
      · rw [List.append_nil, Bool.or_false, hoh, ← hcd]
        rw [hoh] at hex
        exact ⟨0, .drainFly hd (Nat.zero_le _) (fun _ => rfl), hex⟩

/-- the close drain's send took `k` more bytes -/
theorem Sending.drainPush {p : Pipe} {c : List Byte} {put : Bool} {k : Nat} (hp : p.Sending)
    (hpc : p.thread.pc = .drainFly c put) (hk : k ≤ c.length) :
    (p.afterThread p.st ⟨p.thread.sid, .drainFly (c.drop k) true⟩
      { wire := c.take k }).Sending := by
  have hpp : p.thread.pc.piping = true := by rw [hpc]; rfl
  have hup : p.conn = .up := hp.conn.2 (Or.inl hpp)
  have hu := (hp.piping hpp).1
  obtain ⟨j, hj, hex⟩ := hp.held
  have ht := hp.untorn (by rw [hpc]; rfl)
  rw [hpc] at hj
  obtain ⟨c, q, hoh, rfl, hjl, hput, hd⟩ := hj.of_drainFly
  have hsplit := drop_split (hex hu (by rw [hup]; simp) ht) hoh hjl hk
  rw [List.length_drop] at hk
  refine hp.pump hpp p.st.sending rfl nofun ?_ ?_ ?_
  · rw [hsplit]; exact List.prefix_append _ _
  · rw [ht]; exact nofun
  · rw [hoh, List.drop_drop]
    refine ⟨j + k, .drainFly hd (by omega) (fun h => by cases h), fun _ _ _ => ?_⟩
    rw [← hoh]; exact hsplit

/-- the close drain gives up; if part of the chunk is out, the chunk is torn -/
theorem Sending.drainFail {p : Pipe} {c : List Byte} {put : Bool} (hp : p.Sending)
    (hpc : p.thread.pc = .drainFly c put) :
    (p.afterThread p.st ⟨p.thread.sid, .tail⟩ { torn := put }).Sending := by
  obtain ⟨j, hj, hex⟩ := hp.held
  rw [hpc] at hj
  obtain ⟨c, q, hoh, rfl, hjl, hput, hd⟩ := hj.of_drainFly
  refine hp.pump (by rw [hpc]; rfl) p.st.sending rfl nofun ?_ (fun _ => ⟨rfl, hd⟩) ?_
  · rw [List.append_nil]; exact hp.sent
  · rw [List.append_nil]
    refine ⟨0, .rest rfl hd, fun hu hc ht => ?_⟩
    obtain ⟨ht, hnot⟩ := Bool.or_eq_false_iff.mp ht
    have := hex hu hc ht
    rw [hput hnot] at this
    exact this

/-- the drain has sent the chunk at the front -/
theorem drained_outSide {st : DtStream} {sid : Nat} {c : Chunk Byte} {q : List (Chunk Byte)}
    (hm : st.mine sid = true) (hoh : st.oh = c :: q) :
    st.drained sid = { st with oh := q, ototal := subSize st.ototal c.rest.length } := by
  unfold DtStream.drained
  rw [if_pos hm, hoh, Chunk.length_rest]

theorem Sending.drainOk {p : Pipe} {put : Bool} (hp : p.Sending)
    (hpc : p.thread.pc = .drainFly [] put) :
    (p.afterThread (p.st.drained p.thread.sid) ⟨p.thread.sid, .drainTop⟩ {}).Sending := by
  have hpp : p.thread.pc.piping = true := by rw [hpc]; rfl
  have hup : p.conn = .up := hp.conn.2 (Or.inl hpp)
  obtain ⟨hu, hst⟩ := hp.piping hpp
  obtain ⟨j, hj, hex⟩ := hp.held
  have hm := hp.mine hpp
  rw [hpc] at hj
  obtain ⟨c, q, hoh, hnil, hjl, hput, hd⟩ := hj.of_drainFly
  have hjn : j = c.rest.length := by
    have := congrArg List.length hnil
    rw [List.length_drop] at this
    have h0 : ([] : List Byte).length = 0 := rfl
    omega
  have hlen : (bytes p.st.oh).length = c.rest.length + (bytes q).length := by
    rw [hoh, bytes_cons, List.length_append]
  have hot : subSize p.st.ototal c.rest.length = (bytes q).length := by
    rw [subSize_total hp (by omega), hp.total, hlen]; omega
  rw [drained_outSide hm hoh, hot]
  constructor <;> dsimp only [afterThread]
  · exact hp.sid
  · have := hp.cap
    rw [hp.total, hlen] at this
    omega
  · rw [List.append_nil]; exact hp.sent
  · rw [hup]; exact connOk_up rfl
  · exact fun _ => ⟨hu, hst⟩
  · exact hp.unfd
  · exact hp.live
  · exact fun h => by cases h
  · exact hp.fly
  · exact fun _ => ⟨rfl, hd⟩
  · rw [List.append_nil, Bool.or_false]
    refine ⟨0, .rest rfl hd, fun hu hc ht => ?_⟩
    rw [hex hu hc ht, hoh, hjn, bytes_cons, List.drop_left, List.drop_zero]

/-- the tail -/
theorem Sending.retire {p : Pipe} (hp : p.Sending) (hpc : p.thread.pc = .tail)
    (ok : p.SendOk (.thread .retire)) :
    (p.afterThread (p.st.retire p.thread.sid) ⟨p.thread.sid, .closing⟩
      { freed := p.st.mine p.thread.sid && (p.st.dead || p.st.wrShut) }).Sending := by
  have hpp : p.thread.pc.piping = true := by rw [hpc]; rfl
  have hup : p.conn = .up := hp.conn.2 (Or.inl hpp)
  have hm := hp.mine hpp
  by_cases hdone : p.st.dead = true ∨ p.st.wrShut = true
  · have hd := ok hdone
    have hfree : p.drain.free = p.drain := by
      cases hdr : p.drain <;> first | rfl | (rw [hdr] at hd; cases hd)
    have hr := DtStream.retire_done hm hdone
    refine hp.freed ?_ ?_ ?_ ?_ ?_ ?_ ?_ ?_ hd rfl ?_ ?_ rfl rfl ?_
    · show (p.st.retire p.thread.sid).used = false
      rw [hr]; rfl
    · show (p.st.retire p.thread.sid).oh = []
      rw [hr]; rfl
    · show (p.st.retire p.thread.sid).ototal = 0
      rw [hr]; rfl
    · show (p.st.retire p.thread.sid).fd = none
      rw [hr]; rfl
    · show (p.st.retire p.thread.sid).sid = p.thread.sid
      rw [hr]; exact hp.sid
    · show (p.st.retire p.thread.sid).fdLive = p.st.fdLive
      rw [hr]; rfl
    · show (p.st.retire p.thread.sid).flushing = p.st.flushing
      rw [hr]; rfl
    · show (if _ then p.drain.free else p.drain) = p.drain
      rw [hfree, ite_self]
    · rfl
    · rw [hup]; exact connOk_up rfl
    · exact List.append_nil _
  · have hr := DtStream.retire_open hm hdone
    have hx : (p.st.mine p.thread.sid && (p.st.dead || p.st.wrShut)) = false := by
      rw [hm, Bool.true_and]
      simpa using hdone
    rw [hr, hx]
    exact hp.piped hpp (by rw [hpc]; rfl) rfl (Or.inr rfl) rfl rfl rfl ⟨rfl, rfl, rfl, rfl, rfl⟩

/-- the relay connection is closed -/
theorem Sending.closeFd {p : Pipe} (hp : p.Sending) (hpc : p.thread.pc = .closing) :
    (p.afterThread p.st ⟨p.thread.sid, .done⟩ { down := true }).Sending := by
  obtain ⟨j, hj, hex⟩ := hp.held
  constructor <;> dsimp only [afterThread]
  · exact hp.sid
  · exact hp.total
  · exact hp.cap
  · rw [List.append_nil]; exact hp.sent
  · exact connOk_done _
  · exact fun h => by cases h
  · exact fun h => by cases h
  · exact hp.live
  · exact fun h => by cases h
  · exact hp.fly
  · rw [Bool.or_false]
    exact fun h => ⟨rfl, (hp.whole h).2⟩
  · exact ⟨j, hj.move (by rw [hpc]; rfl) rfl, fun _ hc => absurd rfl hc⟩

/-- an abandoned stream is freed at its verdict -/
theorem Sending.detached {p : Pipe} {type : Nat} {rp : List Byte} (hp : p.Sending)
    (hpc : p.thread.pc = .wait) (hd : p.drain.flies = false) :
    (p.afterThread p.st.freeDetached ⟨p.thread.sid, .closing⟩
      { freed := true, vfail := vfailOf p.thread.sid type rp }).Sending := by
  have hup : p.conn = .up := hp.conn.2 (Or.inr (Or.inl hpc))
  have hfree : p.drain.free = p.drain := by
    cases hdr : p.drain <;> first | rfl | (rw [hdr] at hd; cases hd)
  refine hp.freed rfl rfl rfl rfl hp.sid rfl rfl ?_ hd rfl rfl ?_ rfl rfl (List.append_nil _)
  · show (if true = true then p.drain.free else p.drain) = p.drain
    rw [hfree, ite_self]
  · rw [hup]; exact connOk_up rfl

/-- the stream is confirmed: the pipe begins -/
theorem Sending.opened {p : Pipe} {type : Nat} {rp : List Byte} (hp : p.Sending)
    (hpc : p.thread.pc = .wait) (hm : p.st.mine p.thread.sid = true)
    (hok : DtStream.isStok p.thread.sid type rp = true) :
    (p.afterThread (p.st.verdict p.thread.sid type rp) ⟨p.thread.sid, .top⟩ {}).Sending := by
  have hup : p.conn = .up := hp.conn.2 (Or.inr (Or.inl hpc))
  refine hp.quiet (p.st.verdict_outSide _ _ _) rfl rfl rfl (Bool.or_false _) rfl
    (List.append_nil _) (Or.inr ⟨by rw [hpc]; rfl, rfl⟩) ?_ fun _ => ⟨?_, ?_⟩
  · rw [hup]; exact connOk_up rfl
  · unfold DtStream.mine at hm
    exact (Bool.and_eq_true_iff.mp hm).1
  · show (p.st.verdict p.thread.sid type rp).state ≠ .connecting
    unfold DtStream.verdict
    rw [if_pos hok]
    simp

theorem Sending.thread {p p' : Pipe} {e : Ev} (hp : p.Sending) (ok : p.SendOk (.thread e))
    (h : p.step (.thread e) = some p') : p'.Sending := by
  obtain ⟨⟨st', ⟨sid', pc'⟩, x⟩, hstep, rfl⟩ := Option.map_eq_some_iff.mp h
  obtain ⟨rfl, hsec⟩ := Thread.step_section hstep
  have hconn := hp.conn
  generalize hpc : p.thread.pc = pc at hsec hconn
  dsimp only at hsec ⊢
  cases hsec with
  | dialed =>
    refine hp.unpiped (by rw [hpc]; rfl) rfl rfl rfl ?_
    rw [hconn.1 rfl]; exact connOk_before rfl
  | dialFailed =>
    exact hp.unpiped (by rw [hpc]; rfl) (p.st.failLocal_outSide _) rfl rfl (connOk_done _)
  | aborted hab => exact hp.unpiped (by rw [hpc]; rfl) rfl rfl rfl (connOk_done _)
  | goesOn hab =>
    refine hp.unpiped (by rw [hpc]; rfl) rfl rfl rfl ?_
    rw [hconn.1 rfl]; exact connOk_before rfl
  | stopened fd => exact hp.stopened hpc fd
  | stopenFailed fd =>
    exact hp.unpiped (by rw [hpc]; rfl) (p.st.failLocal_outSide _) rfl rfl (connOk_done _)
  | died =>
    refine hp.unpiped (by rw [hpc]; rfl) (p.st.died_outSide _) rfl rfl ?_
    rw [hconn.2 (Or.inr (Or.inl rfl))]; exact connOk_up rfl
  | detached type rp hm hg => exact hp.detached hpc (ok hg)
  | opened type rp hm hg hok => exact hp.opened hpc hm hok
  | refused type rp hm hg hok =>
    refine hp.unpiped (by rw [hpc]; rfl) (p.st.verdict_outSide _ _ _) rfl rfl ?_
    rw [hconn.2 (Or.inr (Or.inl rfl))]; exact connOk_up rfl
  | gone type rp hm =>
    refine hp.unpiped (by rw [hpc]; rfl) rfl rfl rfl ?_
    rw [hconn.2 (Or.inr (Or.inl rfl))]; exact connOk_up rfl
  | headDead hd =>
    exact hp.piped (by rw [hpc]; rfl) (by rw [hpc]; rfl) (p.st.atHead_outSide _)
      (Or.inl (p.st.atHead_state _)) rfl rfl rfl ⟨rfl, rfl, rfl, rfl, rfl⟩
  | headLive hd =>
    exact hp.piped (by rw [hpc]; rfl) (by rw [hpc]; rfl) (p.st.atHead_outSide _)
      (Or.inl (p.st.atHead_state _)) rfl rfl rfl ⟨rfl, rfl, rfl, rfl, rfl⟩
  | leaveTop | leaveSelect | recvAgain | drainNone =>
    exact hp.piped (by rw [hpc]; rfl) (by rw [hpc]; rfl) rfl (Or.inl rfl) rfl rfl rfl
      ⟨rfl, rfl, rfl, rfl, rfl⟩
  | selected o r wr rd hs =>
    obtain ⟨hf, hb⟩ := selected_places wr rd
    exact hp.piped (by rw [hpc]; rfl) (by rw [hpc]; rfl) rfl (Or.inl rfl) rfl hf hb
      ⟨rfl, rfl, rfl, rfl, rfl⟩
  | takeNone rd =>
    obtain ⟨hf, hb⟩ := afterSend_places rd
    exact hp.piped (by rw [hpc]; rfl) (by rw [hpc]; rfl) rfl (Or.inl rfl) rfl hf hb
      ⟨rfl, rfl, rfl, rfl, rfl⟩
  | take rd c hm hf hc hne => exact hp.take hpc hf hc ok
  | push rd c k h0 hk => exact hp.push hpc hk
  | again rd c => exact hp.again hpc
  | commit rd k => exact hp.commit hpc
  | recvErr =>
    refine hp.piped (by rw [hpc]; rfl) (by rw [hpc]; rfl) (p.st.hardErr_outSide _) ?_ rfl rfl rfl
      ⟨rfl, rfl, rfl, rfl, rfl⟩
    unfold DtStream.hardErr
    split_ifs
    · exact Or.inr rfl
    · exact Or.inl rfl
  | recvFin =>
    refine hp.piped (by rw [hpc]; rfl) (by rw [hpc]; rfl) (p.st.fin_outSide _) (Or.inl ?_) rfl rfl
      rfl ⟨rfl, rfl, rfl, rfl, rfl⟩
    unfold DtStream.fin
    split_ifs <;> rfl
  | recv buf h0 hle =>
    refine hp.piped (by rw [hpc]; rfl) (by rw [hpc]; rfl) (p.st.queued_outSide _ _) (Or.inl ?_)
      rfl rfl rfl ⟨rfl, rfl, rfl, rfl, rfl⟩
    unfold DtStream.queued
    split_ifs <;> rfl
  | drainTake c hm hl hc hne => exact hp.drainTake hpc hc ok
  | drainPush c put k h0 hk => exact hp.drainPush hpc hk
  | drainFail c put hne => exact hp.drainFail hpc
  | drainOk put => exact hp.drainOk hpc
  | retire => exact hp.retire hpc ok
  | closeFd => exact hp.closeFd hpc

/-! ## the exit drain -/

/-- the exit drain goes on without holding a chunk -/
theorem Sending.drainQuiet {p : Pipe} {st' : DtStream} {d' : DrainPc} (hp : p.Sending)
    (ho : st'.oh = p.st.oh ∧ st'.ototal = p.st.ototal ∧ st'.used = p.st.used ∧
      st'.fd = p.st.fd ∧ st'.sid = p.st.sid ∧ st'.state = p.st.state ∧
      st'.sending = p.st.sending)
    (hl : d' ≠ .idle → st'.flushing = true ∧ st'.fdLive = true)
    (hd : p.drain.flies = false) (hd' : d'.flies = false) :
    (p.afterDrain st' d' {}).Sending := by
  obtain ⟨e1, e2, e3, e4, e5, e6, e7⟩ := ho
  obtain ⟨j, hj, hex⟩ := hp.held
  constructor <;> dsimp only [afterDrain]
  · rw [e5]; exact hp.sid
  · rw [e1, e2]; exact hp.total
  · rw [e2]; exact hp.cap
  · rw [List.append_nil, ite_self]; exact hp.sent
  · exact hp.conn
  · rw [e3, e6]; exact hp.piping
  · rw [e4]
    refine fun hc => ⟨(hp.unfd hc).1, fun fd q off0 put freed he => ?_⟩
    rw [he] at hd'; cases hd'
  · exact hl
  · rw [e7]; exact hp.busy
  · rw [hd']; exact fun h => by cases h
  · rw [Bool.or_false]
    exact fun h => ⟨(hp.whole h).1, hd'⟩
  · rw [e1, e3, List.append_nil, ite_self, Bool.or_false]
    exact ⟨j, hj.moveDrain hd hd', hex⟩

/-- A section of the exit drain at its work that changes nothing of the slot but `sending`: it is told
by what the drain holds of the front chunk and by what it puts on the wire. -/
theorem Sending.exitMove {p : Pipe} (hp : p.Sending) (hidle : p.drain ≠ .idle) (sending : Bool)
    {d' : DrainPc} {w : List Byte} {torn : Bool}
    (hunfd : p.conn = .none → ∀ fd q off0 put freed, d' = .fly fd q off0 put freed → fd = none)
    (hbusy : p.thread.pc.sends = true → sending = true)
    (hfly : d'.flies = true → p.st.used = true)
    (hsent : (if p.conn = .up then p.wire ++ w else p.wire) <+: p.accepted)
    (hwhole : (p.torn || torn) = true → p.thread.pc.flies = false ∧ d'.flies = false)
    (hheld : ∃ j, Held p.st.oh p.thread.pc d' j ∧
      (p.st.used = true → p.conn ≠ .closed → (p.torn || torn) = false →
        p.accepted = (if p.conn = .up then p.wire ++ w else p.wire) ++ (bytes p.st.oh).drop j)) :
    (p.afterDrain { p.st with sending := sending } d' { wire := w, torn := torn }).Sending where
  sid := hp.sid
  total := hp.total
  cap := hp.cap
  sent := hsent
  conn := hp.conn
  piping := hp.piping
  unfd := fun hc => ⟨(hp.unfd hc).1, hunfd hc⟩
  live := fun _ => hp.live hidle
  busy := hbusy
  fly := hfly
  whole := hwhole
  held := hheld

/-- the exit drain takes the front chunk: no send loop has it -/
theorem Sending.exitTake {p : Pipe} {c : List Byte} (hp : p.Sending) (hdr : p.drain = .claimed)
    (hu : p.st.used = true) (hs : ¬ p.st.sending = true) (hc : p.st.front = some c)
    (hne : c ≠ []) (ok : p.SendOk (.drain .take)) :
    (p.afterDrain { p.st with sending := true }
      (.fly p.st.fd c (p.st.oh.head?.elim 0 Chunk.off) false false) {}).Sending := by
  cases hoh : p.st.oh with
  | nil => simp [DtStream.front, hoh] at hc
  | cons d q =>
    have hcd : d.rest = c := by
      rw [DtStream.front, hoh] at hc
      exact Option.some.inj hc
    obtain ⟨ht, hsends⟩ := ok (Bool.eq_false_iff.mpr hs) (by rw [hoh]; simp)
    have hpc : p.thread.pc.flies = false := by
      by_contra hno
      exact hs (hp.busy (hsends (by simpa using hno)))
    have hoff : d.off < d.n := by
      have : c.length ≠ 0 := fun h => hne (List.eq_nil_of_length_eq_zero h)
      rw [← hcd, Chunk.length_rest] at this
      omega
    obtain ⟨j, hj, hex⟩ := hp.held
    have hj0 : j = 0 := by
      rw [hoh, hdr] at hj
      generalize p.thread.pc = pc at hj hpc
      cases hj with
      | rest => rfl
      | sendFly | sentFly | drainFly => cases hpc
    refine hp.exitMove (by rw [hdr]; simp) true (fun hcn fd q off0 put freed he => ?_)
      (fun _ => rfl) (fun _ => hu) ?_ ?_ ?_
    · cases he
      exact (hp.unfd hcn).1
    · rw [List.append_nil, ite_self]; exact hp.sent
    · rw [ht]; exact nofun
    · rw [List.append_nil, ite_self, Bool.or_false, hoh, ← hcd]
      rw [hj0, hoh] at hex
      exact ⟨0, .fly (j := 0) hpc hoff (Nat.zero_le _) (fun _ => rfl), hex⟩

/-- the exit drain's send took `k` more bytes -/
theorem Sending.exitPush {p : Pipe} {fd off0 : Nat} {c : List Byte} {put freed : Bool}
    {bs : List Byte} (hp : p.Sending) (hdr : p.drain = .fly (some fd) c off0 put freed)
    (hle : bs.length ≤ c.length) (hb : freed = true ∨ bs = c.take bs.length) :
    (p.afterDrain p.st (.fly (some fd) (c.drop bs.length) off0 true freed)
      { wire := bs }).Sending := by
  have hu : p.st.used = true := hp.fly (by rw [hdr]; rfl)
  have hcn : p.conn ≠ .none := by
    intro h
    have := (hp.unfd h).2 _ _ _ _ _ hdr
    cases this
  have ht : p.torn = false := by
    cases ht : p.torn with
    | false => rfl
    | true =>
      have := (hp.whole ht).2
      rw [hdr] at this; cases this
  obtain ⟨j, hj, hex⟩ := hp.held
  rw [hdr] at hj
  obtain ⟨d, q, hoh, rfl, rfl, hoff, hjl, hput, rfl, hpc⟩ := hj.of_fly
  have hbs : bs = (d.rest.drop j).take bs.length := by
    rcases hb with h | h
    · cases h
    · exact h
  have hsplit : p.conn = .up →
      p.accepted = (p.wire ++ bs) ++ (bytes p.st.oh).drop (j + bs.length) := by
    intro hup
    have := drop_split (hex hu (by rw [hup]; simp) ht) hoh hjl hle
    rw [← hbs] at this
    exact this
  rw [List.length_drop] at hle
  refine hp.exitMove (by rw [hdr]; simp) p.st.sending (fun h => absurd h hcn) hp.busy (fun _ => hu)
    ?_ ?_ ?_
  · by_cases hup : p.conn = .up
    · rw [if_pos hup, hsplit hup]; exact List.prefix_append _ _
    · rw [if_neg hup]; exact hp.sent
  · rw [ht]; exact nofun
  · rw [hoh, List.drop_drop]
    refine ⟨j + bs.length, .fly hpc hoff (by omega) (fun h => by cases h), fun _ hcl _ => ?_⟩
    have hup : p.conn = .up := by
      cases hc : p.conn with
      | none => exact absurd hc hcn
      | up => rfl
      | closed => exact absurd hc hcl
    rw [if_pos hup, ← hoh]
    exact hsplit hup

theorem flushed_outSide {st : DtStream} {c : Chunk Byte} {q : List (Chunk Byte)}
    (hu : st.used = true) (hoh : st.oh = c :: q) (hc : c.off < c.n)
    (hn : c.rest.length < 2 ^ 64) :
    st.flushed c.off = { st with
      oh := q, ototal := subSize st.ototal c.rest.length, sending := false } := by
  rw [Chunk.length_rest] at hn
  have hs := subSize_eq c.n c.off (Nat.le_of_lt hc) hn
  unfold DtStream.flushed
  dsimp only
  rw [if_pos hu, hoh]
  dsimp only
  rw [Chunk.length_rest, hs]

/-- the exit drain has sent the chunk at the front -/
theorem Sending.exitOk {p : Pipe} {fd : Option Nat} {off0 : Nat} {put freed : Bool} (hp : p.Sending)
    (hdr : p.drain = .fly fd [] off0 put freed) (more : Bool) :
    (p.afterDrain (p.st.flushed off0) (if more then .claimed else .leaving) {}).Sending := by
  have hu : p.st.used = true := hp.fly (by rw [hdr]; rfl)
  obtain ⟨j, hj, hex⟩ := hp.held
  rw [hdr] at hj
  obtain ⟨c, q, hoh, hnil, rfl, hoff, hjl, hput, -, hpc⟩ := hj.of_fly
  have hd' : (if more then DrainPc.claimed else .leaving).flies = false := by
    cases more <;> rfl
  have hidle : (if more then DrainPc.claimed else .leaving) ≠ .idle := by
    cases more <;> simp
  have hjn : j = c.rest.length := by
    have := congrArg List.length hnil
    rw [List.length_drop] at this
    have h0 : ([] : List Byte).length = 0 := rfl
    omega
  have hlen : (bytes p.st.oh).length = c.rest.length + (bytes q).length := by
    rw [hoh, bytes_cons, List.length_append]
  have hcap : c.rest.length + (bytes q).length ≤ 262144 := by
    rw [← hlen, ← hp.total]; exact hp.cap
  have hot : subSize p.st.ototal c.rest.length = (bytes q).length := by
    rw [subSize_total hp (by omega), hp.total, hlen]; omega
  rw [flushed_outSide hu hoh hoff (by omega), hot]
  constructor <;> dsimp only [afterDrain]
  · exact hp.sid
  · exact Nat.le_trans (Nat.le_add_left _ _) hcap
  · rw [List.append_nil, ite_self]; exact hp.sent
  · exact hp.conn
  · exact hp.piping
  · refine fun hcn => ⟨(hp.unfd hcn).1, fun fd q off0 put freed he => ?_⟩
    rw [he] at hd'; cases hd'
  · exact fun _ => hp.live (by rw [hdr]; simp)
  · intro hs
    rw [Pc.flies_of_sends hs] at hpc; cases hpc
  · exact fun _ => hu
  · exact fun _ => ⟨hpc, hd'⟩
  · rw [List.append_nil, ite_self, Bool.or_false]
    refine ⟨0, .rest hpc hd', fun hu hcl ht => ?_⟩
    rw [hex hu hcl ht, hoh, hjn, bytes_cons, List.drop_left, List.drop_zero]

/-- the exit drain gives up; if part of the chunk is out, the chunk is torn -/
theorem Sending.exitFail {p : Pipe} {fd : Option Nat} {c : List Byte} {off0 : Nat}
    {put freed : Bool} (hp : p.Sending) (hdr : p.drain = .fly fd c off0 put freed) :
    (p.afterDrain { p.st with sending := false } .leaving { torn := put }).Sending := by
  obtain ⟨j, hj, hex⟩ := hp.held
  rw [hdr] at hj
  obtain ⟨c, q, hoh, -, -, -, -, hput, -, hpc⟩ := hj.of_fly
  refine hp.exitMove (by rw [hdr]; simp) false nofun (fun hs => ?_) nofun ?_
    (fun _ => ⟨hpc, rfl⟩) ?_
  · rw [Pc.flies_of_sends hs] at hpc; cases hpc
  · rw [List.append_nil, ite_self]; exact hp.sent
  · rw [List.append_nil, ite_self]
    refine ⟨0, .rest hpc rfl, fun hu hcl ht => ?_⟩
    obtain ⟨ht, hnot⟩ := Bool.or_eq_false_iff.mp ht
    have := hex hu hcl ht
    rw [hput hnot] at this
    exact this

theorem Sending.drain {p p' : Pipe} {e : DrainEv} (hp : p.Sending) (ok : p.SendOk (.drain e))
    (h : p.step (.drain e) = some p') : p'.Sending := by
  obtain ⟨⟨st', d', x⟩, hstep, rfl⟩ := Option.map_eq_some_iff.mp h
  have hsec := drainStep_section hstep
  generalize hdr : p.drain = d at hsec
  dsimp only at hsec ⊢
  cases hsec with
  | claim hu hl ho hs =>
    exact hp.drainQuiet ⟨rfl, rfl, rfl, rfl, rfl, rfl, rfl⟩ (fun _ => ⟨rfl, hl⟩)
      (by rw [hdr]; rfl) rfl
  | take c hu hs hc hne => exact hp.exitTake hdr hu hs hc hne ok
  | takeNone =>
    exact hp.drainQuiet ⟨rfl, rfl, rfl, rfl, rfl, rfl, rfl⟩
      (fun _ => hp.live (by rw [hdr]; simp)) (by rw [hdr]; rfl) rfl
  | push fd c off0 put freed bs h0 hle hb => exact hp.exitPush hdr hle hb
  | ok fd off0 put freed more => exact hp.exitOk hdr more
  | fail fd c off0 put freed hne => exact hp.exitFail hdr
  | release =>
    refine hp.drainQuiet ?_ (fun h => absurd rfl h) (by rw [hdr]; rfl) rfl
    split_ifs <;> exact ⟨rfl, rfl, rfl, rfl, rfl, rfl, rfl⟩

/-! ## whole runs -/

theorem Sending.step {p p' : Pipe} {a : Act} (hp : p.Sending) (ok : p.SendOk a)
    (h : p.step a = some p') : p'.Sending := by
  cases a with
  | thread e => exact hp.thread ok h
  | drain e => exact hp.drain ok h
  | send buf =>
    obtain ⟨-, h⟩ := Option.ite_none_right_eq_some.mp h
    cases h
    exact hp.send buf
  | pop blen =>
    obtain ⟨-, h⟩ := Option.ite_none_right_eq_some.mp h
    cases h
    refine hp.quiet (p.st.pop_outSide blen) rfl rfl rfl rfl rfl rfl (Or.inl rfl) hp.conn ?_
    show _ → _ ∧ (p.st.pop blen).1.state ≠ _
    rw [p.st.pop_state blen]; exact hp.piping
  | shutdown rd wr =>
    obtain ⟨-, h⟩ := Option.ite_none_right_eq_some.mp h
    cases h
    refine hp.quiet (p.st.shutdown_outSide rd wr) rfl rfl rfl rfl rfl rfl (Or.inl rfl) hp.conn ?_
    show _ → _ ∧ (p.st.shutdown rd wr).state ≠ _
    rw [p.st.shutdown_state rd wr]; exact hp.piping
  | close =>
    obtain ⟨-, h⟩ := Option.ite_none_right_eq_some.mp h
    cases h
    exact hp.close
  | handed v =>
    obtain ⟨-, h⟩ := Option.ite_none_right_eq_some.mp h
    cases h
    refine hp.quiet (p.st.handed_outSide v) rfl rfl rfl rfl rfl rfl (Or.inl rfl) hp.conn ?_
    intro hpp
    obtain ⟨hu, hs⟩ := hp.piping hpp
    refine ⟨hu, ?_⟩
    show (p.st.handed v).state ≠ .connecting
    unfold DtStream.handed
    rw [if_neg hs]; exact hs

theorem Sending.exact {p : Pipe} (hp : p.Sending) : p.Exact := ⟨hp.sent, hp.total, hp.cap⟩

/-- **The send path is exact as long as the drains keep to themselves**: for every run of one
stream, whoever takes the steps and whatever the sends take. -/
theorem send_exact {st0 : DtStream} {gsock sid : Nat} {dst : SockaddrIn} {p : Pipe}
    {tr : List (Pipe × Act)} (h : Path step (fresh st0 gsock dst sid) tr p)
    (hok : ∀ x ∈ tr, x.1.SendOk x.2) : ∀ q ∈ visited tr p, q.Exact :=
  h.all_of_ok (sending_fresh st0 gsock dst sid) (fun _ hq => hq.exact)
    (fun _ _ _ hq ok hl => hq.step ok hl) hok

def twoSends : List Act :=
  handshake ++ ([.send [104, 105], .thread .head, .thread (.select true false), .thread .take,
    .thread (.push 1), .thread .commit, .thread .take, .thread .again, .send [33], .close,
    .thread .head, .thread .drainTake, .thread (.drainPush 1), .thread .drainOk,
    .thread .drainTake, .thread (.drainPush 1), .thread .drainOk] : List Act)

/-- two bytes in two sends, then close, and the pump drains the rest: the run is exact -/
theorem send_exact_goodbye : ∃ tr p, Path step (fresh .zero 7 ⟨10, 80⟩ 1) tr p ∧
    p.wire = [104, 105, 33] ∧ ∀ q ∈ visited tr p, q.Exact := by
  have hrun : (run step (fresh .zero 7 ⟨10, 80⟩ 1) twoSends).isSome = true := by decide
  obtain ⟨p, hp⟩ := Option.isSome_iff_exists.mp hrun
  have hw : (run step (fresh .zero 7 ⟨10, 80⟩ 1) twoSends).map wire = some [104, 105, 33] := by
    decide
  rw [hp] at hw
  have hok : ∀ x ∈ trace step (fresh .zero 7 ⟨10, 80⟩ 1) twoSends, x.1.SendOk x.2 := by
    decide
  exact ⟨_, p, path_run hp, Option.some.inj hw, send_exact (path_run hp) hok⟩

def exiting : List Act :=
  handshake ++ ([.send [65, 66], .drain .claim, .close, .thread .head, .drain .take,
    .thread .drainTake, .drain (.push [65, 66]), .thread (.drainPush 2)] : List Act)

/-- `AB` is queued, the app closes the socket and exits: the close drain and the exit drain both
take the chunk -/
theorem sent_twice : ∃ tr p, Path step (fresh .zero 7 ⟨10, 80⟩ 1) tr p ∧
    p.accepted = [65, 66] ∧ p.wire = [65, 66, 65, 66] := by
  have hrun : (run step (fresh .zero 7 ⟨10, 80⟩ 1) exiting).isSome = true := by decide
  obtain ⟨p, hp⟩ := Option.isSome_iff_exists.mp hrun
  have ha : (run step (fresh .zero 7 ⟨10, 80⟩ 1) exiting).map accepted = some [65, 66] := by
    decide
  have hw : (run step (fresh .zero 7 ⟨10, 80⟩ 1) exiting).map wire = some [65, 66, 65, 66] := by
    decide
  rw [hp] at ha hw
  exact ⟨_, p, path_run hp, Option.some.inj ha, Option.some.inj hw⟩

end Pipe

end ShadowLan
