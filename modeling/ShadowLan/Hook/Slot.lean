import ShadowLan.Lib.ChunkQueue

/-!
# One slot of the hook's stream table

A fake game TCP connection is one slot of the table `g_st`.  The slot is shared by the app's calls,
by the stream's own thread (`dt_stream_thread`) and by the exit drain (`dt_flush_streams`); all of
them touch it between `DLOCK` and `DUNLOCK`.  Every such section is one function on the slot:

* `DtStream.alloc`                              the slot is taken by `dt_stream_alloc`;
* `DtStream.send`, `pop`, `shutdown`, `close`   the app's calls, on the slot they found;
* `DtStream.goLive`, `verdict`, `sent`, ...     the sections of the stream thread;
* `DtStream.flushed`                            the exit drain has sent the front chunk.

Memory is taken to be there: every `malloc` succeeds.  Logging, counters that only logging reads
and the wake channels are left out.
-/

namespace ShadowLan

abbrev Byte := UInt8

/-- `sockaddr_in`: address and port -/
structure SockaddrIn where
  addr : Nat
  port : Nat
  deriving DecidableEq

/-- `ST_CONNECTING`, `ST_OPEN`, `ST_DEAD` -/
inductive StState where
  | connecting
  | opened
  | dead
  deriving DecidableEq

/-! ## constants -/

def DT_STOK : Nat := 0x0B
def DT_STFAIL : Nat := 0x0C
def DT_STSID_N : Nat := 4
def DT_STFAIL_N : Nat := 5
def STF_NO_ROUTE : Nat := 1
def STF_JOIN_TIMEOUT : Nat := 2
def DT_RSTMARK : Nat := 255
def DT_ST_MAXIN : Nat := 1024 * 1024
def DT_ST_MAXOUT : Nat := 256 * 1024
def DT_ST_WROOM : Nat := DT_ST_MAXOUT / 3 * 2

/-- `struct dt_stream`; `gsock = 0` is a slot whose app identity was released, `fd = none` is
`DTSOCK_BAD` -/
structure DtStream where
  used : Bool
  gsock : Nat
  sid : Nat
  orig : SockaddrIn
  h : List (Chunk Byte)
  total : Nat
  dead : Bool
  state : StState
  fail : Nat
  inPaused : Bool
  connectSignaled : Bool
  fd : Option Nat
  fdLive : Bool
  oh : List (Chunk Byte)
  ototal : Nat
  flushing : Bool
  sending : Bool
  threadDone : Bool
  shutDone : Bool
  everOpen : Bool
  peerFin : Bool
  wrShut : Bool
  rdShut : Bool
  wrFull : Bool
  deriving DecidableEq

namespace DtStream

/-- a slot as the table starts out -/
def zero : DtStream where
  used := false
  gsock := 0
  sid := 0
  orig := ⟨0, 0⟩
  h := []
  total := 0
  dead := false
  state := .connecting
  fail := 0
  inPaused := false
  connectSignaled := false
  fd := some 0
  fdLive := false
  oh := []
  ototal := 0
  flushing := false
  sending := false
  threadDone := false
  shutDone := false
  everOpen := false
  peerFin := false
  wrShut := false
  rdShut := false
  wrFull := false

/-- the chunk lists are freed: `h = t = oh = ot = NULL`, `total = ototal = 0` -/
def freeQueues (st : DtStream) : DtStream :=
  { st with h := [], oh := [], total := 0, ototal := 0 }

/-- `dt_stream_alloc` on the free slot it found; `fd_live` keeps what the slot's last stream left -/
def alloc (st : DtStream) (gsock : Nat) (dst : SockaddrIn) (sid : Nat) : DtStream :=
  { st with
    used := true, gsock := gsock, sid := sid, orig := dst, h := [], total := 0, dead := false,
    state := .connecting, fail := 0, inPaused := false, connectSignaled := false,
    flushing := false, sending := false, threadDone := false, peerFin := false, wrShut := false,
    rdShut := false, wrFull := false, shutDone := false, everOpen := false, fd := none, oh := [],
    ototal := 0 }

/-! ## the app's calls, on the slot they found -/

/-- what `dt_stream_send` takes of a buffer: `none` if the out-queue has no room for it now.  A
write that fits the queue at all is taken whole or not at all; a larger one goes in parts. -/
def room (st : DtStream) (len : Nat) : Option Nat :=
  if DT_ST_MAXOUT < st.ototal + len then
    let room := if st.ototal < DT_ST_MAXOUT then DT_ST_MAXOUT - st.ototal else 0
    if len ≤ DT_ST_MAXOUT ∨ room = 0 then none else some room
  else some len

/-- `dt_stream_send`: the slot, the answer, and the bytes taken -/
def send (st : DtStream) (buf : List Byte) : DtStream × Int × List Byte :=
  if st.wrShut then (st, -3, [])
  else if st.dead ∨ st.state = .dead then (st, -1, [])
  else
    match st.room buf.length with
    | none => ({ st with wrFull := true }, -2, [])
    | some len =>
      let st := if DT_ST_MAXOUT < st.ototal + buf.length then { st with wrFull := true } else st
      if len = 0 then (st, 0, [])
      else
        ({ st with oh := push st.oh (buf.take len), ototal := st.ototal + len }, len,
          buf.take len)

/-- `dt_stream_pop`: the slot, the answer (`1` got, `0` empty, `-1` dead), and the bytes got -/
def pop (st : DtStream) (blen : Nat) : DtStream × Int × List Byte :=
  if st.h ≠ [] then
    let got := (gather st.h blen).1
    let st := { st with h := (gather st.h blen).2, total := st.total - got.length }
    if st.inPaused ∧ st.total < DT_ST_MAXIN / 2 then ({ st with inPaused := false }, 1, got)
    else (st, 1, got)
  else if st.dead ∨ st.state = .dead ∨ st.peerFin ∨ st.rdShut then (st, -1, [])
  else (st, 0, [])

/-- `shutdown(s, how)`: `rd` for `SHUT_RD`/`SHUT_RDWR`, `wr` for `SHUT_WR`/`SHUT_RDWR` -/
def shutdown (st : DtStream) (rd wr : Bool) : DtStream :=
  let st := if rd then { st with rdShut := true, h := [], total := 0, inPaused := false } else st
  if wr then { st with wrShut := true } else st

/-- `dt_on_close` on the slot of the socket: the stream is handed to its thread (`dead`); the app
identity is released if the thread owns the wire; only a slot whose thread has not got that far
is freed here -/
def close (st : DtStream) : DtStream :=
  let st := { st with dead := true }
  let st := if st.state ≠ .connecting ∧ st.fdLive then { st with gsock := 0 } else st
  if st.state = .connecting ∧ ¬ st.fdLive then
    ({ st with used := false, fd := none } : DtStream).freeQueues
  else st

theorem close_sets_dead (st : DtStream) : st.close.dead = true := by
  unfold close
  dsimp only
  split_ifs <;> rfl

theorem close_frees {st : DtStream} (hs : st.state = .connecting) (hl : st.fdLive = false) :
    st.close.used = false := by
  have h1 : ¬ (st.state ≠ .connecting ∧ st.fdLive = true) := fun h => h.1 hs
  have h2 : st.state = .connecting ∧ ¬ st.fdLive = true := ⟨hs, by rw [hl]; simp⟩
  unfold close
  dsimp only
  rw [if_neg h1, if_pos h2]
  rfl

/-! ## sections of the stream thread -/

/-- `st->used && st->sid == sid` -/
def mine (st : DtStream) (sid : Nat) : Bool := st.used && st.sid == sid

/-- `dt_st_fail_local`: it does not look at the sid -/
def failLocal (st : DtStream) (reason : Nat) : DtStream :=
  if st.used ∧ st.state ≠ .dead then { st with state := .dead, fail := reason } else st

/-- big-endian 32-bit number of the first four bytes -/
def get32 : List Byte → Nat
  | a :: b :: c :: d :: _ => a.toNat * 2 ^ 24 + b.toNat * 2 ^ 16 + c.toNat * 2 ^ 8 + d.toNat
  | _ => 0

/-- the answer frame confirms the stream `sid` -/
def isStok (sid type : Nat) (rp : List Byte) : Bool :=
  type == DT_STOK && decide (DT_STSID_N ≤ rp.length) && get32 rp == sid

/-- the answer frame refuses the stream `sid` -/
def isStfail (sid type : Nat) (rp : List Byte) : Bool :=
  type == DT_STFAIL && decide (DT_STFAIL_N ≤ rp.length) && get32 rp == sid

/-- the verdict section of a stream that is still the thread's own and not detached -/
def verdict (st : DtStream) (sid type : Nat) (rp : List Byte) : DtStream :=
  if isStok sid type rp then { st with state := .opened, everOpen := true }
  else if isStfail sid type rp then { st with state := .dead, fail := (rp.getD 4 0).toNat }
  else { st with state := .dead, fail := STF_JOIN_TIMEOUT }

/-- the verdict of an abandoned dial, handed to a stream with the same destination -/
def handed (st : DtStream) (vfail : Nat) : DtStream :=
  if st.state = .connecting then { st with state := .dead, fail := vfail } else st

/-- `DT_STOPEN` is out: the relay connection is the slot's -/
def goLive (st : DtStream) (sid fd : Nat) : DtStream :=
  if st.mine sid then { st with fd := some fd, fdLive := true } else st

/-- the relay connection died before a verdict -/
def died (st : DtStream) (sid : Nat) : DtStream :=
  if st.mine sid then { st with state := .dead, fail := STF_NO_ROUTE } else st

/-- a slot whose app identity was released while its thread waited for the verdict is freed -/
def freeDetached (st : DtStream) : DtStream :=
  ({ st with used := false, state := .dead, fd := none } : DtStream).freeQueues

/-- the app shut its write side down and the out-queue is out: `DT_STSHUT` is due -/
def shutNow (st : DtStream) (sid : Nat) : Bool :=
  st.mine sid && st.wrShut && !st.shutDone && st.ototal == 0

/-- the head of the pipe loop -/
def atHead (st : DtStream) (sid : Nat) : DtStream :=
  if st.shutNow sid then { st with shutDone := true } else st

/-- a hard receive error -/
def hardErr (st : DtStream) (sid : Nat) : DtStream :=
  if st.mine sid then { st with state := .dead, fail := DT_RSTMARK } else st

/-- the peer's FIN -/
def fin (st : DtStream) (sid : Nat) : DtStream :=
  if st.mine sid then { st with peerFin := true } else st

/-- a send loop takes the front chunk: what is left of it -/
def front (st : DtStream) : Option (List Byte) := st.oh.head?.map Chunk.rest

/-- the send loop has put `k` bytes of the front chunk on the wire -/
def sent (st : DtStream) (sid k : Nat) : DtStream :=
  let st := { st with sending := false }
  if st.mine sid ∧ st.oh ≠ [] then
    let st := { st with oh := advance st.oh k, ototal := subSize st.ototal k }
    if st.wrFull ∧ st.ototal ≤ DT_ST_WROOM then { st with wrFull := false } else st
  else st

/-- the close drain has put the front chunk on the wire -/
def drained (st : DtStream) (sid : Nat) : DtStream :=
  if st.mine sid then
    match st.oh with
    | [] => st
    | c :: q => { st with oh := q, ototal := subSize st.ototal (c.n - c.off) }
  else st

/-- bytes read from the relay connection are queued; past the cap they are not -/
def queued (st : DtStream) (sid : Nat) (buf : List Byte) : DtStream :=
  if st.mine sid then
    if DT_ST_MAXIN < st.total + buf.length then { st with inPaused := true }
    else { st with h := push st.h buf, total := st.total + buf.length }
  else st

/-- the tail of the thread: the stream is dead; if the app closed it or shut its write side down,
the slot is freed -/
def retire (st : DtStream) (sid : Nat) : DtStream :=
  let st := { st with threadDone := true }
  if st.mine sid then
    let st := { st with state := .dead }
    if st.dead ∨ st.wrShut then
      ({ st with used := false, fd := none } : DtStream).freeQueues
    else st
  else st

theorem retire_done {st : DtStream} {sid : Nat} (hm : st.mine sid = true)
    (h : st.dead = true ∨ st.wrShut = true) :
    st.retire sid = ({ st with
      threadDone := true, state := .dead, used := false, fd := none } : DtStream).freeQueues := by
  have hm' : ({ st with threadDone := true } : DtStream).mine sid = true := hm
  unfold retire
  dsimp only
  rw [if_pos hm', if_pos h]

theorem retire_open {st : DtStream} {sid : Nat} (hm : st.mine sid = true)
    (h : ¬ (st.dead = true ∨ st.wrShut = true)) :
    st.retire sid = { st with threadDone := true, state := .dead } := by
  have hm' : ({ st with threadDone := true } : DtStream).mine sid = true := hm
  unfold retire
  dsimp only
  rw [if_pos hm', if_neg h]

/-! ## a section of the exit drain -/

/-- the exit drain has put the front chunk on the wire: `ototal` loses what it had taken -/
def flushed (st : DtStream) (off0 : Nat) : DtStream :=
  let st := { st with sending := false }
  if st.used then
    match st.oh with
    | [] => st
    | c :: q => { st with oh := q, ototal := subSize st.ototal (subSize c.n off0) }
  else st

end DtStream

end ShadowLan
