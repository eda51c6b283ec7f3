import ShadowLan.Hook.Thread

/-!
# One tunneled stream and everyone who works on it

`Pipe` is one stream from `dt_stream_alloc` on: its slot, its thread, the exit drain, and the
histories that the slot itself does not keep.

* `accepted`   what `dt_stream_send` took from the app;
* `wire`       what was put on the stream's relay connection after `DT_STOPEN`;
* `received`   what the thread read from it after the handshake;
* `delivered`  what `dt_stream_pop` handed to the app.

`Pipe.step` is one section between two lock releases, of whoever comes next: the app (several
threads of it may call), the stream thread, the exit drain, or the thread of an abandoned stream
that hands its verdict over.  The app's calls find the slot by its socket number.
-/

namespace ShadowLan

/-- the relay connection of a stream -/
inductive Conn where
  | none
  | up
  | closed
  deriving DecidableEq

structure Pipe where
  gsock : Nat
  st : DtStream
  thread : Thread
  drain : DrainPc
  conn : Conn
  /-- a drain gave a chunk up with part of it on the wire -/
  torn : Bool
  received : List Byte
  delivered : List Byte
  accepted : List Byte
  wire : List Byte
  deriving DecidableEq

inductive Act where
  | send (buf : List Byte)
  | pop (blen : Nat)
  | shutdown (rd wr : Bool)
  | close
  /-- an abandoned dial to the same destination hands its verdict over -/
  | handed (vfail : Nat)
  | thread (e : Ev)
  | drain (e : DrainEv)
  deriving DecidableEq

/-- the memory of the chunk that the exit drain holds was freed -/
def DrainPc.free : DrainPc → DrainPc
  | .fly fd p off0 put _ => .fly fd p off0 put true
  | d => d

namespace Pipe

/-- `dt_stream_by_sock` finds the slot -/
def found (p : Pipe) : Bool := p.gsock != 0 && p.st.used && p.st.gsock == p.gsock

/-- the stream right after `dt_stream_alloc` took the slot `st0` for it -/
def fresh (st0 : DtStream) (gsock : Nat) (dst : SockaddrIn) (sid : Nat) : Pipe where
  gsock := gsock
  st := st0.alloc gsock dst sid
  thread := ⟨sid, .dial⟩
  drain := .idle
  conn := .none
  torn := false
  received := []
  delivered := []
  accepted := []
  wire := []

/-- the effects of a section of the stream thread -/
def afterThread (p : Pipe) (st : DtStream) (t : Thread) (x : Eff) : Pipe :=
  { p with
    st := st, thread := t,
    drain := if x.freed then p.drain.free else p.drain,
    conn := if x.up then .up else if x.down then .closed else p.conn,
    torn := p.torn || x.torn,
    received := p.received ++ x.received,
    wire := p.wire ++ x.wire }

/-- the effects of a section of the exit drain; what it sends on a descriptor that the thread has
closed meanwhile does not reach the stream's connection -/
def afterDrain (p : Pipe) (st : DtStream) (d : DrainPc) (x : Eff) : Pipe :=
  { p with
    st := st, drain := d, torn := p.torn || x.torn,
    wire := if p.conn = .up then p.wire ++ x.wire else p.wire }

def step (p : Pipe) : Act → Option Pipe
  | .send buf =>
    if p.found then
      some { p with st := (p.st.send buf).1, accepted := p.accepted ++ (p.st.send buf).2.2 }
    else none
  | .pop blen =>
    if p.found then
      some { p with st := (p.st.pop blen).1, delivered := p.delivered ++ (p.st.pop blen).2.2 }
    else none
  | .shutdown rd wr => if p.found then some { p with st := p.st.shutdown rd wr } else none
  | .close =>
    if p.found then
      some { p with
        st := p.st.close, drain := if p.st.close.used then p.drain else p.drain.free }
    else none
  | .handed v =>
    if p.st.used ∧ p.st.gsock ≠ 0 then some { p with st := p.st.handed v } else none
  | .thread e => (Thread.step p.st p.thread e).map fun r => p.afterThread r.1 r.2.1 r.2.2
  | .drain e => (drainStep p.st p.drain e).map fun r => p.afterDrain r.1 r.2.1 r.2.2

/-- the relay confirms stream 1: the steps from the dial to the pipe loop -/
def handshake : List Act :=
  [.thread (.dial true), .thread .abortCheck, .thread (.stopen true 5),
    .thread (.verdict (some (DT_STOK, [0, 0, 0, 1])))]

end Pipe

end ShadowLan
