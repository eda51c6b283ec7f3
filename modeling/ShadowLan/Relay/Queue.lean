import ShadowLan.Lib.Runs
import ShadowLan.Wire.Bytes

/-!
# The send queue of a control connection

`r_send` puts a frame on a bounded queue, and one task for each writer drains it into the
transport.  A call that finds the queue full looks again every 10 ms.  The queue is named by
`id(writer)` in three tables, and the task takes the name out of all of them when it ends: because
the connection is lost, or because the handler of the connection has ended and cancelled it.

* `Entry`, `SendQ`        the tables, and the queue objects that calls still hold;
* `put`, `attempt`        what a call does between two suspensions;
* `step`                  calls, drain task and handler, in any order;
* `Unharmed`              a call neither raises nor needs the peer to read.
-/

namespace ShadowLan

def WQ_MAXFRAMES : Nat := 1024
def WQ_MAXBYTES : Nat := 4 * 1024 * 1024
def WQ_DROP_BYTES : Nat := 64 * 1024

def T_NODE : UInt8 := 0x01
def T_ASSIGN : UInt8 := 0x02
def T_BCAST : UInt8 := 0x03
def T_BCAST_FROM : UInt8 := 0x04
def T_UDP_TUN : UInt8 := 0x06
def T_STREQ : UInt8 := 0x08

/-- the types of the frames that may be dropped -/
def DROPPABLE : List UInt8 := [T_BCAST, T_BCAST_FROM, T_UDP_TUN]

/-- a frame with its length in front -/
def frame (mtype : UInt8) (payload : Bytes) : Bytes := packI (1 + payload.length) ++ mtype :: payload

/-- where the drain task stands -/
inductive Drain where
  /-- created, has not run yet -/
  | fresh
  /-- between two frames: at `q.get` -/
  | ready
  /-- in `writer.drain`, until the peer reads -/
  | stalled
  /-- cancelled before it ran for the first time: its `finally` will never run -/
  | dead
  deriving DecidableEq, Repr

/-- what `wq`, `wq_size` and `wq_task` hold for the writer; the queue object is named by a number -/
structure Entry where
  q : Nat
  cnt : Int
  byts : Int
  drain : Drain
  cancelled : Bool
  deriving DecidableEq, Repr

/-- the counters let no frame in -/
def Entry.Over (e : Entry) : Prop := e.cnt ≥ WQ_MAXFRAMES ∨ e.byts > WQ_MAXBYTES

instance (e : Entry) : Decidable e.Over := inferInstanceAs (Decidable (_ ∨ _))

/-- where a call of `r_send` stands -/
inductive Call where
  /-- asleep, with the queue object and the frame it holds -/
  | polling (q : Nat) (f : Bytes) (droppable : Bool)
  /-- in `q.put`, with the counters it has read -/
  | putting (q : Nat) (f : Bytes) (cnt byts : Int)
  | returned
  | raised
  deriving DecidableEq, Repr

/-- the queue object that a suspended call holds -/
def Call.queue : Call → Option Nat
  | .polling q _ _ | .putting q _ _ _ => some q
  | .returned | .raised => none

structure SendQ where
  /-- the handler of the connection is running -/
  served : Bool
  /-- every queue object there has been: frames, and `none` for the end mark -/
  queues : List (List (Option Bytes))
  entry : Option Entry
  /-- every call there has been -/
  calls : List Call
  deriving DecidableEq, Repr

namespace SendQ

def init : SendQ := ⟨false, [], none, []⟩

variable (s : SendQ)

def items (q : Nat) : List (Option Bytes) := s.queues.getD q []

def isFull (q : Nat) : Bool := WQ_MAXFRAMES ≤ (s.items q).length

/-- `wq_size[key] = [cnt, byts]` -/
def setSize (cnt byts : Int) : SendQ :=
  { s with entry := s.entry.map fun e => { e with cnt := cnt, byts := byts } }

def append (q : Nat) (x : Option Bytes) : SendQ :=
  { s with queues := s.queues.set q (s.items q ++ [x]) }

/-- the end of `r_send`, after the counters were found small enough -/
def put (q : Nat) (f : Bytes) (droppable : Bool) (cnt byts : Int) : SendQ × Call :=
  if s.isFull q then (s, if droppable then .returned else .putting q f cnt byts)
  else ((s.append q (some f)).setSize (cnt + 1) (byts + f.length), .returned)

/-- one look at the counters of entry `e` -/
def attempt (e : Entry) (q : Nat) (f : Bytes) (droppable : Bool) : SendQ × Call :=
  if e.Over then (s, .polling q f droppable)
  else s.put q f droppable e.cnt e.byts

/-- the entry of the writer, made when there is none -/
def opened : SendQ × Entry :=
  match s.entry with
  | some e => (s, e)
  | none =>
    let e : Entry := ⟨s.queues.length, 0, 0, .fresh, false⟩
    ({ s with queues := s.queues ++ [[]], entry := some e }, e)

/-- `r_send` up to its first suspension -/
def rSend (mtype : UInt8) (payload : Bytes) (droppable : Option Bool) : SendQ × Call :=
  let droppable := droppable.getD (DROPPABLE.contains mtype)
  let (s, e) := s.opened
  let f := frame mtype payload
  if droppable ∧ (e.cnt ≥ WQ_MAXFRAMES ∨ e.byts + f.length > WQ_DROP_BYTES) then (s, .returned)
  else s.attempt e e.q f droppable

/-- the next step of a suspended call -/
def resume : Call → Option (SendQ × Call)
  | .polling q f droppable =>
    match s.entry with
    | none => some (s, .raised)
    | some e => some (s.attempt e q f droppable)
  | .putting q f cnt byts =>
    if s.isFull q then none
    else some ((s.append q (some f)).setSize (cnt + 1) (byts + f.length), .returned)
  | .returned | .raised => none

/-- the `finally` of the drain task -/
def forget : SendQ := { s with entry := none }

/-- `q.get` on the queue of the entry -/
def takeHead (e : Entry) : SendQ := { s with queues := s.queues.set e.q (s.items e.q).tail }

def setDrain (d : Drain) : SendQ := { s with entry := s.entry.map fun e => { e with drain := d } }

/-- the task takes the next element, and what it writes; `stalls`: the transport's buffer is full -/
def drainNext (e : Entry) (stalls : Bool) : Option (SendQ × Option Bytes) :=
  match s.items e.q with
  | [] => none
  | none :: _ => some ((s.takeHead e).forget, none)
  | some f :: _ =>
    let s := (s.takeHead e).setSize (e.cnt - 1) (e.byts - f.length)
    some (s.setDrain (if stalls then .stalled else .ready), some f)

/-- the handler of the connection retires the queue -/
def retire : SendQ :=
  match s.entry with
  | none => { s with served := false }
  | some e =>
    let s := if s.isFull e.q then s else s.append e.q none
    { s with served := false, entry := some { e with cancelled := true } }

end SendQ

inductive SendAct where
  /-- a handler of the connection starts to run -/
  | accept
  | call (mtype : UInt8) (payload : Bytes) (droppable : Option Bool)
  /-- a suspended call goes on -/
  | wake (i : Nat)
  /-- the drain task runs for the first time -/
  | start
  | drain (stalls : Bool)
  /-- the peer reads: `writer.drain` returns -/
  | read
  /-- the connection is lost: the task's write or its `writer.drain` raises -/
  | lost
  /-- the cancellation arrives in the task -/
  | cancel
  /-- the handler of the connection ends -/
  | retire
  deriving DecidableEq, Repr

namespace SendQ

/-- one step.  A name is used again only when no task and no call holds the old writer. -/
def step (s : SendQ) : SendAct → Option SendQ
  | .accept =>
    if !s.served && s.entry.all (fun e => e.drain = .dead) &&
        s.calls.all (fun c => c = .returned || c = .raised) then
      some { s with served := true }
    else none
  | .call mtype payload droppable =>
    let (t, c) := s.rSend mtype payload droppable
    some { t with calls := t.calls ++ [c] }
  | .wake i => do
    let c ← s.calls[i]?
    let (t, c') ← s.resume c
    return { t with calls := t.calls.set i c' }
  | .start => do
    let e ← s.entry
    if e.drain = .fresh then
      some (s.setDrain (if e.cancelled then .dead else .ready))
    else none
  | .drain stalls => do
    let e ← s.entry
    if e.drain = .ready ∧ !e.cancelled then (s.drainNext e stalls).map Prod.fst else none
  | .read => do
    let e ← s.entry
    if e.drain = .stalled ∧ !e.cancelled then some (s.setDrain .ready) else none
  | .lost => do
    let e ← s.entry
    if e.cancelled then none
    else if e.drain = .stalled then some s.forget
    else if e.drain = .ready ∧ s.items e.q ≠ [] then some (s.takeHead e).forget
    else none
  | .cancel => do
    let e ← s.entry
    if e.cancelled ∧ (e.drain = .ready ∨ e.drain = .stalled) then some s.forget else none
  | .retire => if s.served then some s.retire else none

/-! ## what a call is promised -/

/-- a step that does not need the peer to read -/
def Unread (tr : List (SendQ × SendAct)) : Prop := ∀ x ∈ tr, x.2 ≠ .read

/-- **Unharmed.**  Whatever the peer does not do: the call has not raised, and it can still return
without the peer reading. -/
def Unharmed (s : SendQ) (i : Nat) : Prop :=
  ∀ tr t, Path step s tr t → Unread tr → t.calls[i]? ≠ some .raised ∧
    ∃ tr' t', Path step t tr' t' ∧ Unread tr' ∧ t'.calls[i]? = some .returned

/-- the queue takes one more frame -/
def HasRoom (s : SendQ) : Prop :=
  ∀ e, s.entry = some e → e.cnt < WQ_MAXFRAMES ∧ e.byts ≤ WQ_MAXBYTES ∧
    (s.items e.q).length < WQ_MAXFRAMES

end SendQ

end ShadowLan
