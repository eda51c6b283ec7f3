import Mathlib.Data.List.Perm.Basic
import Mathlib.Data.List.Sort
import Mathlib.Logic.Function.Basic
import ShadowLan.Lib.Runs
import ShadowLan.Relay.Queue
import ShadowLan.Wire.Tcp

/-!
# One stream of the relay

`self.streams[sid]` from the moment `handle_stream_open` has put it there.  Everything that touches
it is a coroutine or a pump that runs from one suspension to the next.

* `Tcp`            a per-stream connection: its `StreamReader` and its `StreamWriter`;
* `Coro`           the coroutines of the stream, each at the `await` where it is suspended;
* `Stream`         the record, its connections and its coroutines;
* `Stream.step`    one of them goes on, a first frame arrives, a control link says something, or the
                   network does something to a connection.

A `drain` suspends when the transport is closing, or when more is buffered than the high-water mark.
`wait_for(tcp_read(reader), timeout=0)` is cancelled before it reads anything, so the loop that
drains the joinee's early frames ends after one suspension.  Of the other streams only what reaches
this record is here: a coroutine of an earlier stream with the same `sid` may take it out, run the
grant or start a pipe.  What is printed, and the `T_STREQ`s, are left out.
-/

namespace ShadowLan

/-! ## connections -/

/-- something written on a connection -/
inductive Piece where
  | frame (mtype : UInt8) (payload : Bytes)
  | raw (d : Bytes)
  deriving DecidableEq

def Piece.bytes : Piece → Bytes
  | .frame t p => ShadowLan.frame t p
  | .raw d => d

def Piece.rawBytes : Piece → Bytes
  | .frame _ _ => []
  | .raw d => d

/-- the raw bytes among what was written -/
def rawOf (out : List Piece) : Bytes := out.flatMap Piece.rawBytes

/-- the exception that a reader was given: `ConnectionResetError`, or another `OSError` -/
inductive LinkErr where
  | reset
  | other
  deriving DecidableEq

/-- a per-stream connection, after its first frame -/
structure Tcp where
  /-- every byte that has come in -/
  sent : Bytes
  /-- those that nothing has read -/
  inb : Bytes
  eof : Bool
  exc : Option LinkErr
  /-- `transport.is_closing()` -/
  closing : Bool
  /-- `connection_lost` has been called -/
  lost : Bool
  /-- the kernel will refuse the next write -/
  dead : Bool
  /-- the transport holds bytes that the kernel has not taken -/
  backlog : Bool
  /-- more of them than the high-water mark -/
  paused : Bool
  /-- `write_eof` has been called -/
  wEof : Bool
  out : List Piece
  deriving DecidableEq

/-- how a write and its `drain` come out -/
inductive Sent where
  | ok
  | raised
  | waits
  deriving DecidableEq

namespace Tcp

def fresh : Tcp :=
  { sent := [], inb := [], eof := false, exc := none, closing := false, lost := false, dead := false,
    backlog := false, paused := false, wEof := false, out := [] }

/-- nothing that is written now goes anywhere -/
def gone (k : Tcp) : Bool := k.closing && !k.backlog

/-- `writer.write(..)` and `await writer.drain()` -/
def send (k : Tcp) (o : Piece) : Tcp × Sent :=
  if k.wEof then (k, .raised)
  else if k.gone then (k, if k.exc.isSome then .raised else .waits)
  else if k.dead && !k.backlog then ({ k with closing := true, paused := false }, .waits)
  else ({ k with out := k.out ++ [o] },
    if k.exc.isSome then .raised else if k.closing || k.paused then .waits else .ok)

/-- the `drain` of a suspended send comes back -/
def drained (k : Tcp) : Option Sent :=
  if k.lost then some .raised else if k.paused then none else some .ok

def close (k : Tcp) : Tcp := { k with closing := true }

def write_eof (k : Tcp) : Tcp := if k.closing then k else { k with wEof := true }

/-- what the network and the event loop do to a connection -/
inductive Ev where
  | arrive (d : Bytes)
  | fin
  /-- the peer is gone, and the relay does not know yet -/
  | die
  /-- reading or writing failed: the transport closes itself -/
  | fatal
  /-- `connection_lost` -/
  | lost (e : Option LinkErr)
  | buffer (backlog paused : Bool)
  deriving DecidableEq

def net (k : Tcp) : Ev → Option Tcp
  | .arrive d =>
    if k.closing || k.eof then none else some { k with sent := k.sent ++ d, inb := k.inb ++ d }
  | .fin => if k.closing then none else some { k with eof := true }
  | .die => some { k with dead := true }
  | .fatal => some { k with closing := true, backlog := false, paused := false }
  | .lost e =>
    if k.closing then
      some { k with lost := true, eof := true, exc := e, backlog := false, paused := false }
    else none
  | .buffer b p =>
    -- the kernel takes the few bytes of a handshake at once; a closing transport only empties
    if (p && !b) || (b && (rawOf k.out).isEmpty) || (k.closing && b && !k.backlog) then none
    else some { k with backlog := b, paused := p }

end Tcp

/-! ## the record -/

/-- `STF_*`, as far as `server.py` imports them -/
inductive Reason where
  | NO_ROUTE
  | BAD_ID
  | BUSY
  /-- what the joinee's own `T_STFAIL` says -/
  | said (reason : Nat)
  deriving DecidableEq

def Reason.code : Reason → Nat
  | .NO_ROUTE => 1
  | .BAD_ID => 4
  | .BUSY => 5
  | .said reason => reason

/-- the opener's connection, or that of a joinee -/
inductive Who where
  | opener
  | joinee (c : Nat)
  deriving DecidableEq

/-- `st["state"]` -/
inductive StreamState where
  | opened
  | joined
  | ready
  deriving DecidableEq

inductive PumpPc where
  | read
  | drain
  | ended
  deriving DecidableEq

/-- `_stream_pipe`, the joiner being `c` -/
inductive PipePc where
  | starting
  /-- in `asyncio.wait`: the pump towards the joinee and the pump back -/
  | running (c : Nat) (there back : PumpPc) (cancelled : Bool)
  /-- in `asyncio.gather`, the pumps cancelled -/
  | ending
  deriving DecidableEq

/-- a parked claim: the connection and the node it names -/
abbrev StClaim := Nat × Nat

/-- a coroutine at the `await` where it is suspended; `task` tells that `st["task"]` is this one -/
inductive Coro where
  /-- `_stream_join_timeout`, asleep -/
  | timeout
  /-- `_stream_fail`, in its `tcp_send` -/
  | failing (task : Bool)
  /-- `_implicit_grant`, asleep -/
  | grant
  /-- `_implicit_grant`, sending `STF_BUSY` to `cur` -/
  | busy (cur : StClaim) (rest : List StClaim) (win : StClaim)
  /-- `handle_stream_join`, sending `STF_BUSY` -/
  | refused (c : Nat)
  /-- `_grant_claim`, sending `STF_BAD_ID` -/
  | badId (c : Nat)
  | stokJoiner (c : Nat)
  | stokOpener (c : Nat)
  /-- `_grant_claim`, in the `wait_for` without time -/
  | early (c : Nat)
  /-- `_grant_claim`, in its `tcp_read` -/
  | reading (c : Nat)
  | pipe (task : Bool) (pc : PipePc)
  deriving DecidableEq

/-- `t.cancel()` if the coroutine is `st["task"]` -/
def Coro.cancel : Coro → Option Coro
  | .timeout | .failing true | .pipe true .starting | .pipe true .ending => none
  | .pipe true (.running c a b _) => some (.pipe false (.running c a b true))
  | t => some t

structure Stream where
  sid : Nat
  opener_node : Nat
  dest_node : Nat
  implicit : Bool
  state : StreamState
  /-- `joiner_r` and `joiner_w` -/
  joiner : Option Nat
  /-- `st["shut_from"] == "opener"` -/
  shut_from : Bool
  claims : List StClaim
  /-- `st["grant_task"] is not None` -/
  grant_task : Bool
  /-- `self.streams[sid]` is this record -/
  listed : Bool
  coros : List Coro
  conns : Who → Tcp
  /-- the latest `host_claim` of the links of each node -/
  host_claim : Nat → Nat
  /-- the connections whose `T_STJOIN` came while the record was listed -/
  joined : List Nat

namespace Stream
open Coro

/-- `handle_stream_open`, when it has created the record and its timeout -/
def opened (sid opener_node dest_node : Nat) : Stream :=
  { sid, opener_node, dest_node, implicit := dest_node == 0, state := .opened, joiner := none,
    shut_from := false, claims := [], grant_task := false, listed := true, coros := [.timeout],
    conns := fun _ => .fresh, host_claim := fun _ => 0, joined := [] }

variable (s : Stream)

def setConn (w : Who) (k : Tcp) : Stream := { s with conns := Function.update s.conns w k }

def spawn (t : Coro) : Stream := { s with coros := s.coros ++ [t] }

def close (w : Who) : Stream := s.setConn w (s.conns w).close

def write_eof (w : Who) : Stream := s.setConn w (s.conns w).write_eof

/-- a send on a connection, and what goes on after it -/
def send (w : Who) (o : Piece) (waits : Stream → Stream) (fin : Sent → Stream → Stream) : Stream :=
  let r := (s.conns w).send o
  match r.2 with
  | .waits => waits (s.setConn w r.1)
  | x => fin x (s.setConn w r.1)

def closeEnds : Stream :=
  match s.joiner with
  | none => s.close .opener
  | some c => (s.close .opener).close (.joinee c)

/-- `_stream_pop` -/
def pop : Stream :=
  if s.listed then { s.closeEnds with listed := false, coros := s.coros.filterMap Coro.cancel } else s

def stfail (r : Reason) : Piece := .frame T_STFAIL (encode_stfail s.sid r.code)

def stok : Piece := .frame T_STOK (encode_stsid s.sid)

/-- `_stream_fail` -/
def fail (task : Bool) (r : Reason) : Stream :=
  if !(s.conns .opener).closing && s.state != .ready then
    s.send .opener (s.stfail r) (fun s => s.spawn (.failing task)) (fun _ s => s.pop)
  else s.pop

/-! ## `_grant_claim` -/

/-- from `st["state"] = "ready"` on -/
def confirm (c : Nat) : Stream :=
  let s := { s with state := .ready }
  s.send .opener s.stok (fun s => s.spawn (.stokOpener c))
    fun r s => if r = .ok then s.spawn (.early c) else s.fail false .NO_ROUTE

def refuse (c : Nat) : Stream := (s.close (.joinee c)).fail false .BAD_ID

def claim (c node : Nat) : Stream :=
  let s := { s with
    joiner := some c
    state := .joined
    dest_node := if s.dest_node = 0 then node else s.dest_node }
  let s := if s.shut_from then { s with shut_from := false }.write_eof (.joinee c) else s
  s.send (.joinee c) s.stok (fun s => s.spawn (.stokJoiner c))
    fun r s => if r = .ok then s.confirm c else s.fail false .NO_ROUTE

def _grant_claim (c node : Nat) : Stream :=
  if s.dest_node ≠ 0 ∧ node ≠ s.dest_node then
    s.send (.joinee c) (s.stfail .BAD_ID) (fun s => s.spawn (.badId c)) fun _ s => s.refuse c
  else s.claim c node

/-! ## `_implicit_grant` -/

/-- the loop over the losers, and the grant -/
def busyRound (s : Stream) (win : StClaim) : List StClaim → Stream
  | [] => s._grant_claim win.1 win.2
  | l :: rest =>
    s.send (.joinee l.1) (s.stfail .BUSY) (fun s => s.spawn (.busy l rest win))
      fun _ s => (s.close (.joinee l.1)).busyRound win rest

/-- `claims.sort(key=score, reverse=True)` -/
def ranked (l : List StClaim) : List StClaim :=
  l.insertionSort fun a b => s.host_claim b.2 ≤ s.host_claim a.2

def _implicit_grant : Stream :=
  if !s.listed || s.state != .opened then s
  else
    let s' := { s with claims := [], grant_task := false }
    match s.ranked s.claims with
    | [] => s'
    | win :: losers => s'.busyRound win losers

/-! ## `handle_stream_join` -/

/-- the claim of connection `c` for `node`, once the record is found -/
def join (c node : Nat) : Stream :=
  let s := { s with joined := c :: s.joined }
  if s.state ≠ .opened then
    s.send (.joinee c) (s.stfail .BUSY) (fun s => s.spawn (.refused c))
      fun _ s => s.close (.joinee c)
  else if s.implicit then
    let s := { s with claims := s.claims ++ [(c, node)] }
    if s.grant_task then s else { s with grant_task := true }.spawn .grant
  else s._grant_claim c node

def handle_stream_join (c : Nat) (payload : Bytes) : Option Stream :=
  match decode_stjoin payload with
  | none => none
  | some (node, sid) =>
    if !s.listed || sid != s.sid || s.joined.contains c then none else some (s.join c node)

/-! ## the coroutines go on -/

/-- the coroutine at `k` is taken out; it goes on, and may end up suspended again -/
def without (k : Nat) : Stream := { s with coros := s.coros.eraseIdx k }

/-- what the frame read by `_grant_claim` leads to; `STF_HOST_FAILED` is not imported, so that naming
it ends the coroutine with a `NameError` and leaves the record where it is -/
def handshake (c : Nat) (mtype : UInt8) (payload : Bytes) : Stream :=
  if mtype = T_STJOINED then
    { s with coros := s.coros.filterMap Coro.cancel }.spawn (.pipe true .starting)
  else if mtype = T_STFAIL then
    match decode_stfail payload with
    | some (sid, reason) => if sid = s.sid then s.fail false (.said reason) else s
    | none => s
  else s.close (.joinee c)

/-- `tcp_read` of `_grant_claim` comes back -/
def readFrame (c : Nat) : Option Stream :=
  let j := s.conns (.joinee c)
  match j.exc with
  | some .reset => some (s.fail false .NO_ROUTE)
  | some .other => some s
  | none =>
    match tcpRead j.inb with
    | .frame t p rest => some ((s.setConn (.joinee c) { j with inb := rest }).handshake c t p)
    | .bad => some (s.fail false .NO_ROUTE)
    | .more => if j.eof then some (s.fail false .NO_ROUTE) else none

/-- coroutine `t`, already taken out, goes on -/
def resume (t : Coro) : Option Stream :=
  match t with
  | .timeout => if s.listed && s.state != .ready then some (s.fail true .NO_ROUTE) else some s
  | .failing _ => some s.pop
  | .grant => some s._implicit_grant
  | .busy cur rest win =>
    (s.conns (.joinee cur.1)).drained.map fun _ => (s.close (.joinee cur.1)).busyRound win rest
  | .refused c => (s.conns (.joinee c)).drained.map fun _ => s.close (.joinee c)
  | .badId c => (s.conns (.joinee c)).drained.map fun _ => s.refuse c
  | .stokJoiner c =>
    (s.conns (.joinee c)).drained.map fun r =>
      if r = .ok then s.confirm c else s.fail false .NO_ROUTE
  | .stokOpener c =>
    (s.conns .opener).drained.map fun r =>
      if r = .ok then s.spawn (.early c) else s.fail false .NO_ROUTE
  | .early c => some (s.spawn (.reading c))
  | .reading c => s.readFrame c
  | .pipe task .starting =>
    if s.listed && s.state == .ready then
      match s.joiner with
      | some c => some (s.spawn (.pipe task (.running c .read .read false)))
      | none => some (s.spawn (.pipe task .ending))
    else some s
  | .pipe task (.running _ a b cancelled) =>
    if a = .ended ∨ b = .ended ∨ cancelled then some (s.spawn (.pipe task .ending)) else none
  | .pipe _ .ending => some s.pop

/-- the pump of `_stream_pipe` from `r` to `w` goes on -/
def pump (pc : PumpPc) (r w : Who) : Option (Stream × PumpPc) :=
  match pc with
  | .ended => none
  | .drain => (s.conns w).drained.map fun x => (s, if x = .ok then .read else .ended)
  | .read =>
    let k := s.conns r
    if k.exc.isSome then some (s, .ended)
    else if k.inb = [] then if k.eof then some (s, .ended) else none
    else
      let s := s.setConn r { k with inb := k.inb.drop 65536 }
      let x := (s.conns w).send (.raw (k.inb.take 65536))
      some (s.setConn w x.1,
        match x.2 with
        | .ok => .read
        | .waits => .drain
        | .raised => .ended)

/-- a pump of the pipe at `i` goes on: the one to the joinee, or the one back -/
def pumpStep (i : Nat) (back : Bool) : Option Stream :=
  match s.coros[i]? with
  | some (.pipe task (.running c a b cancelled)) =>
    if back then
      (s.pump b (.joinee c) .opener).map fun x =>
        { x.1 with coros := x.1.coros.set i (.pipe task (.running c a x.2 cancelled)) }
    else
      (s.pump a .opener (.joinee c)).map fun x =>
        { x.1 with coros := x.1.coros.set i (.pipe task (.running c x.2 b cancelled)) }
  | _ => none

/-- `T_STSHUT` for this stream from a link of `node` -/
def stshut (node : Nat) : Stream :=
  if !s.listed then s
  else if node = s.opener_node then
    match s.joiner with
    | none => { s with shut_from := true }
    | some c => s.write_eof (.joinee c)
  else if s.dest_node ≠ 0 ∧ node = s.dest_node then s.write_eof .opener
  else s

/-! ## steps -/

inductive Label where
  /-- the first frame of a joinee's connection -/
  | stjoin (c : Nat) (payload : Bytes)
  | wake (i : Nat)
  /-- the deadline passes in `wait_for(tcp_read(reader), ..)` -/
  | expire (i : Nat)
  | pump (i : Nat) (back : Bool)
  | stshut (node : Nat)
  | net (w : Who) (e : Tcp.Ev)
  | hostClaim (node v : Nat)
  /-- the handler of a closed control link, or an earlier stream, takes the record out -/
  | popped
  /-- `_implicit_grant` of an earlier stream -/
  | strayGrant
  /-- `_stream_pipe` of an earlier stream -/
  | strayPipe
  deriving DecidableEq

def step : Label → Option Stream
  | .stjoin c payload => s.handle_stream_join c payload
  | .wake i => s.coros[i]?.bind (s.without i).resume
  | .expire i =>
    match s.coros[i]? with
    | some (.reading _) => some ((s.without i).fail false .NO_ROUTE)
    | _ => none
  | .pump i back => s.pumpStep i back
  | .stshut node => some (s.stshut node)
  | .net w e => ((s.conns w).net e).map (s.setConn w)
  | .hostClaim node v => some { s with host_claim := Function.update s.host_claim node v }
  | .popped => some s.pop
  | .strayGrant => some s._implicit_grant
  | .strayPipe => some (s.spawn (.pipe false .starting))

/-! ## fields -/

section
variable (w : Who) (k : Tcp) (t : Coro)

@[simp] theorem setConn_self : (s.setConn w k).conns w = k := Function.update_self ..

@[simp] theorem setConn_other {w w' : Who} (h : w' ≠ w) (k : Tcp) :
    (s.setConn w k).conns w' = s.conns w' := Function.update_of_ne h ..

@[simp] theorem setConn_state : (s.setConn w k).state = s.state := rfl
@[simp] theorem setConn_joiner : (s.setConn w k).joiner = s.joiner := rfl
@[simp] theorem setConn_listed : (s.setConn w k).listed = s.listed := rfl
@[simp] theorem setConn_coros : (s.setConn w k).coros = s.coros := rfl
@[simp] theorem setConn_claims : (s.setConn w k).claims = s.claims := rfl
@[simp] theorem setConn_joined : (s.setConn w k).joined = s.joined := rfl
@[simp] theorem setConn_implicit : (s.setConn w k).implicit = s.implicit := rfl
@[simp] theorem setConn_stfail (r : Reason) : (s.setConn w k).stfail r = s.stfail r := rfl
@[simp] theorem setConn_stok : (s.setConn w k).stok = s.stok := rfl

@[simp] theorem spawn_conns : (s.spawn t).conns = s.conns := rfl
@[simp] theorem spawn_state : (s.spawn t).state = s.state := rfl
@[simp] theorem spawn_joiner : (s.spawn t).joiner = s.joiner := rfl
@[simp] theorem spawn_listed : (s.spawn t).listed = s.listed := rfl
@[simp] theorem spawn_coros : (s.spawn t).coros = s.coros ++ [t] := rfl
@[simp] theorem spawn_claims : (s.spawn t).claims = s.claims := rfl
@[simp] theorem spawn_joined : (s.spawn t).joined = s.joined := rfl

@[simp] theorem without_conns (i : Nat) : (s.without i).conns = s.conns := rfl
@[simp] theorem without_state (i : Nat) : (s.without i).state = s.state := rfl
@[simp] theorem without_joiner (i : Nat) : (s.without i).joiner = s.joiner := rfl
@[simp] theorem without_listed (i : Nat) : (s.without i).listed = s.listed := rfl

end

variable {s}

/-- a claim is taken once, for the stream that it names, while that is listed -/
theorem join_of_handle {c : Nat} {payload : Bytes} {s' : Stream}
    (h : s.handle_stream_join c payload = some s') :
    s.listed = true ∧ c ∉ s.joined ∧
      ∃ node sid, decode_stjoin payload = some (node, sid) ∧ s' = s.join c node := by
  unfold handle_stream_join at h
  split at h
  · exact absurd h (by simp)
  · rename_i node sid hd
    obtain ⟨hx, h⟩ := Option.ite_none_left_eq_some.mp h
    simp only [Bool.or_eq_true, not_or, Bool.not_eq_true, Bool.not_eq_false',
      List.contains_eq_mem, decide_eq_false_iff_not] at hx
    exact ⟨hx.1.1, hx.2, node, sid, hd, (Option.some.inj h).symm⟩

/-- a coroutine is one of those that are left, and itself -/
theorem coros_perm {i : Nat} {t : Coro} (h : s.coros[i]? = some t) :
    s.coros.Perm (t :: (s.without i).coros) := by
  obtain ⟨hi, rfl⟩ := List.getElem?_eq_some_iff.mp h
  exact (List.getElem_cons_eraseIdx_perm hi).symm

/-- `_stream_pop` changes no more of the connections than that they close -/
theorem closeEnds_eq : s.closeEnds = { s with conns := s.closeEnds.conns } := by
  unfold closeEnds
  split <;> rfl

theorem closeEnds_opener : s.closeEnds.conns .opener = (s.conns .opener).close := by
  unfold closeEnds
  split
  · exact setConn_self ..
  · exact (setConn_other _ (by simp) _).trans (setConn_self ..)

theorem close_close (w : Who) : (s.close w).close w = s.close w := by
  unfold close setConn
  simp [Tcp.close]

/-- closing the opener's connection before changes nothing -/
theorem closeEnds_close_opener : (s.close .opener).closeEnds = s.closeEnds := by
  unfold closeEnds
  rw [show (s.close .opener).joiner = s.joiner from rfl, close_close]

theorem pop_setConn_opener (h : s.listed = true) (k : Tcp) :
    (s.setConn .opener k).pop = (s.setConn .opener k.close).pop := by
  have he : s.setConn .opener k.close = (s.setConn .opener k).close .opener := by
    simp [close, setConn]
  have hl : (s.setConn .opener k).listed = true := h
  have hl' : ((s.setConn .opener k).close .opener).listed = true := h
  rw [he, pop, pop, if_pos hl, if_pos hl', closeEnds_close_opener]
  rfl

theorem closeEnds_joiner {c : Nat} (h : s.joiner = some c) :
    s.closeEnds.conns (.joinee c) = (s.conns (.joinee c)).close := by
  unfold closeEnds
  rw [h]
  exact setConn_self ..

/-- what follows a send holds when it holds however the send comes out -/
theorem send_cases {Q : Stream → Prop} {w : Who} {o : Piece} {waits : Stream → Stream}
    {fin : Sent → Stream → Stream}
    (hw : ∀ k, (s.conns w).send o = (k, .waits) → Q (waits (s.setConn w k)))
    (hf : ∀ k r, (s.conns w).send o = (k, r) → r ≠ .waits → Q (fin r (s.setConn w k))) :
    Q (s.send w o waits fin) := by
  unfold send
  rcases hk : (s.conns w).send o with ⟨k, r⟩
  cases r with
  | waits => exact hw k hk
  | ok => exact hf k .ok hk (by decide)
  | raised => exact hf k .raised hk (by decide)

end Stream

/-- a frame that was sent is the frame that is read -/
theorem tcpRead_frame (t : UInt8) {p : Bytes} (h : 1 + p.length ≤ 8 * 1024 * 1024) (b : Bytes) :
    tcpRead (frame t p ++ b) = .frame t p b := by
  have hs : frame t p ++ b = packI (1 + p.length) ++ (t :: p ++ b) := by
    rw [frame, List.append_assoc]
  have ht : (frame t p ++ b).take 4 = packI (1 + p.length) := by
    rw [hs]
    exact List.take_left' rfl
  have hd : (frame t p ++ b).drop 4 = t :: p ++ b := by
    rw [hs]
    exact List.drop_left' rfl
  have hu : unpackI (packI (1 + p.length)) = some (1 + p.length) := by
    rw [unpackI_packI, Nat.mod_eq_of_lt (by omega)]
  have hlen : (t :: p).length = 1 + p.length := by
    rw [List.length_cons, Nat.add_comm]
  unfold tcpRead
  rw [ht, hd, hu]
  dsimp only
  rw [if_neg (by omega), if_neg (by rw [List.length_append, hlen]; omega), List.take_left' hlen,
    List.drop_left' hlen]

/-! ## what happens to a connection -/

namespace Tcp

/-- more bytes than the kernel took are raw bytes -/
structure Wf (k : Tcp) : Prop where
  paused : k.paused = true → k.backlog = true
  backlog : k.backlog = true → rawOf k.out ≠ []

/-- nothing is written any more -/
def Stopped (k : Tcp) : Prop := k.gone = true ∨ k.wEof = true

/-- `k` becomes `k'`, and `l` is what was written meanwhile -/
structure Grows (k : Tcp) (l : List Piece) (k' : Tcp) : Prop where
  out : k'.out = k.out ++ l
  closing : k.closing = true → k'.closing = true
  gone : k.gone = true → k'.gone = true ∧ l = []
  wEof : k.wEof = true → k'.wEof = true ∧ l = []
  wf : k.Wf → k'.Wf

theorem rawOf_append (l l' : List Piece) : rawOf (l ++ l') = rawOf l ++ rawOf l' :=
  List.flatMap_append ..

theorem gone_iff {k : Tcp} : k.gone = true ↔ k.closing = true ∧ k.backlog = false := by
  simp [gone]

theorem grows_refl (k : Tcp) : Grows k [] k where
  out := (List.append_nil _).symm
  closing h := h
  gone h := ⟨h, rfl⟩
  wEof h := ⟨h, rfl⟩
  wf h := h

theorem grows_close (k : Tcp) : Grows k [] k.close where
  out := (List.append_nil _).symm
  closing _ := rfl
  gone h := ⟨by simp [gone_iff.mp h, gone, close], rfl⟩
  wEof h := ⟨h, rfl⟩
  wf h := ⟨h.paused, h.backlog⟩

theorem grows_write_eof (k : Tcp) : Grows k [] k.write_eof := by
  unfold write_eof
  split
  · exact grows_refl k
  · exact ⟨(List.append_nil _).symm, fun h => h, fun h => ⟨h, rfl⟩, fun _ => ⟨rfl, rfl⟩,
      fun h => ⟨h.paused, h.backlog⟩⟩

/-- what was read is not what was written -/
theorem grows_inb (k : Tcp) (b : Bytes) : Grows k [] { k with inb := b } :=
  ⟨(List.append_nil _).symm, fun h => h, fun h => ⟨h, rfl⟩, fun h => ⟨h, rfl⟩,
    fun h => ⟨h.paused, h.backlog⟩⟩

theorem grows_net {k k' : Tcp} {e : Ev} (h : k.net e = some k') : Grows k [] k' := by
  cases e with
  | arrive d =>
    obtain ⟨-, h⟩ := Option.ite_none_left_eq_some.mp h
    rw [← Option.some.inj h]
    exact ⟨(List.append_nil _).symm, fun h => h, fun h => ⟨h, rfl⟩, fun h => ⟨h, rfl⟩,
      fun h => ⟨h.paused, h.backlog⟩⟩
  | fin =>
    obtain ⟨-, h⟩ := Option.ite_none_left_eq_some.mp h
    rw [← Option.some.inj h]
    exact ⟨(List.append_nil _).symm, fun h => h, fun h => ⟨h, rfl⟩, fun h => ⟨h, rfl⟩,
      fun h => ⟨h.paused, h.backlog⟩⟩
  | die =>
    rw [← Option.some.inj h]
    exact ⟨(List.append_nil _).symm, fun h => h, fun h => ⟨h, rfl⟩, fun h => ⟨h, rfl⟩,
      fun h => ⟨h.paused, h.backlog⟩⟩
  | fatal =>
    rw [← Option.some.inj h]
    exact ⟨(List.append_nil _).symm, fun _ => rfl, fun _ => ⟨rfl, rfl⟩, fun h => ⟨h, rfl⟩,
      fun _ => ⟨fun h => h, nofun⟩⟩
  | lost e =>
    obtain ⟨hc, h⟩ := Option.ite_none_right_eq_some.mp h
    rw [← Option.some.inj h]
    exact ⟨(List.append_nil _).symm, fun h => h, fun _ => ⟨by simp [gone, hc], rfl⟩,
      fun h => ⟨h, rfl⟩, fun _ => ⟨nofun, nofun⟩⟩
  | buffer b p =>
    obtain ⟨hb, h⟩ := Option.ite_none_left_eq_some.mp h
    rw [← Option.some.inj h]
    refine ⟨(List.append_nil _).symm, fun h => h, fun hg => ⟨?_, rfl⟩, fun h => ⟨h, rfl⟩,
      fun _ => ⟨?_, ?_⟩⟩
    · obtain ⟨h1, h2⟩ := gone_iff.mp hg
      have hb' : b = false := by simp_all
      simp [gone, h1, hb']
    · intro hp
      simp_all
    · intro hb' he
      simp_all

/-- the piece is written, or nothing is any more: then the send does not come back well, and the
transport is done for if it waits -/
theorem grows_send {k k' : Tcp} {o : Piece} {r : Sent} (h : k.send o = (k', r)) :
    Grows k [] k' ∧ r ≠ .ok ∧ (r = .waits → k'.gone = true) ∧ k'.Stopped ∨
    Grows k [o] k' ∧ (r = .waits → k.closing = true ∨ k.paused = true) := by
  unfold send at h
  by_cases hw : k.wEof = true
  · rw [if_pos hw] at h
    obtain ⟨rfl, rfl⟩ := Prod.mk.inj h
    exact Or.inl ⟨grows_refl k, by decide, nofun, Or.inr hw⟩
  rw [if_neg hw] at h
  by_cases hg : k.gone = true
  · rw [if_pos hg] at h
    obtain ⟨rfl, rfl⟩ := Prod.mk.inj h
    exact Or.inl ⟨grows_refl k, by split <;> decide, fun _ => hg, Or.inl hg⟩
  rw [if_neg hg] at h
  by_cases hd : (k.dead && !k.backlog) = true
  · rw [if_pos hd] at h
    obtain ⟨rfl, rfl⟩ := Prod.mk.inj h
    have hb : k.backlog = false := by simp_all
    refine Or.inl ⟨⟨(List.append_nil _).symm, fun _ => rfl, fun h => absurd h hg,
      fun h => absurd h hw, fun h => ⟨nofun, h.backlog⟩⟩, by decide, fun _ => ?_, Or.inl ?_⟩ <;>
      simp [gone, hb]
  · rw [if_neg hd] at h
    obtain ⟨rfl, hr⟩ := Prod.mk.inj h
    refine Or.inr ⟨⟨rfl, fun h => h, fun h => absurd h hg, fun h => absurd h hw,
      fun h => ⟨h.paused, ?_⟩⟩, ?_⟩
    · intro hb
      rw [rawOf_append]
      exact List.append_ne_nil_of_left_ne_nil (h.backlog hb) _
    · intro he
      rw [he] at hr
      by_cases hx : k.exc.isSome = true
      · simp [hx] at hr
      · by_cases hc : k.closing = true <;> simp_all

end Tcp

end ShadowLan
