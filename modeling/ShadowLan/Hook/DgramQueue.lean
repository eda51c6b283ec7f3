import ShadowLan.Hook.GameUdp
import ShadowLan.Lib.DropQueue

/-!
# The datagram queues under their lock

The rows of `g_uq` once more, this time with the lock: `dt_direct_udp_in` and
`dt_dispatch_bcast_from` let it go in the middle of their scan to ask for the port of the socket
that they have come to, and meanwhile rows are freed and taken again.

* `QRow`              a row with its list, its tail and its counter;
* `Sock`              a socket of the operating system: a number that is used again starts a new life;
* `Scan`              a producer that has let go of the lock;
* `step`              one locked section, or one call of the operating system;
* `Meant`             who a datagram is addressed to, by the open sockets alone;
* `BoundedFifo`       what a reader is promised.

Beside what the code keeps, the state records which datagrams came for a life, what its readers
got, what waited as it was closed, and what was lost.
-/

namespace ShadowLan

/-- whom a datagram is addressed to -/
inductive Addressee where
  /-- the socket that `dt_udp_push` names -/
  | sock (n : Nat)
  /-- the datagram sockets on a port -/
  | port (p : Nat)
  deriving DecidableEq

/-- a queued datagram, with the call of a producer that it came with and its addressee -/
structure Msg where
  call : Nat
  dst : Addressee
  dg : Dgram
  deriving DecidableEq

/-- `struct dt_udp`; `t` says whether the tail is set -/
structure QRow where
  used : Bool
  gsock : Nat
  h : List Msg
  t : Bool
  nq : Int
  closed : Bool
  vport : Nat
  deriving DecidableEq

/-- `if (e->t) e->t->next = d; else e->h = d; e->t = d; e->nq++` -/
def QRow.append (e : QRow) (m : Msg) : QRow :=
  { e with h := if e.t then e.h ++ [m] else [m], t := true, nq := e.nq + 1 }

/-- the head is taken off; the tail is reset when nothing is left -/
def QRow.pop (e : QRow) : QRow :=
  { e with h := e.h.tail, t := if e.h.tail = [] then false else e.t, nq := e.nq - 1 }

/-- the row part of `dt_on_close`: the counter is left alone -/
def QRow.free (e : QRow) : QRow :=
  { e with closed := true, used := false, h := [], t := false }

/-- a socket of the operating system; `live` until the app has closed it -/
structure Sock where
  life : Nat
  live : Bool
  port : Nat
  dgram : Bool
  deriving DecidableEq

/-- the app has closed it -/
def Sock.shut (k : Sock) : Sock := { k with live := false }

/-- what a reader got, with the size of its buffer -/
structure Reading where
  call : Nat
  got : Dgram
  blen : Nat
  deriving DecidableEq

/-- the reading is of this datagram, cut to the buffer -/
def Reading.Of (r : Reading) (m : Msg) : Prop :=
  r.call = m.call ∧ r.got.src = m.dg.src ∧ r.got.data = m.dg.data.take r.blen

/-- what the scan has found out since it let go of the lock -/
inductive Stage where
  | looked
  /-- `bp` and `dg` of the source; the port is negative when `getsockname` fails -/
  | asked (bp : Int) (dgram : Bool)
  deriving DecidableEq

/-- a datagram lost on its way in: the life that it came for, if any, and the counter of its row,
`none` without a row -/
structure Lost where
  life : Option Nat
  msg : Msg
  nq : Option Int
  deriving DecidableEq

/-- a producer that scans the table and holds no lock -/
structure Scan where
  /-- `dt_direct_udp_in`; else `dt_dispatch_bcast_from` -/
  direct : Bool
  port : Nat
  dg : Dgram
  row : Fin DT_MAXUDP
  gs : Nat
  aliased : Nat
  /-- the life that the number had as the lock was let go -/
  life : Option Nat
  stage : Stage

/-- the datagram that the scan of call `k` brings -/
def Scan.msg (c : Scan) (k : Nat) : Msg := ⟨k, .port c.port, c.dg⟩

structure Queues where
  g_uq : Fin DT_MAXUDP → QRow
  socks : Nat → Option Sock
  /-- lives and calls so far; the next ones take these numbers -/
  lives : Nat
  calls : Nat
  /-- the scans under way, by their call -/
  scans : Nat → Option Scan
  /-- what came for a life, and what its readers got -/
  arrived : Nat → List Msg
  popped : Nat → List Reading
  /-- what waited for a life as the app closed it -/
  unread : Nat → List Msg
  drops : List Lost
  /-- for each new life: what waited under its number -/
  births : List (List Msg)

namespace Queues

def init : Queues where
  g_uq := fun _ => ⟨false, 0, [], false, 0, false, 0⟩
  socks := fun _ => none
  lives := 0
  calls := 0
  scans := fun _ => none
  arrived := fun _ => []
  popped := fun _ => []
  unread := fun _ => []
  drops := []
  births := []

variable (s : Queues)

/-- the life of a number that the app has not closed -/
def lifeOf (n : Nat) : Option Nat := (s.socks n).bind fun k => if k.live then some k.life else none

/-- `dt_bound_port` -/
def boundPort (n : Nat) : Int := (s.socks n).elim (-1) fun k => k.port

/-- `dt_sock_type(gs) == SOCK_DGRAM` -/
def isDgram (n : Nat) : Bool := (s.socks n).elim false Sock.dgram

/-- `dt_udp_entry(s, 0)` -/
def entry (n : Nat) : Option (Fin DT_MAXUDP) := first s.g_uq fun e => e.used && e.gsock == n

/-- `dt_udp_entry(s, 1)` -/
def create (n : Nat) : Queues × Option (Fin DT_MAXUDP) :=
  let r := claim s.g_uq (fun e => e.used && e.gsock == n) (fun e => !e.used)
    fun _ => ⟨true, n, [], false, 0, false, 0⟩
  ({ s with g_uq := r.1 }, r.2)

def setRow (j : Fin DT_MAXUDP) (e : QRow) : Queues := { s with g_uq := Function.update s.g_uq j e }

/-- what waits under a number -/
def waiting (n : Nat) : List Msg := (s.entry n).elim [] fun j => (s.g_uq j).h

/-- a datagram has come for this life -/
def arrive (life : Option Nat) (m : Msg) : Queues :=
  life.elim s fun l => { s with arrived := Function.update s.arrived l (s.arrived l ++ [m]) }

/-- the end of all three producers: the row is full, or there is no memory, or it takes the datagram -/
def offer (life : Option Nat) (j : Fin DT_MAXUDP) (m : Msg) (mem : Bool) : Queues :=
  if (s.g_uq j).nq ≥ DT_MAXQ ∨ mem = false then
    { s with drops := s.drops ++ [⟨life, m, some (s.g_uq j).nq⟩] }
  else s.setRow j ((s.g_uq j).append m)

/-- what was lost of what came for a life -/
def lost (l : Nat) : List Msg := (s.drops.filter fun x => x.life = some l).map Lost.msg

/-- `dt_udp_push` -/
def push (n : Nat) (d : Dgram) (mem : Bool) : Queues :=
  let m : Msg := ⟨s.calls, .sock n, d⟩
  let (t, j?) := ({ s with calls := s.calls + 1 }.arrive (s.lifeOf n) m).create n
  match j? with
  | some j => if (t.g_uq j).closed then t else t.offer (s.lifeOf n) j m mem
  | none => { t with drops := t.drops ++ [⟨s.lifeOf n, m, none⟩] }

/-- `dt_udp_pop`; what the reader got goes to the life that has the number -/
def pop (n blen : Nat) : Queues :=
  match s.entry n with
  | none => s
  | some j =>
    match (s.g_uq j).h with
    | [] => s
    | m :: _ =>
      let t := s.setRow j (s.g_uq j).pop
      match s.lifeOf n with
      | none => t
      | some l =>
        let r : Reading := ⟨m.call, ⟨m.dg.data.take blen, m.dg.src⟩, blen⟩
        { t with popped := Function.update s.popped l (s.popped l ++ [r]) }

/-- the row that the scan comes to next -/
def nextRow (i : Nat) : Option (Fin DT_MAXUDP) :=
  first (fun j : Fin DT_MAXUDP => (j.val, s.g_uq j)) fun x => i ≤ x.1 && x.2.used && !x.2.closed

/-- the scan goes on at row `i` until it lets go of the lock, or ends -/
def look (direct : Bool) (port : Nat) (dg : Dgram) (i : Nat) : Option Scan :=
  (s.nextRow i).map fun j =>
    ⟨direct, port, dg, j, (s.g_uq j).gsock, (s.g_uq j).vport, s.lifeOf (s.g_uq j).gsock, .looked⟩

/-- a producer begins to scan -/
def begin (direct : Bool) (port : Nat) (dg : Dgram) : Queues :=
  { s with
    calls := s.calls + 1
    scans := Function.update s.scans s.calls (s.look direct port dg 0) }

/-- the scan asks the operating system, without the lock -/
def ask (c : Scan) : Scan :=
  { c with
    stage := .asked
      (if c.direct ∧ c.aliased ≠ 0 then c.aliased else s.boundPort c.gs) (s.isDgram c.gs) }

/-- The row that the scan takes its answers for, when they match.  `dt_direct_udp_in` goes on with
row `i`; `dt_dispatch_bcast_from` looks the number up again. -/
def target (c : Scan) : Option (Fin DT_MAXUDP) :=
  match c.stage with
  | .looked => none
  | .asked bp dgram =>
    if c.direct then
      if (s.g_uq c.row).used ∧ (s.g_uq c.row).closed = false ∧ dgram ∧ bp = c.port then some c.row
      else none
    else
      (s.entry c.gs).filter fun j =>
        (if (s.g_uq j).vport ≠ 0 then ((s.g_uq j).vport : Int) else bp) = c.port

/-- the life that a scan brings its datagram to: the socket that it let go of the lock with, if that
was not closed meanwhile and takes datagrams -/
def forLife (c : Scan) : Option Nat :=
  if s.lifeOf c.gs = c.life ∧ s.isDgram c.gs = true then c.life else none

/-- the scan has the lock again: it delivers and goes on -/
def deliver (k : Nat) (c : Scan) (mem : Bool) : Queues :=
  let t := match s.target c with
    | none => s
    | some j => (s.arrive (s.forLife c) (c.msg k)).offer (s.forLife c) j (c.msg k) mem
  { t with scans := Function.update t.scans k (t.look c.direct c.port c.dg (c.row + 1)) }

end Queues

inductive QueueAct where
  /-- `socket()` gives a free number -/
  | socket (n : Nat) (dgram : Bool)
  /-- the real `bind` of a socket of the app; the system binds a socket once -/
  | bind (n port : Nat)
  /-- the calls that make a row: `recvfrom`, `sendto`, `bind` and the waits -/
  | ensure (n : Nat)
  /-- a bind that presents the port `v`; no bind presents port 0 -/
  | bindAlias (n v : Nat)
  | push (n : Nat) (d : Dgram) (mem : Bool)
  | pop (n blen : Nat)
  /-- `dt_on_close` -/
  | onClose (n : Nat)
  /-- the real `close` behind it -/
  | close (n : Nat)
  | directIn (gport : Nat) (ip raw : Bytes)
  /-- `virt` is what `dt_node_virt` says of the sender, 0 for nobody -/
  | bcastIn (virt fakeip port sport : Nat) (raw : Bytes)
  /-- the scan of call `k` asks for port and type -/
  | ask (k : Nat)
  /-- the scan of call `k` takes the lock again; `mem`: `malloc` succeeds -/
  | deliver (k : Nat) (mem : Bool)

namespace Queues

/-- `dt_direct_udp_in` up to its scan: it wants an address and not too many bytes -/
def directSrc (gport : Nat) (ip raw : Bytes) : Option SockaddrIn :=
  if ip = [] ∨ 64 ≤ ip.length ∨ 65000 < raw.length then none
  else (inetAddr ip).map fun addr => ⟨addr, gport⟩

/-- the source that `dt_dispatch_bcast_from` shows -/
def fakeSrc (virt fakeip port sport : Nat) : SockaddrIn :=
  ⟨if virt ≠ 0 then virt else fakeip, if 0 < sport then sport else port⟩

def step (s : Queues) : QueueAct → Option Queues
  | .socket n dgram =>
    if (s.socks n).isSome then none
    else some { s with
      socks := Function.update s.socks n (some ⟨s.lives, true, 0, dgram⟩)
      lives := s.lives + 1
      births := s.births ++ [s.waiting n] }
  | .bind n port =>
    match s.socks n with
    | none => none
    | some k =>
      if k.port ≠ 0 then none
      else some { s with socks := Function.update s.socks n (some { k with port := port }) }
  | .ensure n => some (s.create n).1
  | .bindAlias n v =>
    let t := (s.create n).1
    if v = 0 then none
    else some ((s.create n).2.elim t fun j => t.setRow j { t.g_uq j with vport := v })
  | .push n d mem => some (s.push n d mem)
  | .pop n blen => some (s.pop n blen)
  | .onClose n =>
    let t := (s.entry n).elim s fun j => s.setRow j (s.g_uq j).free
    some { t with
      socks := Function.update s.socks n ((s.socks n).map Sock.shut)
      unread := (s.lifeOf n).elim s.unread fun l => Function.update s.unread l (s.waiting n) }
  | .close n =>
    match s.socks n with
    | none => none
    | some k => if k.live then none else some { s with socks := Function.update s.socks n none }
  | .directIn gport ip raw =>
    some ((directSrc gport ip raw).elim s fun src => s.begin true gport ⟨raw, src⟩)
  | .bcastIn virt fakeip port sport raw =>
    some (s.begin false port ⟨raw, fakeSrc virt fakeip port sport⟩)
  | .ask k =>
    match s.scans k with
    | none => none
    | some c =>
      if c.stage = .looked then some { s with scans := Function.update s.scans k (some (s.ask c)) }
      else none
  | .deliver k mem =>
    match s.scans k with
    | none => none
    | some c => if c.stage = .looked then none else some (s.deliver k c mem)

/-! ## what is promised -/

/-- the port that a row presents: its virtual port, or else the port that its socket is bound to -/
def presents (s : Queues) (j : Fin DT_MAXUDP) : Int :=
  if (s.g_uq j).vport ≠ 0 then (s.g_uq j).vport else s.boundPort (s.g_uq j).gsock

/-- the row is the one of this life, an open datagram socket that presents the port -/
structure Listens (s : Queues) (j : Fin DT_MAXUDP) (l : Nat) (p : Int) : Prop where
  used : (s.g_uq j).used = true
  live : s.lifeOf (s.g_uq j).gsock = some l
  dgram : s.isDgram (s.g_uq j).gsock = true
  port : s.presents j = p

/-- an addressee takes in the life: the socket itself, or an open datagram socket with a row that
presents the port -/
def Meant (s : Queues) (l : Nat) : Addressee → Prop
  | .sock n => s.lifeOf n = some l
  | .port p => ∃ j, s.Listens j l p

/-- the addressee and the datagram of a call that a producer makes -/
def makes : QueueAct → Option (Addressee × Dgram)
  | .push n d _ => some (.sock n, d)
  | .directIn gport ip raw => (directSrc gport ip raw).map fun src => (.port gport, ⟨raw, src⟩)
  | .bcastIn virt fakeip port sport raw => some (.port port, ⟨raw, fakeSrc virt fakeip port sport⟩)
  | _ => none

/-- a state of the run in which the call is made or under way -/
def During (tr : List (Queues × QueueAct)) (k : Nat) (u : Queues) : Prop :=
  ∃ a, (u, a) ∈ tr ∧ (((makes a).isSome ∧ u.calls = k) ∨ (u.scans k).isSome)

/-- Who gets a datagram: only a life that it was addressed to at some moment of its call, and every
life that it was addressed to all the time until the call was over. -/
structure Addressed (tr : List (Queues × QueueAct)) (t : Queues) : Prop where
  own : ∀ l, ∀ m ∈ t.arrived l,
    (∃ x ∈ tr, x.1.calls = m.call ∧ makes x.2 = some (m.dst, m.dg)) ∧
      ∃ u, During tr m.call u ∧ u.Meant l m.dst
  all : ∀ x ∈ tr, ∀ d, makes x.2 = some d → t.scans x.1.calls = none →
    ∀ l, (∀ u, During tr x.1.calls u → u.Meant l d.1) → ⟨x.1.calls, d.1, d.2⟩ ∈ t.arrived l

/-- Every queue is a bounded FIFO that drops what is new. -/
structure BoundedFifo (s : Queues) : Prop where
  count : ∀ i, (s.g_uq i).used = true →
    (s.g_uq i).nq = (s.g_uq i).h.length ∧ (s.g_uq i).nq ≤ DT_MAXQ
  one : ∀ i j, (s.g_uq i).used = true → (s.g_uq j).used = true →
    (s.g_uq i).gsock = (s.g_uq j).gsock → i = j
  /-- what came for a life was read or waits, in order, or was lost -/
  fifo : ∀ i l, (s.g_uq i).used = true → s.lifeOf (s.g_uq i).gsock = some l →
    InOrder Reading.Of (s.arrived l) (s.popped l) (s.g_uq i).h (s.lost l)
  /-- the same without a row: what is unread was left as the socket was closed -/
  ended : ∀ l, (∀ i, (s.g_uq i).used = true → s.lifeOf (s.g_uq i).gsock ≠ some l) →
    InOrder Reading.Of (s.arrived l) (s.popped l) (s.unread l) (s.lost l)
  /-- no call comes twice for a life -/
  once : ∀ l, ((s.arrived l).map Msg.call).Nodup
  /-- what was lost had a full row -/
  dropNew : ∀ x ∈ s.drops, x.nq = some (DT_MAXQ : Int)
  reused : ∀ q ∈ s.births, q = []

end Queues

end ShadowLan
