import ShadowLan.Lib.Dict
import ShadowLan.Lib.Pick
import ShadowLan.Wire.Udp

/-!
# The relay's tables

`Relay` is the part of the relay's state that the UDP tunnel works on: the nodes with their
control links, the known UDP endpoints, the sticky repliers and the flows, with the control
connections that are served at the moment.  A control connection is named by `id(writer)`.

* `nodeByUdpAddr`, `linkWriterForAddr`, `linkEndpoint`, `nodeUdpAddrs`   the lookups;
* `recordUdpProof`                                                       a live endpoint is noted;
* `registerNode`, `udpMode`, `teardown`                                  a link comes and goes.

A handler reads the clock once here; the source reads it several times without an `await` between.
The assignments and beacons that the relay sends on the control links are not in this model.
-/

namespace ShadowLan

/-- `id(writer)` of a control connection -/
abbrev Writer := Nat

/-- where a datagram comes from or goes to: a UDP endpoint, or the identity `("tcp", id(writer))`
of a link in UDP-over-TCP mode -/
inductive Addr where
  | udp (ip : String) (port : Nat)
  | tcp (w : Writer)
  deriving DecidableEq, Repr

/-- the clock counts nanoseconds -/
abbrev second : Nat := 1000000000

def KNOWN_TTL : Nat := 120 * second
def LEARN_TTL : Nat := 60 * second
def FLOW_TTL : Nat := 120 * second
def NODE_TTL : Nat := 600 * second

structure Link where
  tcp_ip : String
  udp_port : Nat
  udp_addr : Option Addr
  seen_udp : Nat
  udp_tcp : Bool
  link_id : Nat
  host_claim : Nat
  deriving DecidableEq, Repr

/-- the endpoint a link declared at registration -/
def Link.declared (l : Link) : Option Addr :=
  if l.udp_port ≠ 0 ∧ l.tcp_ip ≠ "" then some (.udp l.tcp_ip l.udp_port) else none

structure Node where
  virt : Nat
  seen_tcp : Nat
  links : Dict Writer Link

/-- scope of a flow: one endpoint, or one node -/
inductive DestTag where
  | a (addr : Addr)
  | n (node : Nat)
  deriving DecidableEq, Repr

structure Flow where
  player : Addr
  seen : Nat
  deriving DecidableEq, Repr

structure Relay where
  token : Bytes
  /-- empty: every game port is allowed -/
  allowed_udp : List Nat
  subnet_net : Nat
  clock : Nat
  /-- the connections with a running `handle_peer`, and their peer's ip -/
  players : Dict Writer String
  /-- the writers whose transport is closing -/
  closing : List Writer
  nodes : Dict Nat Node
  writer_node : Dict Writer Nat
  known_udp : Dict Addr Nat
  learned : Dict (Addr × Nat) (Addr × Nat)
  udp_flows : Dict (DestTag × Triple) Flow
  udp_tcp : List Writer

/-- a link with the node it is registered for and its writer -/
structure LinkRef where
  node : Nat
  writer : Writer
  link : Link
  deriving DecidableEq, Repr

namespace Relay

def init (token : Bytes) (allowed : List Nat) (subnet clock : Nat) : Relay where
  token := token
  allowed_udp := allowed
  subnet_net := subnet
  clock := clock
  players := .empty
  closing := []
  nodes := .empty
  writer_node := .empty
  known_udp := .empty
  learned := .empty
  udp_flows := .empty
  udp_tcp := []

variable (s : Relay)

def isClosing (w : Writer) : Bool := w ∈ s.closing

/-- younger than its time to live -/
def isFresh (seen ttl : Nat) : Bool := s.clock - seen < ttl

/-- the links of all nodes, in the order the loops over `nodes` and `links` see them -/
def allLinks : List LinkRef :=
  s.nodes.items.flatMap fun e => e.2.links.items.map fun x => ⟨e.1, x.1, x.2⟩

def nodeLinks (nid : Nat) : List (Writer × Link) :=
  match s.nodes.get? nid with
  | none => []
  | some ent => ent.links.items

def link? (nid : Nat) (w : Writer) : Option Link := (s.nodes.get? nid).bind (·.links.get? w)

/-! ## lookups -/

def nodeByUdpAddr (addr : Addr) : Option Nat :=
  match freshest (fun x => x.link.udp_addr = some addr) (fun x => x.link.seen_udp) s.allLinks with
  | some x => some x.node
  | none => (s.allLinks.find? fun x => x.link.declared = some addr).map LinkRef.node

/-- the link of node `nid` with this endpoint; one with a live writer before one without -/
def linkWriterForAddr (nid : Nat) (addr : Addr) : Option (Writer × Link) :=
  let same := (s.nodeLinks nid).filter fun x => x.2.udp_addr = some addr
  (same.find? fun x => !s.isClosing x.1).or same.head?

/-- where a datagram for this link travels to -/
def linkEndpoint (w : Writer) (l : Link) : Option Addr :=
  if l.udp_tcp then some (.tcp w)
  else (l.udp_addr.filter fun _ => s.isFresh l.seen_udp KNOWN_TTL).or l.declared

def nodeUdpAddrs (nid : Nat) : List Addr :=
  collect [] ((s.nodeLinks nid).filterMap fun x => s.linkEndpoint x.1 x.2)

/-! ## changes to links and endpoints -/

def updateLink (nid : Nat) (w : Writer) (f : Link → Link) : Relay :=
  { s with nodes := s.nodes.modify nid fun ent => { ent with links := ent.links.modify w f } }

def noteUdp (addr : Addr) : Relay := { s with known_udp := s.known_udp.set addr s.clock }

/-- the endpoint was just heard from through this link -/
def attach (nid : Nat) (w : Writer) (addr : Addr) : Relay :=
  s.updateLink nid w fun l => { l with udp_addr := some addr, seen_udp := s.clock }

def recordUdpProof (addr : Addr) : Relay :=
  match s.nodeByUdpAddr addr with
  | none => s
  | some node =>
    let links := s.nodeLinks node
    if links.any fun x => x.2.udp_addr = some addr then s.noteUdp addr
    else
      match (links.find? fun x => x.2.udp_addr = none).or (stalest (fun x => x.2.seen_udp) links) with
      | none => s.noteUdp addr
      | some x => (s.attach node x.1 addr).noteUdp addr

/-! ## registration -/

def tokenOk (tok : Bytes) : Bool := s.token = [] || tok = s.token

/-- take a node out, with every writer that is noted for it -/
def dropNode (nid : Nat) : Relay :=
  { s with nodes := s.nodes.pop nid, writer_node := s.writer_node.filter fun e => e.2 ≠ nid }

/-- detach the dead links of a node; forget the node when it has been dark for long -/
def pruneNode (nid : Nat) (ent : Node) : Relay :=
  let dead := ent.links.keys.filter s.isClosing
  let links := dead.foldl Dict.pop ent.links
  let s' := { s with
    nodes := s.nodes.set nid { ent with links := links }
    writer_node := dead.foldl Dict.pop s.writer_node }
  if links.items ≠ [] then s'
  else if s.clock - ent.seen_tcp > NODE_TTL then s'.dropNode nid
  else s'

def pruneNodes : Relay := s.nodes.items.foldl (fun s e => s.pruneNode e.1 e.2) s

/-- the first free host address of the subnet -/
def freeVirt : Option Nat :=
  ((List.range 253).map fun i => s.subnet_net ||| (i + 2)).find? fun v =>
    v ∉ s.nodes.values.map Node.virt

/-- the entry of a node that registers for the first time; `false` when the subnet is full and
every node has a link -/
def newNode (node : Nat) : Relay × Bool :=
  let s := s.pruneNodes
  match s.freeVirt with
  | some v => ({ s with nodes := s.nodes.set node ⟨v, 0, .empty⟩ }, true)
  | none =>
    match stalest (fun e => e.2.seen_tcp) (s.nodes.items.filter fun e => e.2.links.items = []) with
    | none => (s, false)
    | some cand =>
      let s := s.dropNode cand.1
      ({ s with nodes := s.nodes.set node ⟨cand.2.virt, 0, .empty⟩ }, true)

def newLink (w : Writer) (tcpIp : String) (flags : Nat) (links : Dict Writer Link) :
    Dict Writer Link :=
  match links.get? w with
  | some _ => links
  | none =>
    let used := links.values.map Link.link_id
    let free := ((List.range 255).map (· + 1)).find? fun i => i ∉ used
    links.set w
      { tcp_ip := tcpIp, udp_port := 0, udp_addr := none, seen_udp := 0, udp_tcp := false
        link_id := free.getD 255, host_claim := if isHostFlag flags then s.clock else 0 }

/-- a declared port becomes the link's endpoint, unless it is the one declared before -/
def declare (node : Nat) (w : Writer) (tcpIp : String) (port : Nat) : Relay :=
  let s := s.updateLink node w fun l => { l with tcp_ip := tcpIp }
  match s.link? node w with
  | none => s
  | some l =>
    if port ≠ 0 ∧ (l.udp_port ≠ port ∨ l.udp_addr = none) then
      ((s.updateLink node w fun l => { l with udp_port := port }).attach node w
        (.udp tcpIp port)).noteUdp (.udp tcpIp port)
    else s

/-- `T_UDP_MODE` of a connection that has registered -/
def setUdpTcp (node : Nat) (w : Writer) : Relay :=
  s.updateLink node w fun l => { l with udp_tcp := true }

/-- the link of a node that is let in -/
def enter (w : Writer) (tcpIp : String) (f : NodeFrame) : Relay :=
  let s := { s with nodes := s.nodes.modify f.node fun ent =>
    { ent with seen_tcp := s.clock, links := s.newLink w tcpIp f.flags ent.links } }
  let s := s.declare f.node w tcpIp f.udpPort
  let s := { s with writer_node := s.writer_node.set w f.node }
  if w ∈ s.udp_tcp then
    { s.setUdpTcp f.node w with udp_tcp := s.udp_tcp.filter (· ≠ w) }
  else s

/-- `false`: the registration is refused -/
def registerNode (w : Writer) (tcpIp : String) (f : NodeFrame) : Relay × Bool :=
  if !s.tokenOk f.token then (s, false)
  else
    let (s, ok) := if (s.nodes.get? f.node).isNone then s.newNode f.node else (s, true)
    if ok then (s.enter w tcpIp f, true) else (s, false)

/-! ## the other control frames, and the end of a connection -/

def udpMode (w : Writer) : Relay :=
  let s := { s with udp_tcp := if w ∈ s.udp_tcp then s.udp_tcp else s.udp_tcp ++ [w] }
  match s.writer_node.get? w with
  | none => s
  | some node => s.setUdpTcp node w

/-- the source address of a datagram that came as `T_UDP_TUN`; `none` before registration -/
def tunAddr (w : Writer) : Option Addr := do
  let node ← s.writer_node.get? w
  let ent ← s.nodes.get? node
  return ((ent.links.get? w).bind Link.udp_addr).getD (.tcp w)

/-- the `finally` of `handle_peer` -/
def teardown (w : Writer) : Relay :=
  let s' := { s with
    players := s.players.pop w
    udp_tcp := s.udp_tcp.filter (· ≠ w)
    writer_node := s.writer_node.pop w
    closing := if w ∈ s.closing then s.closing else s.closing ++ [w] }
  match s.writer_node.get? w with
  | none => s'
  | some node =>
    { s' with nodes := s'.nodes.modify node fun ent =>
        { ent with links := ent.links.pop w, seen_tcp := s.clock } }

end Relay

end ShadowLan
