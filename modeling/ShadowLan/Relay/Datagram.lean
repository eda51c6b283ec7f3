import ShadowLan.Lib.Runs
import ShadowLan.Relay.Nodes

/-!
# The UDP tunnel of the relay

`handleUdpPayload` is one datagram from one source address: what the relay's tables become and
what it transmits.  A destination is a name, and `udpSendto` finds out at the end whether the name
leads to a plain UDP send or to a frame `T_UDP_TUN` on a control connection.  A `T_UDP_TUN` frame
is droppable, so `r_send` never suspends for it and a datagram is handled in one go; the frames
that a backed up control queue refuses are counted here as transmitted.

* `handleP2p`, `handleIcmp`, `handleS2c`, `handleC2s`, `handleNode`   the branches;
* `step`                                                              the relay's events.
-/

namespace ShadowLan

/-- one transmission -/
inductive Out where
  | sendto (data : Bytes) (addr : Addr)
  | tun (w : Writer) (data : Bytes)
  deriving DecidableEq, Repr

/-- the tables of flows and of sticky repliers are emptied when they outgrow this -/
def TABLE_MAX : Nat := 2048

namespace Relay
variable (s : Relay)

/-! ## sending -/

/-- the control connection that stands for this endpoint, when it is in UDP-over-TCP mode -/
def carrier (addr : Addr) : Option Writer := do
  let nid ← s.nodeByUdpAddr addr
  let x ← s.linkWriterForAddr nid addr
  if x.2.udp_tcp && !s.isClosing x.1 then some x.1 else none

def isLink (w : Writer) : Bool := s.allLinks.any fun x => x.writer = w

def udpSendto (data : Bytes) (addr : Addr) : List Out :=
  match addr with
  | .tcp w => if s.isLink w && !s.isClosing w then [.tun w data] else []
  | .udp _ _ =>
    match s.carrier addr with
    | some w => [.tun w data]
    | none => [.sendto data addr]

def sendAll (data : Bytes) (addrs : List Addr) : List Out := addrs.flatMap (s.udpSendto data)

/-! ## destinations -/

def portAllowed (gport : Nat) : Bool := s.allowed_udp = [] || gport ∈ s.allowed_udp

/-- the endpoints of a node, the source left out -/
def targetsOf (dest : Nat) (src : Addr) : List Addr := (s.nodeUdpAddrs dest).filter (· ≠ src)

/-- the known endpoints, then the links in UDP-over-TCP mode; the source left out by its name -/
def fanOut (src : Addr) : List Addr :=
  let known := s.known_udp.items.filter fun e => e.1 ≠ src && s.isFresh e.2 KNOWN_TTL
  let tunnels := s.allLinks.filter fun x => x.link.udp_tcp && Addr.tcp x.writer ≠ src
  collect (known.map Prod.fst) (tunnels.map fun x => .tcp x.writer)

/-- the sticky replier of this sender, when it may still be used -/
def sticky (gport : Nat) (src : Addr) : Option Addr :=
  match s.learned.get? (src, gport) with
  | none => none
  | some (addr, seen) => if s.isFresh seen LEARN_TTL && addr ≠ src then some addr else none

def udpTargets (gport : Nat) (src : Addr) : Relay × List Addr :=
  match s.sticky gport src with
  | some addr => (s, [addr])
  | none => ({ s with learned := s.learned.pop (src, gport) }, s.fanOut src)

/-! ## flows -/

def setFlow (tag : DestTag) (t : Triple) (player : Addr) : Relay :=
  { s with udp_flows := s.udp_flows.set (tag, t) ⟨player, s.clock⟩ }

/-- a reply keeps its flow alive -/
def touchFlow (k : DestTag × Triple) (player : Addr) : Relay :=
  { s with udp_flows := s.udp_flows.set k ⟨player, s.clock⟩ }

def trimFlows : Relay :=
  if s.udp_flows.size > TABLE_MAX then { s with udp_flows := .empty } else s

def learn (player : Addr) (gport : Nat) (replier : Addr) : Relay :=
  let learned := s.learned.set (player, gport) (replier, s.clock)
  { s with learned := if learned.size > TABLE_MAX then .empty else learned }

/-- the flow a reply belongs to: of its endpoint, else of its node, else the freshest with the
same triple -/
def flowFor (addr : Addr) (t : Triple) : Option ((DestTag × Triple) × Flow) :=
  let at? tag := (s.udp_flows.get? (tag, t)).map fun fl => ((tag, t), fl)
  ((at? (.a addr)).or ((s.nodeByUdpAddr addr).bind fun nid => at? (.n nid))).or
    (freshest (fun e => e.1.2 = t && s.isFresh e.2.seen FLOW_TTL) (fun e => e.2.seen)
      s.udp_flows.items)

/-! ## the branches of `handle_udp_payload` -/

/-- the link of a node that a `U_NODE` datagram is about -/
def bestLink (node : Nat) (addr : Addr) : Option (Writer × Link) :=
  let links := s.nodeLinks node
  let sameIp (x : Writer × Link) : Bool :=
    match addr with
    | .udp ip _ => x.2.tcp_ip = ip
    | .tcp _ => false
  (links.find? fun x => .udp x.2.tcp_ip x.2.udp_port = addr).or
    ((links.find? fun x => sameIp x && x.2.udp_addr = none).or
      ((stalest (fun x => x.2.seen_udp) (links.filter sameIp)).or links.head?))

def handleNode (data : Bytes) (addr : Addr) : Relay :=
  match decodeUdpNode data with
  | none => s
  | some f =>
    if !s.tokenOk f.token then s
    else
      match s.bestLink f.node addr with
      | none => s
      | some x =>
        let s := s.attach f.node x.1 addr
        let s := if isHostFlag f.flags then
            s.updateLink f.node x.1 fun l => { l with host_claim := s.clock }
          else s
        s.noteUdp addr

def handleP2p (data : Bytes) (addr : Addr) : Relay × List Out :=
  match decodePdat data with
  | none => (s, [])
  | some (dest, g) =>
    if !s.portAllowed g.triple.gport then (s, [])
    else
      let first := s.targetsOf dest addr
      let s := if first = [] then s.recordUdpProof addr else s
      let taddrs := if first = [] then s.targetsOf dest addr else first
      if taddrs = [] then (s, [])
      else
        let s := ((s.noteUdp addr).setFlow (.n dest) g.triple addr).trimFlows
        (s, s.sendAll (encodeUdpGame U_GAME_C2S g) taddrs)

/-- the source node of a ping: the node registered for the address, else the one it claims -/
def icmpSource (addr : Addr) (claimed : Nat) : Option Nat :=
  (s.nodeByUdpAddr addr).or (if claimed = 0 then none else some claimed)

def handleIcmp (data : Bytes) (addr : Addr) : Relay × List Out :=
  match decodeIcmp data with
  | none => (s, [])
  | some f =>
    match s.icmpSource addr f.src with
    | none => (s, [])
    | some src =>
      if f.dest = 0 then
        if f.mtype ≠ U_ICMP_REQ then (s, [])
        else
          let s := s.noteUdp addr
          let reply := encodeIcmp { f with mtype := U_ICMP_REP, src := 0, dest := src }
          (s, s.udpSendto reply addr)
      else if f.dest = src then (s, [])
      else
        let taddrs := s.targetsOf f.dest addr
        if taddrs = [] then (s, [])
        else
          let s := s.noteUdp addr
          (s, s.sendAll (encodeIcmp { f with src := src }) taddrs)

def handleS2c (data : Bytes) (addr : Addr) : Relay × List Out :=
  match decodeUdpGame data with
  | none => (s, [])
  | some g =>
    match s.flowFor addr g.triple with
    | none => (s, [])
    | some (k, fl) =>
      if s.clock - fl.seen > FLOW_TTL then (s, [])
      else if fl.player = addr then (s, [])
      else
        let s := (s.touchFlow k fl.player).learn fl.player g.triple.gport addr
        (s, s.udpSendto data fl.player)

def handleC2s (data : Bytes) (addr : Addr) : Relay × List Out :=
  match decodeUdpGame data with
  | none => (s, [])
  | some g =>
    if !s.portAllowed g.triple.gport then (s, [])
    else
      let (s, dests) := (s.noteUdp addr).udpTargets g.triple.gport addr
      if dests = [] then (s, [])
      else
        let s := dests.foldl (fun s dst => s.setFlow (.a dst) g.triple addr) s
        let s := s.trimFlows
        (s, s.sendAll data dests)

def handleUdpPayload (data : Bytes) (addr : Addr) : Relay × List Out :=
  if !udpHeaderOk data 4 then (s, [])
  else if udpOp data = U_NODE then (s.handleNode data addr, [])
  else if udpOp data = U_GAME_P2P then s.handleP2p data addr
  else if udpOp data = U_ICMP_REQ ∨ udpOp data = U_ICMP_REP then s.handleIcmp data addr
  else if udpOp data = U_GAME_S2C then (s.recordUdpProof addr).handleS2c data addr
  else if udpOp data = U_GAME_C2S then (s.recordUdpProof addr).handleC2s data addr
  else (s, [])

end Relay

/-! ## events -/

inductive RelayAct where
  /-- a control connection is accepted -/
  | accept (w : Writer) (ip : String)
  /-- the transport of a served connection starts to close -/
  | close (w : Writer)
  /-- a frame `T_NODE` -/
  | node (w : Writer) (payload : Bytes)
  /-- a frame `T_UDP_MODE` -/
  | udpMode (w : Writer)
  /-- a frame `T_UDP_TUN` -/
  | tun (w : Writer) (payload : Bytes)
  /-- the handler of a connection ends -/
  | gone (w : Writer)
  /-- a datagram on the relay's UDP socket -/
  | datagram (data : Bytes) (ip : String) (port : Nat)
  | tick (d : Nat)

namespace Relay

/-- a frame `T_NODE`; a connection that speaks another version or is refused is dropped -/
def nodeFrame (s : Relay) (w : Writer) (ip : String) (payload : Bytes) : Relay :=
  if ctlVer payload ≠ PVER then s.teardown w
  else
    match decodeCtlNode payload with
    | none => s
    | some f =>
      if f.node = 0 then s
      else
        let (s, ok) := s.registerNode w ip f
        if ok then s else s.teardown w

def tunFrame (s : Relay) (w : Writer) (payload : Bytes) : Relay × List Out :=
  match s.tunAddr w with
  | none => (s, [])
  | some addr => s.handleUdpPayload payload addr

/-- one event.  A new connection gets an `id` that no live writer has; frames are read from a
connection as long as its handler runs, also when its transport is closing. -/
def step (s : Relay) : RelayAct → Option (Relay × List Out)
  | .accept w ip =>
    if (s.players.get? w).isNone && !s.isLink w then
      some ({ s with players := s.players.set w ip, closing := s.closing.filter (· ≠ w) }, [])
    else none
  | .close w => (s.players.get? w).map fun _ => ({ s with closing := w :: s.closing }, [])
  | .node w payload => (s.players.get? w).map fun ip => (s.nodeFrame w ip payload, [])
  | .udpMode w => (s.players.get? w).map fun _ => (s.udpMode w, [])
  | .tun w payload => (s.players.get? w).map fun _ => s.tunFrame w payload
  | .gone w => (s.players.get? w).map fun _ => (s.teardown w, [])
  | .datagram data ip port => some (s.handleUdpPayload data (.udp ip port))
  | .tick d => some ({ s with clock := s.clock + d }, [])

/-- the state after an event -/
def next (s : Relay) (a : RelayAct) : Option Relay := (s.step a).map Prod.fst

/-- reachable from a relay that has just started -/
def Reachable (s : Relay) : Prop :=
  ∃ token allowed subnet clock tr, Path next (init token allowed subnet clock) tr s

end Relay

end ShadowLan
