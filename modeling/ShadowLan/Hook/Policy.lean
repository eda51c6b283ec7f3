import ShadowLan.Hook.GameUdp

/-!
# Which address is what

The hook tells destinations apart by its configuration, the membership table the relay assigned, and
the machine's own addresses.  `Policy` is what these tests read, and each test is one function under
its name in the source; addresses are numbers, first octet most significant.

* `virtNode`      the member a virtual address belongs to;
* `isLan`, `isBcast`, `lanTarget`, `isLocal`   the classes of real addresses;
* `rejectWire4`   the verdict of `LAN_ONLY`;
* `Policy.net`    the same for the game's datagrams.

The addresses of the machine are refreshed now and then; here they are the same during one call.
-/

namespace ShadowLan

/-- one row of `g_members` -/
structure VnetMember where
  node : Nat
  virt : Nat
  deriving DecidableEq

structure Policy where
  g_direct : Bool
  g_lan_only : Bool
  g_only_ports : List Nat
  g_node : Nat
  g_myvirt : Nat
  g_members : List VnetMember
  g_vnetb : Nat
  g_vbits : Nat
  g_lips : List Nat

/-- `ipv4_is_loopback` -/
def ipv4IsLoopback (h : Nat) : Bool := h >>> 24 = 127

/-- `ipv4_is_lan` -/
def ipv4IsLan (h : Nat) : Bool :=
  h >>> 24 = 0xFF || h &&& 0xFF000000 = 0x0A000000 || h &&& 0xFFF00000 = 0xAC100000 ||
    h &&& 0xFFFF0000 = 0xC0A80000 || h &&& 0xFFFF0000 = 0xA9FE0000 ||
    h &&& 0xF0000000 = 0xE0000000 || h &&& 0xFF = 0xFF

/-- `ipv4_is_bcast` -/
def ipv4IsBcast (h : Nat) : Bool :=
  h >>> 24 = 0xFF || h &&& 0xF0000000 = 0xE0000000 || h &&& 0xFF = 0xFF

namespace Policy
variable (P : Policy)

/-- `port_allowed` -/
def portAllowed (port : Nat) : Bool := P.g_only_ports = [] || P.g_only_ports.contains port

/-- `sockaddr_is_lan_target` -/
def lanTarget (dst : SockaddrIn) : Bool := P.portAllowed dst.port && ipv4IsLan dst.addr

/-- `ipv4_is_local` -/
def isLocal (h : Nat) : Bool := ipv4IsLoopback h || P.g_lips.contains h

/-- `dt_in_vnet`: the first `g_vbits` bits are those of the virtual network -/
def inVnet (addr : Nat) : Bool :=
  let ab := octets addr
  let vb := octets P.g_vnetb
  let full := P.g_vbits / 8
  let rem := P.g_vbits % 8
  let m := (0xFF <<< (8 - rem)) &&& 0xFF
  P.g_members ≠ [] && 0 < P.g_vbits && P.g_vbits ≤ 32 && vb.take full = ab.take full &&
    (rem = 0 || vb.getD full 0 &&& m = ab.getD full 0 &&& m)

/-- `dt_is_vnet_bcast`: all the other bits are set -/
def isVnetBcast (addr : Nat) : Bool :=
  let ab := octets addr
  let full := P.g_vbits / 8
  let rem := P.g_vbits % 8
  let m := 0xFF >>> rem
  P.inVnet addr && (ab.drop (full + if rem = 0 then 0 else 1)).all (· = 0xFF) &&
    (rem = 0 || ab.getD full 0 &&& m = m)

/-- `dt_virt_node`; 0 is no member -/
def virtNode (addr : Nat) : Nat :=
  if P.inVnet addr ∧ octets P.g_vnetb ≠ octets addr then
    ((P.g_members.find? (·.virt = addr)).map (·.node)).getD 0
  else 0

/-- `dt_node_virt` -/
def nodeVirt (node : Nat) : Nat := ((P.g_members.find? (·.node = node)).map (·.virt)).getD 0

/-- `dt_relay_virt` -/
def relayVirt : Nat := if P.g_members = [] then 0 else P.g_vnetb ||| 1

/-- `dt_is_dial_local` -/
def isDialLocal (vnode : Nat) : Bool := vnode ≠ 0 && vnode = P.g_node

/-- `dt_reject_wire4` -/
def rejectWire4 (dst : SockaddrIn) : Bool :=
  P.g_lan_only && !P.isLocal dst.addr && P.virtNode dst.addr = 0 && !P.lanTarget dst

/-- the policy as the datagram hooks read it -/
def net : Net where
  g_myvirt := P.g_myvirt
  g_lan_only := P.g_lan_only
  machineIp := P.g_lips.head?.map dotted
  virtNode := P.virtNode
  isLocal := P.isLocal
  isBcast := ipv4IsBcast
  lanTarget := P.lanTarget

theorem isLocal_loopback : P.isLocal INADDR_LOOPBACK = true := by
  unfold isLocal
  rw [show ipv4IsLoopback INADDR_LOOPBACK = true by decide, Bool.true_or]

/-- the two readings of the verdict agree on what is neither local nor a LAN target -/
theorem rejectWire4_net {dst : SockaddrIn} (hl : P.isLocal dst.addr = false)
    (ht : P.lanTarget dst = false) {s : UdpHook} (hs : s.net = P.net) :
    s.rejectWire4 dst = P.rejectWire4 dst := by
  unfold UdpHook.rejectWire4 rejectWire4
  rw [hs, hl, ht]
  simp [net, beq_eq_decide]

end Policy

end ShadowLan
