import ShadowLan.Wire.Bytes

/-!
# The datagrams of the UDP tunnel

Encoders and decoders of `common.py` for the datagrams that the hooks and the relay exchange.
Every datagram starts with `UMAGIC`, `UVER` and an op.  A decoder returns `none` where the source
returns `None`.

* `decodeUdpGame`, `encodeUdpGame`   C2S and S2C: `!H game_port  !H iplen  ip  !H port  raw`;
* `decodePdat`                       P2P: the same behind `!I dest_node`;
* `decodeNode`, `decodeCtlNode`, `decodeUdpNode`   the registration frame on its three carriers;
* `decodeIcmp`, `encodeIcmp`         `!I src  !I dest  !H id  !H seq  data`.
-/

namespace ShadowLan

def UMAGIC : Bytes := [0x56, 0x4E]
def UVER : UInt8 := 3
def PVER : UInt8 := 0x03

def U_GAME_C2S : UInt8 := 0x01
def U_GAME_S2C : UInt8 := 0x02
def U_GAME_P2P : UInt8 := 0x03
def U_NODE : UInt8 := 0x04
def U_ICMP_REQ : UInt8 := 0x05
def U_ICMP_REP : UInt8 := 0x06

/-- bit `NODE_F_HOST` of the registration flags -/
def isHostFlag (flags : Nat) : Bool := flags % 2 = 1

/-- the test every UDP decoder starts with -/
def udpHeaderOk (data : Bytes) (n : Nat) : Bool :=
  n ≤ data.length && slice data 0 2 == UMAGIC && data.getD 2 0 == UVER

/-- the op of a datagram -/
def udpOp (data : Bytes) : UInt8 := data.getD 3 0

/-! ## game datagrams -/

/-- what the routing of a game datagram reads: the triple `(game_port, ip, port)` -/
structure Triple where
  gport : Nat
  ip : Bytes
  cport : Nat
  deriving DecidableEq, Repr

structure UdpGame where
  triple : Triple
  raw : Bytes
  deriving DecidableEq, Repr

/-- triple and payload from offset `o` on -/
def decodeGameAt (data : Bytes) (o : Nat) : Option UdpGame := do
  let gport ← unpackH (slice data o (o + 2))
  let iplen ← unpackH (slice data (o + 2) (o + 4))
  let ip ← decodeText (slice data (o + 4) (o + 4 + iplen))
  let cport ← unpackH (slice data (o + 4 + iplen) (o + 6 + iplen))
  return ⟨⟨gport, ip, cport⟩, data.drop (o + 6 + iplen)⟩

def encodeUdpGame (mtype : UInt8) (g : UdpGame) : Bytes :=
  UMAGIC ++ [UVER, mtype] ++ packH g.triple.gport ++ packH g.triple.ip.length ++ g.triple.ip
    ++ packH g.triple.cport ++ g.raw

def decodeUdpGame (data : Bytes) : Option UdpGame :=
  if udpHeaderOk data 6 then decodeGameAt data 4 else none

/-- the destination node, and the game datagram behind it -/
def decodePdat (data : Bytes) : Option (Nat × UdpGame) := do
  if udpHeaderOk data 10 && udpOp data == U_GAME_P2P then
    let dest ← unpackI (slice data 4 8)
    let g ← decodeGameAt data 8
    return (dest, g)
  else none

/-! ## registration -/

structure NodeFrame where
  token : Bytes
  node : Nat
  udpPort : Nat
  flags : Nat
  deriving DecidableEq, Repr

def decodeNode (payload : Bytes) : Option NodeFrame := do
  let n ← unpackH (slice payload 0 2)
  if payload.length ≠ 2 + n + 7 then none
  else
    let node ← unpackI (slice payload (2 + n) (6 + n))
    let uport ← unpackH (slice payload (6 + n) (8 + n))
    return ⟨slice payload 2 (2 + n), node, uport, (payload.getD (8 + n) 0).toNat⟩

def ctlVer (payload : Bytes) : UInt8 := payload.headD 0

def decodeCtlNode (payload : Bytes) : Option NodeFrame :=
  if ctlVer payload = PVER then decodeNode (payload.drop 1) else none

def decodeUdpNode (data : Bytes) : Option NodeFrame :=
  if udpHeaderOk data 10 && udpOp data == U_NODE then decodeNode (data.drop 4) else none

/-! ## ICMP -/

structure IcmpFrame where
  mtype : UInt8
  src : Nat
  dest : Nat
  iid : Nat
  seq : Nat
  data : Bytes
  deriving DecidableEq, Repr

def encodeIcmp (f : IcmpFrame) : Bytes :=
  UMAGIC ++ [UVER, f.mtype] ++ packI f.src ++ packI f.dest ++ packH f.iid ++ packH f.seq ++ f.data

def decodeIcmp (data : Bytes) : Option IcmpFrame := do
  if udpHeaderOk data 16 && (udpOp data == U_ICMP_REQ || udpOp data == U_ICMP_REP) then
    let src ← unpackI (slice data 4 8)
    let dest ← unpackI (slice data 8 12)
    let iid ← unpackH (slice data 12 14)
    let seq ← unpackH (slice data 14 16)
    return ⟨udpOp data, src, dest, iid, seq, data.drop 16⟩
  else none

end ShadowLan
