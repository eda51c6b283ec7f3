import ShadowLan.Hook.Alias
import ShadowLan.Hook.Slot
import ShadowLan.Lib.Runs
import ShadowLan.Wire.Game
import ShadowLan.Wire.Inet

/-!
# Game datagrams in the hook

The datagram side of one hooked process: the app's `sendto`, `recvfrom` and `close` on game
sockets, the tunnel thread that takes datagrams from the relay (`dt_udp_ingress`), and the hosted
thread that carries the answers of a hosted game back (`dt_hosted_thread`).

* `g_uq`   receive queues, one for a hooked datagram socket;
* `g_sl`   the hosts that sockets of this process have dialed;
* `g_us`   the sessions of players with games hosted here, each on a loopback socket;
* `g_ta`   the alias table.

A call is one step: its locked sections touch different tables, or rows that nobody else changes
in between.  What the operating system answers during a step comes with the step (`Os`), and so
does the verdict of `hk_ports.c` on addresses (`Net`).  Memory is there, and the relay's name
resolves.  Beside what the code keeps, the state records which datagrams went to which host
(`dials`), and what every session was asked with (`asked`).
-/

namespace ShadowLan

abbrev DT_MAXUDP : Nat := 128
abbrev DT_MAXSLOT : Nat := 256
abbrev DT_MAXUSESS : Nat := 64
def DT_MAXQ : Nat := 64
def USESS_IDLE : Nat := 45000
def INADDR_LOOPBACK : Nat := 0x7F000001

/-! ## rows -/

/-- a queued datagram and the source it is shown with -/
structure Dgram where
  data : Bytes
  src : SockaddrIn
  deriving DecidableEq

/-- `struct dt_udp` -/
structure DtUdp where
  used : Bool
  gsock : Nat
  queue : List Dgram
  closed : Bool
  vport : Nat

/-- the end of a receive queue; a datagram that finds it full is lost, as in the kernel -/
def DtUdp.push (e : DtUdp) (d : Dgram) : DtUdp :=
  if e.closed || DT_MAXQ ≤ e.queue.length then e else { e with queue := e.queue ++ [d] }

/-- `struct dt_slot` -/
structure DtSlot where
  used : Bool
  gsock : Nat
  gamePort : Nat
  orig : SockaddrIn

/-- `struct dt_usess`; `real = none` is no socket -/
structure DtUsess where
  used : Bool
  gamePort : Nat
  cli : SockaddrIn
  lport : Nat
  ovirt : Nat
  real : Option Nat
  last : Nat

/-- a live session as the hosted thread saw it at the top of its loop -/
structure SnapEntry where
  fd : Nat
  gport : Nat
  cli : SockaddrIn
  slot : Fin DT_MAXUSESS

/-- addresses as `hk_ports.c` tells them apart, and who we are -/
structure Net where
  g_myvirt : Nat
  g_lan_only : Bool
  machineIp : Option Bytes
  virtNode : Nat → Nat
  isLocal : Nat → Bool
  isBcast : Nat → Bool
  lanTarget : SockaddrIn → Bool

/-- answers of the operating system -/
structure Os where
  /-- the port a socket is bound to, 0 before it is bound; `none` when `getsockname` fails -/
  port : Nat → Option Nat
  sockType : Nat → Nat
  /-- the port of an implicit bind; 0 when it fails -/
  autobind : Nat
  /-- what `socket()` gives for a slot of `g_us` -/
  socket : Fin DT_MAXUSESS → Option Nat
  /-- the source port of a datagram injected on loopback; 0 when nothing was sent -/
  lport : Nat
  /-- what the ping bridge makes of an ICMP frame -/
  ping : List (Nat × Dgram)

/-- a game datagram that went to `dst` -/
structure Dial where
  gsock : Nat
  dst : SockaddrIn
  triple : Triple
  frame : Bytes
  deriving DecidableEq

inductive HookOut where
  /-- `dt_udp_tun_send` -/
  | tun (d : Bytes)
  /-- straight on the tunnel's UDP socket -/
  | udptun (d : Bytes)
  /-- `DT_BCAST` on the control link -/
  | bcast (p : Bytes)
  /-- to port `port` of this machine, from a session's socket -/
  | inject (fd port : Nat) (raw : Bytes)
  deriving DecidableEq

/-- a datagram for the relay -/
def HookOut.toRelay : HookOut → Option Bytes
  | .tun d | .udptun d => some d
  | .bcast _ | .inject _ _ _ => none

structure UdpHook where
  net : Net
  g_ta : AliasTable
  g_uq : Fin DT_MAXUDP → DtUdp
  g_sl : Fin DT_MAXSLOT → DtSlot
  g_us : Fin DT_MAXUSESS → DtUsess
  /-- what the hosted thread has left of its snapshot -/
  snap : List SnapEntry
  now : Nat
  dials : List Dial
  asked : Fin DT_MAXUSESS → List Triple

namespace UdpHook

/-- the process as it starts -/
def init : UdpHook where
  net := ⟨0, false, none, fun _ => 0, fun _ => false, fun _ => false, fun _ => false⟩
  g_ta := .blank
  g_uq := fun _ => ⟨false, 0, [], false, 0⟩
  g_sl := fun _ => ⟨false, 0, 0, ⟨0, 0⟩⟩
  g_us := fun _ => ⟨false, 0, ⟨0, 0⟩, 0, 0, none, 0⟩
  snap := []
  now := 0
  dials := []
  asked := fun _ => []

variable (s : UdpHook)

/-! ## receive queues -/

/-- `dt_udp_entry` -/
def udpEntry (gsock : Nat) : Option (Fin DT_MAXUDP) :=
  first s.g_uq fun e => e.used && e.gsock == gsock

/-- `dt_udp_entry` that takes a row for a new socket -/
def udpCreate (gsock : Nat) : UdpHook × Option (Fin DT_MAXUDP) :=
  let r := claim s.g_uq (fun e => e.used && e.gsock == gsock) (fun e => !e.used)
    fun _ => ⟨true, gsock, [], false, 0⟩
  ({ s with g_uq := r.1 }, r.2)

/-- `dt_udp_push` -/
def udpPush (gsock : Nat) (d : Dgram) : UdpHook :=
  let (s, i?) := s.udpCreate gsock
  match i? with
  | some i => { s with g_uq := Function.update s.g_uq i ((s.g_uq i).push d) }
  | none => s

/-- `dt_udp_pop`: the state, and the datagram, cut to the caller's buffer -/
def udpPop (gsock blen : Nat) : UdpHook × Option Dgram :=
  match s.udpEntry gsock with
  | some i =>
    match (s.g_uq i).queue with
    | d :: q =>
      ({ s with g_uq := Function.update s.g_uq i { s.g_uq i with queue := q } },
        some { d with data := d.data.take blen })
    | [] => (s, none)
  | none => (s, none)

/-- the datagrams that wait for a socket -/
def queueOf (gsock : Nat) : List Dgram := ((s.udpEntry gsock).map fun i => (s.g_uq i).queue).getD []

/-- `dt_direct_udp_in`: to every datagram socket that appears to listen on the port -/
def directUdpIn (os : Os) (gport : Nat) (ip raw : Bytes) : UdpHook :=
  if ip = [] ∨ 64 ≤ ip.length ∨ 65000 < raw.length then s
  else
    match inetAddr ip with
    | none => s
    | some addr =>
      let listens (e : DtUdp) : Bool :=
        let bp := if e.vport = 0 then os.port e.gsock else some e.vport
        e.used && !e.closed && os.sockType e.gsock == SOCK_DGRAM && bp == some gport
      { s with g_uq := fun i =>
          if listens (s.g_uq i) then (s.g_uq i).push ⟨raw, ⟨addr, gport⟩⟩ else s.g_uq i }

/-! ## dialing out -/

/-- `dt_slot_get` -/
def slotGet (gsock gport : Nat) (orig : SockaddrIn) : UdpHook × Option (Fin DT_MAXSLOT) :=
  let r := claim s.g_sl
    (fun e => e.used && e.gsock == gsock && e.gamePort == gport && e.orig == orig)
    (fun e => !e.used) fun _ => ⟨true, gsock, gport, orig⟩
  ({ s with g_sl := r.1 }, r.2)

/-- `dt_sport_presentation`: the bound vport, else the real port, which becomes one; `none` is
its 0 -/
def sportPresentation (os : Os) (gsock : Nat) : UdpHook × Option Nat :=
  match s.g_ta.vport gsock with
  | some sv => (s, some sv)
  | none =>
    match os.port gsock with
    | none => (s, none)
    | some p =>
      let p := if p = 0 then os.autobind else p
      if p = 0 then (s, none)
      else ({ s with g_ta := s.g_ta.add gsock p p (os.sockType gsock) }, some p)

/-- `dt_src_ip`, or the loopback address as long as there is no virtual one -/
def srcIp : Bytes := dotted (if s.net.g_myvirt = 0 then INADDR_LOOPBACK else s.net.g_myvirt)

/-- the two ways of `dt_on_sendto` into the tunnel: a slot for the host, then the datagram -/
def dial (os : Os) (gsock : Nat) (dst : SockaddrIn) (raw : Bytes) (frame : UdpGame → Bytes) :
    UdpHook × Int × List HookOut :=
  match s.slotGet gsock dst.port dst with
  | (s, none) => (s, 1, [])
  | (s, some _) =>
    match s.sportPresentation os gsock with
    | (s, none) => (s, 1, [])
    | (s, some sp) =>
      let t : Triple := ⟨dst.port, s.srcIp, sp⟩
      let d := frame ⟨t, raw⟩
      ({ (s.udpCreate gsock).1 with dials := ⟨gsock, dst, t, d⟩ :: s.dials }, 1, [.tun d])

/-- a session of this client, whatever its port: the first one -/
def sessionOfClient (cli : SockaddrIn) : Option (Fin DT_MAXUSESS) :=
  first s.g_us fun u => u.used && u.cli == cli

/-- `dt_reject_wire4`, of an address that is neither local nor a LAN target -/
def rejectWire4 (dst : SockaddrIn) : Bool := s.net.g_lan_only && s.net.virtNode dst.addr == 0

/-- the answer of a session, in the words of its caller -/
def sessionReply (gport : Nat) (cli : SockaddrIn) (raw : Bytes) : Bytes :=
  encodeUdpGame U_GAME_S2C ⟨⟨gport, dotted cli.addr, cli.port⟩, raw⟩

/-- the port a broadcast is sent from: the port the app knows the socket by -/
def bcastPort (os : Os) (gsock : Nat) : Nat :=
  match (s.udpEntry gsock).map fun i => (s.g_uq i).vport with
  | some (vp + 1) => vp + 1
  | _ => (os.port gsock).getD 0

/-- the local echo of a broadcast, from our virtual address or else the machine's own -/
def bcastEcho (os : Os) (gport : Nat) (raw : Bytes) : UdpHook :=
  if s.net.g_myvirt ≠ 0 then s.directUdpIn os gport (dotted s.net.g_myvirt) raw
  else
    match s.net.machineIp with
    | some ip => if s.net.g_lan_only then s else s.directUdpIn os gport ip raw
    | none => s

/-- `dt_on_sendto` on a game socket; the answer 0 leaves the datagram to the real stack -/
def onSendto (os : Os) (gsock : Nat) (buf : Bytes) (dst : SockaddrIn) :
    UdpHook × Int × List HookOut :=
  let vnode := s.net.virtNode dst.addr
  if s.net.isLocal dst.addr then (s, 0, [])
  else if vnode ≠ 0 ∧ ¬ s.net.isBcast dst.addr then
    if dst.addr = s.net.g_myvirt then
      (if s.net.g_myvirt = 0 then s
        else s.directUdpIn os dst.port (dotted s.net.g_myvirt) buf, 1, [])
    else
      match s.sessionOfClient dst with
      | some i => (s, 1, [.tun (sessionReply (s.g_us i).gamePort (s.g_us i).cli buf)])
      | none => s.dial os gsock dst buf (encodePdat vnode)
  else if ¬ s.net.lanTarget dst then (s, if s.rejectWire4 dst then -1 else 0, [])
  else if s.net.isBcast dst.addr then
    let p := packH dst.port ++ packH (s.bcastPort os gsock) ++ buf
    ((s.udpCreate gsock).1.bcastEcho os dst.port buf, 1, [.bcast p])
  else s.dial os gsock dst buf (encodeUdpGame U_GAME_C2S)

/-- the datagram part of `dt_on_close` -/
def onClose (gsock : Nat) : UdpHook :=
  { s with
    g_uq := match s.udpEntry gsock with
      | some i => Function.update s.g_uq i
          { s.g_uq i with closed := true, used := false, queue := [] }
      | none => s.g_uq,
    g_sl := fun i =>
      if (s.g_sl i).used && (s.g_sl i).gsock == gsock then { s.g_sl i with used := false }
      else s.g_sl i,
    g_ta := s.g_ta.drop gsock,
    dials := s.dials.filter fun d => d.gsock ≠ gsock }

/-! ## hosting -/

/-- the session of a port and a client -/
def usessAt (gport : Nat) (cli : SockaddrIn) : Option (Fin DT_MAXUSESS) :=
  first s.g_us fun u => u.used && u.gamePort == gport && u.cli == cli

/-- a slot that a new session may take: free, or idle for too long -/
def usessFree (u : DtUsess) : Bool := !u.used || USESS_IDLE < s.now - u.last

/-- the slot a new session gets; `socket()` is tried for every free slot until it works -/
def usessSlot (os : Os) : Option (Fin DT_MAXUSESS) :=
  Fin.find? fun i => s.usessFree (s.g_us i) && (os.socket i).isSome

/-- `dt_usess_find` that opens a new session: every slot tried is filled in, and used if its
`socket()` worked -/
def usessCreate (os : Os) (gport ovirt : Nat) (cli : SockaddrIn) : Fin DT_MAXUSESS → DtUsess :=
  fun i =>
    if s.usessFree (s.g_us i) ∧ ∀ j ∈ s.usessSlot os, i ≤ j then
      ⟨(os.socket i).isSome, gport, cli, 0, ovirt, os.socket i, s.now⟩
    else s.g_us i

/-- `dt_usess_find` with `create`, the triple noted for the session -/
def usessFind (os : Os) (gport ovirt : Nat) (cli : SockaddrIn) (t : Triple) :
    UdpHook × Option (Fin DT_MAXUSESS) :=
  match s.usessAt gport cli with
  | some i =>
    let u := s.g_us i
    ({ s with
        g_us := Function.update s.g_us i { u with ovirt := if u.ovirt = 0 then ovirt else u.ovirt },
        asked := Function.update s.asked i (t :: s.asked i) }, some i)
  | none =>
    let s' := { s with g_us := s.usessCreate os gport ovirt cli }
    match s.usessSlot os with
    | some i => ({ s' with asked := Function.update s.asked i [t] }, some i)
    | none => (s', none)

/-- the port the game listens on, behind an alias -/
def realPort (gport : Nat) : Nat := (s.g_ta.real gport SOCK_DGRAM).getD gport

/-- the address a C2S comes from, when `dt_hosted_udp_in` can use it -/
def hostedCli (g : UdpGame) : Option SockaddrIn :=
  if g.triple.ip = [] ∨ 64 ≤ g.triple.ip.length ∨ 65000 < g.raw.length then none
  else (inetAddr g.triple.ip).map fun addr => ⟨addr, g.triple.cport⟩

/-- `dt_hosted_udp_in` -/
def hostedUdpIn (os : Os) (g : UdpGame) : UdpHook × Bool × List HookOut :=
  match hostedCli g with
  | none => (s, false, [])
  | some cli =>
    let gport := s.realPort g.triple.gport
    match s.usessFind os gport cli.addr cli g.triple with
    | (s, none) => (s, false, [])
    | (s, some i) =>
      let u := { s.g_us i with
        last := s.now, lport := if (s.g_us i).lport = 0 then os.lport else (s.g_us i).lport }
      match u.real with
      | none => ({ s with g_us := Function.update s.g_us i { s.g_us i with last := s.now } }, false, [])
      | some fd => ({ s with g_us := Function.update s.g_us i u }, true, [.inject fd gport g.raw])

/-- the top of the loop of `dt_hosted_thread`: idle sessions end, the others are looked at -/
def hostedSweep : UdpHook :=
  let live (u : DtUsess) : Bool := u.used && u.real.isSome && s.now - u.last ≤ USESS_IDLE
  { s with
    g_us := fun i => if live (s.g_us i) then s.g_us i else { s.g_us i with used := false },
    snap := (List.finRange DT_MAXUSESS).filterMap fun i =>
      if live (s.g_us i) then
        (s.g_us i).real.map fun fd => ⟨fd, (s.g_us i).gamePort, (s.g_us i).cli, i⟩
      else none }

/-- the hosted thread received `raw` on the socket of the next entry -/
def hostedForward (e : SnapEntry) (rest : List SnapEntry) (raw : Bytes) : UdpHook × List HookOut :=
  ({ s with
      snap := rest,
      g_us := fun i =>
        if i = e.slot ∧ (s.g_us i).used then { s.g_us i with last := s.now } else s.g_us i },
    [.udptun (sessionReply e.gport e.cli raw)])

/-! ## from the relay -/

/-- the row of `g_sl` an S2C is matched with -/
def flowRow (gport cport : Nat) : Option (Fin DT_MAXSLOT) :=
  first s.g_sl fun e => e.used && e.gamePort == gport && s.g_ta.vport e.gsock == some cport

/-- the S2C branch of `dt_udp_ingress` -/
def s2cIn (g : UdpGame) : UdpHook :=
  match s.flowRow g.triple.gport g.triple.cport with
  | some i => s.udpPush (s.g_sl i).gsock ⟨g.raw, (s.g_sl i).orig⟩
  | none => s

/-- the C2S branch -/
def c2sIn (os : Os) (g : UdpGame) : UdpHook × List HookOut :=
  match s.hostedUdpIn os g with
  | (s, true, out) => (s, out)
  | (s, false, out) => (s.directUdpIn os g.triple.gport g.triple.ip g.raw, out)

/-- `dt_udp_ingress` -/
def udpIngress (os : Os) (b : Bytes) : UdpHook × List HookOut :=
  if ¬ udpHeaderOk b 10 then (s, [])
  else if udpOp b = U_GAME_C2S then
    match dtGame b with
    | some g => s.c2sIn os g
    | none => (s, [])
  else if udpOp b = U_ICMP_REQ ∨ udpOp b = U_ICMP_REP then
    (os.ping.foldl (fun s p => s.udpPush p.1 p.2) s, [])
  else if udpOp b = U_GAME_S2C then
    match dtGame b with
    | some g => (s.s2cIn g, [])
    | none => (s, [])
  else (s, [])

end UdpHook

/-! ## events -/

inductive UdpAct where
  | net (n : Net)
  /-- a hooked bind has told the alias table -/
  | bind (sock vport real proto : Nat)
  /-- a receive queue is made sure of, with the port the app knows if there is one -/
  | ensure (sock vport : Nat)
  | sendto (os : Os) (gsock : Nat) (buf : Bytes) (dst : SockaddrIn)
  | recv (gsock blen : Nat)
  | close (gsock : Nat)
  /-- a datagram from the relay -/
  | ingress (os : Os) (b : Bytes)
  | sweep
  /-- nothing is to be read on the next socket of the snapshot -/
  | skip
  /-- the game's answer is read on the next socket of the snapshot -/
  | forward (raw : Bytes)
  | tick (ms : Nat)

/-- ports are 16 bits wide -/
def UdpAct.wide : UdpAct → Bool
  | .bind _ vport real _ => vport < 65536 && real < 65536
  | .sendto os gsock _ dst =>
    dst.port < 65536 && os.autobind < 65536 && (os.port gsock).all fun p => p < 65536
  | _ => true

namespace UdpHook

def ensure (s : UdpHook) (sock vport : Nat) : UdpHook :=
  match s.udpCreate sock with
  | (s, some i) =>
    if vport = 0 then s
    else { s with g_uq := Function.update s.g_uq i { s.g_uq i with vport := vport } }
  | (s, none) => s

/-- one event, with what it transmits -/
def step (s : UdpHook) (a : UdpAct) : Option (UdpHook × List HookOut) :=
  if a.wide then
    match a with
    | .net n => some ({ s with net := n }, [])
    | .bind sock vport real proto => some ({ s with g_ta := s.g_ta.add sock vport real proto }, [])
    | .ensure sock vport => some (s.ensure sock vport, [])
    | .sendto os gsock buf dst =>
      let r := s.onSendto os gsock buf dst
      some (r.1, r.2.2)
    | .recv gsock blen => some ((s.udpPop gsock blen).1, [])
    | .close gsock => some (s.onClose gsock, [])
    | .ingress os b => some (s.udpIngress os b)
    | .sweep => some (s.hostedSweep, [])
    | .skip =>
      match s.snap with
      | _ :: rest => some ({ s with snap := rest }, [])
      | [] => none
    | .forward raw =>
      match s.snap with
      | e :: rest => if raw = [] then none else some (s.hostedForward e rest raw)
      | [] => none
    | .tick ms => some ({ s with now := s.now + ms }, [])
  else none

def next (s : UdpHook) (a : UdpAct) : Option UdpHook := (s.step a).map Prod.fst

end UdpHook

end ShadowLan
