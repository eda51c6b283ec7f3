import ShadowLan.Hook.TcpMode

/-!
# Who answered a ping on Windows

An app pings through `IcmpSendEcho`, which owns no socket and waits in the table `g_pend`, or
through a raw socket, which gets its replies in a receive queue.  Virtual addresses are kept as
numbers; the app is owed them in network order.

* `htonl`               the number that lies in memory as the octets of an address;
* `pendAlloc`, `pendComplete`, `emit`   the table of waiters, and the replies laid out for the app;
* `icmpDeliver`         the replies of the raw sockets;
* `step`                calls, replies from the tunnel and reads, in any order;
* `Right`               every reply that the app was handed names its responder in network order;
* `ping_address_iff`    when it does: `emit` leaves the conversion out.

The wait of a call ends at any time its event, or a timeout, allows.  The real `IcmpSendEcho` is
there.
-/

namespace ShadowLan

def DT_MAXPEND : Nat := 32
def DT_MAXREPS : Nat := 8
def DT_MAXICMP : Nat := 128

/-- `htonl` on a little-endian machine -/
def htonl (a : Nat) : Nat :=
  a % 256 * 16777216 + a / 256 % 256 * 65536 + a / 65536 % 256 * 256 + a / 16777216 % 256

def ntohl (a : Nat) : Nat := htonl a

/-- `sin_addr.s_addr` of a source; the model keeps its address as a number -/
def SockaddrIn.sAddr (a : SockaddrIn) : Nat := htonl a.addr

/-- `sizeof(ICMP_ECHO_REPLY)` of the 32-bit and the 64-bit hook -/
def ICMP_ECHO_REPLY_N (is64 : Bool) : Nat := if is64 then 40 else 28

/-- `struct dt_icmp_pend`; the responders are `from[0]` to `from[nrep - 1]` -/
structure IcmpPend where
  used : Bool
  id : Nat
  seq : Nat
  ev : Option Nat
  froms : List Nat
  data : Bytes
  last : Nat
  deriving DecidableEq

def IcmpPend.zero : IcmpPend := ⟨false, 0, 0, none, [], [], 0⟩

/-- a row of `g_io` -/
structure IcmpOut where
  used : Bool
  gsock : Nat
  id : Nat
  last : Nat
  deriving DecidableEq

/-- `ICMP_ECHO_REPLY`, with the data behind it -/
structure EchoReply where
  address : Nat
  status : Nat
  roundTripTime : Nat
  data : Bytes
  deriving DecidableEq

section
variable (g_pend : Fin DT_MAXPEND → IcmpPend)

/-- the waiter that has heard nothing for the longest time -/
def oldestPend (now : Nat) : Option (Fin DT_MAXPEND) × Nat :=
  (List.finRange DT_MAXPEND).foldl
    (fun o i => if (g_pend i).used ∧ (g_pend i).last < o.2 then (some i, (g_pend i).last) else o)
    (none, now)

/-- `dt_icmp_pend_alloc` -/
def pendAlloc (id seq : Nat) (ev : Option Nat) (now : Nat) :
    (Fin DT_MAXPEND → IcmpPend) × Option (Fin DT_MAXPEND) :=
  let row : IcmpPend := ⟨true, id, seq, ev, [], [], now⟩
  match first g_pend fun p => !p.used with
  | some i => (Function.update g_pend i row, some i)
  | none =>
    match oldestPend g_pend now with
    | (some i, last) =>
      if 60000 < now - last then (Function.update g_pend i row, some i) else (g_pend, none)
    | (none, _) => (g_pend, none)

/-- `dt_icmp_pend_free` -/
def pendFree (i : Fin DT_MAXPEND) : Fin DT_MAXPEND → IcmpPend :=
  if (g_pend i).used then Function.update g_pend i .zero else g_pend

/-- the waiter is for this reply -/
def IcmpPend.waits (p : IcmpPend) (id seq : Nat) : Bool := p.used && p.id == id && p.seq == seq

/-- a responder is taken down once, and the data of the first one -/
def IcmpPend.complete (p : IcmpPend) (data : Bytes) (fromVirt now : Nat) : IcmpPend :=
  if fromVirt ∈ p.froms ∨ DT_MAXREPS ≤ p.froms.length then p
  else
    { p with
      data := if p.froms = [] then data.take 1400 else p.data
      froms := p.froms ++ [fromVirt]
      last := now }

/-- `dt_icmp_pend_complete`: the table, the events that are set, and whether anyone waited -/
def pendComplete (id seq : Nat) (data : Bytes) (fromVirt now : Nat) :
    (Fin DT_MAXPEND → IcmpPend) × List Nat × Bool :=
  (fun i => if (g_pend i).waits id seq then (g_pend i).complete data fromVirt now else g_pend i,
    (List.finRange DT_MAXPEND).filterMap fun i =>
      if (g_pend i).waits id seq then (g_pend i).ev else none,
    (first g_pend fun p => p.waits id seq).isSome)

end

/-- the loop of `dt_icmp_emit`: each reply takes its structure and the data off the buffer -/
def emitLoop (n rtt : Nat) (data : Bytes) : List Nat → Nat → List EchoReply
  | [], _ => []
  | v :: froms, left =>
    if left < n + data.length then []
    else
      ⟨v, 0, if rtt < 1 then 1 else if 0x7FFFFFFF < rtt then 0x7FFFFFFF else rtt, data⟩ ::
        emitLoop n rtt data froms (left - (n + data.length))

/-- `dt_icmp_emit` -/
def emit (is64 : Bool) (p : IcmpPend) (repsize rtt : Nat) : List EchoReply :=
  if p.used then emitLoop (ICMP_ECHO_REPLY_N is64) rtt p.data p.froms repsize else []

/-- what `IcmpSendEcho` was asked to ping -/
inductive PingKind where
  | own
  | bcast
  | node
  deriving DecidableEq

/-- a call of `dt_icmp_echo` behind its `dt_icmp_pend_alloc` -/
structure EchoCall where
  kind : PingKind
  id : Nat
  seq : Nat
  req : Bytes
  repsize : Nat
  idx : Fin DT_MAXPEND
  ev : Nat
  /-- the own address as the call read it -/
  myv : Nat
  t0 : Nat
  /-- the part that this machine answers is taken down -/
  answered : Bool

/-- a reply that the app got: whose it is, and the address that it carries -/
structure Handed where
  who : Nat
  addr : Nat
  deriving DecidableEq

structure PingProc where
  is64 : Bool
  proc : HookProc
  g_pend : Fin DT_MAXPEND → IcmpPend
  g_io : Fin DT_MAXICMP → IcmpOut
  calls : List EchoCall
  /-- the events that are set -/
  signaled : List Nat
  /-- every event so far has a smaller number -/
  nextEv : Nat
  /-- what was given to the tunnel -/
  out : List HookOut
  /-- the replies put in queues of raw sockets, and whose they are -/
  queued : List (Dgram × Nat)
  handed : List Handed

inductive PingAct where
  | policy (P : Policy)
  /-- the other calls on datagram sockets, and the time -/
  | udp (a : UdpAct)
  /-- `dt_icmp_echo` up to its wait -/
  | echo (id seq dst : Nat) (req : Bytes) (repsize : Nat)
  /-- the `k`-th call takes its own answer down -/
  | answer (k : Nat)
  /-- the `k`-th call is done waiting and lays its replies out -/
  | ret (k : Nat)
  | timeout (k : Nat)
  /-- `dt_icmp_in` with a reply; `icmpSock` is `dt_is_icmp_sock` -/
  | reply (icmpSock : Nat → Bool) (src id seq : Nat) (data : Bytes)
  /-- an echo request sent on a raw socket -/
  | sendto (gsock : Nat) (buf : Bytes) (dst : SockaddrIn)
  | recv (gsock blen : Nat)

namespace PingProc

def init (is64 : Bool) : PingProc where
  is64 := is64
  proc := ⟨⟨true, false, [], 0, 0, [], 0, 0, []⟩, .init, .init⟩
  g_pend := fun _ => .zero
  g_io := fun _ => ⟨false, 0, 0, 0⟩
  calls := []
  signaled := []
  nextEv := 0
  out := []
  queued := []
  handed := []

variable (s : PingProc)

def now : Nat := s.proc.udp.now

/-- what a ping of an address is for, or `none` for the real `IcmpSendEcho` -/
def target (da : Nat) : Option PingKind :=
  let P := s.proc.policy
  if ¬ P.g_direct ∨ P.isLocal da then none
  else if da = P.g_myvirt then some .own
  else if P.isVnetBcast da then some .bcast
  else if P.relayVirt ≠ 0 ∧ da = P.relayVirt then some .node
  else if P.virtNode da = 0 then none
  else some .node

/-- `dt_icmp_echo`, up to its wait -/
def echo (id seq dst : Nat) (req : Bytes) (repsize : Nat) : PingProc :=
  match s.target (ntohl dst) with
  | none => s
  | some kind =>
    if repsize < ICMP_ECHO_REPLY_N s.is64 then s
    else
      match pendAlloc s.g_pend id seq (if kind = .own then none else some s.nextEv) s.now with
      | (_, none) => s
      | (g, some i) =>
        { s with
          g_pend := g
          calls := s.calls ++
            [⟨kind, id, seq, req, repsize, i, s.nextEv, s.proc.policy.g_myvirt, s.now, false⟩]
          nextEv := s.nextEv + 1
          out := s.out ++ s.proc.icmpEcho id seq (ntohl dst) req }

/-- `dt_icmp_pend_complete` on the table of the process -/
def complete (id seq : Nat) (data : Bytes) (fromVirt : Nat) : PingProc :=
  let r := pendComplete s.g_pend id seq data fromVirt s.now
  { s with g_pend := r.1, signaled := s.signaled ++ r.2.1 }

/-- the call takes the answer of this machine down -/
def answer (c : EchoCall) : PingProc :=
  match c.kind with
  | .own => s.complete c.id c.seq ((icmpBuildRep c.id c.seq (c.req.take (1500 - 8))).drop 8) c.myv
  | .bcast => if c.myv = 0 then s else s.complete c.id c.seq c.req c.myv
  | .node => s

/-- the call has waited as long as it does -/
def EchoCall.done (c : EchoCall) : Bool :=
  match c.kind with
  | .own | .bcast => c.answered
  | .node => s.signaled.contains c.ev

/-- the replies of the call -/
def replies (c : EchoCall) : List EchoReply :=
  emit s.is64 (s.g_pend c.idx) c.repsize (if c.kind = .own then 0 else s.now - c.t0)

/-- the call returns: `r->Address` of each reply is for the responder of the same row -/
def ret (k : Nat) (c : EchoCall) : PingProc :=
  { s with
    g_pend := pendFree s.g_pend c.idx
    calls := s.calls.eraseIdx k
    handed := s.handed ++
      ((s.g_pend c.idx).froms.zip (s.replies c)).map fun r => ⟨r.1, r.2.address⟩ }

/-- `dt_icmp_note` -/
def icmpNote (gsock id : Nat) : Fin DT_MAXICMP → IcmpOut :=
  let row : IcmpOut := ⟨true, gsock, id, s.now⟩
  match first s.g_io fun e => e.used && e.gsock == gsock && e.id == id with
  | some i => Function.update s.g_io i row
  | none =>
    match first s.g_io fun e => !e.used with
    | some i => Function.update s.g_io i row
    | none =>
      let old := (List.finRange DT_MAXICMP).foldl
        (fun o i => if (s.g_io i).used ∧ (s.g_io i).last < o.2 then (some i, (s.g_io i).last) else o)
        ((none : Option (Fin DT_MAXICMP)), s.now)
      match old.1 with
      | some i => Function.update s.g_io i row
      | none => s.g_io

/-- `dt_icmp_match` -/
def icmpMatch (gsock id : Nat) : Bool :=
  (first s.g_io fun e => e.used && e.gsock == gsock && e.id == id && s.now - e.last < 30000).isSome

/-- `dt_icmp_deliver` -/
def icmpDeliver (icmpSock : Nat → Bool) (fromVirt id seq : Nat) (data : Bytes) : PingProc :=
  if 1500 < 8 + data.length then s
  else
    let d : Dgram := ⟨icmpBuildRep id seq data, ⟨ntohl (htonl fromVirt), 0⟩⟩
    let gs := (List.finRange DT_MAXUDP).filterMap fun i =>
      let e := s.proc.hook.g_uq i
      if e.used && !e.closed then some e.gsock else none
    let gs := gs.filter fun g => icmpSock g && s.icmpMatch g id
    { s with
      proc := { s.proc with udp := gs.foldl (fun u g => u.udpPush g d) s.proc.hook }
      queued := s.queued ++ [(d, fromVirt)] }

/-- `dt_icmp_in` with a reply -/
def icmpIn (icmpSock : Nat → Bool) (src id seq : Nat) (data : Bytes) : PingProc :=
  let fromVirt := if src = 0 then s.proc.policy.relayVirt else s.proc.policy.nodeVirt src
  if fromVirt = 0 then s
  else if (pendComplete s.g_pend id seq data fromVirt s.now).2.2 then
    s.complete id seq data fromVirt
  else s.icmpDeliver icmpSock fromVirt id seq data

/-- a ping on a raw socket that this machine answers itself, alone or with others -/
def pingsOwn (dst : SockaddrIn) : Bool :=
  let P := s.proc.policy
  dst.addr = P.g_myvirt ||
    !(P.relayVirt ≠ 0 && dst.addr = P.relayVirt) && P.virtNode dst.addr = 0 && P.isVnetBcast dst.addr

/-- `dt_on_icmp_send`, with the note of the id -/
def sendto (gsock : Nat) (buf : Bytes) (dst : SockaddrIn) : PingProc :=
  let r := s.proc.onIcmpSend gsock buf dst
  let s' := { s with proc := { s.proc with udp := r.1 }, out := s.out ++ r.2.2 }
  match icmpParseReq buf with
  | none => s'
  | some (id, seq, data) =>
    if r.2.1 = 0 then s'
    else
      { s' with
        g_io := if dst.addr = s.proc.policy.g_myvirt then s.g_io else s.icmpNote gsock id
        queued :=
          if s.pingsOwn dst ∧ s.proc.policy.g_myvirt ≠ 0 ∧ 8 + data.length ≤ 1500 then
            s.queued ++ [(⟨icmpBuildRep id seq data, ⟨s.proc.policy.g_myvirt, 0⟩⟩,
              s.proc.policy.g_myvirt)]
          else s.queued }

/-- `dt_udp_pop`: the datagram is handed over as the reply that it was queued as -/
def recv (gsock blen : Nat) : PingProc :=
  let r := s.proc.hook.udpPop gsock blen
  let s' := { s with proc := { s.proc with udp := r.1 } }
  match (s.proc.hook.queueOf gsock).head?, r.2 with
  | some d0, some d =>
    { s' with
      handed := s.handed ++ (s.queued.filter fun e => e.1 = d0).map fun e => ⟨e.2, d.src.sAddr⟩ }
  | _, _ => s'

/-- one step -/
def step (s : PingProc) : PingAct → Option PingProc
  | .policy P =>
    -- the addresses are words
    if P.g_myvirt < 2 ^ 32 ∧ P.g_vnetb < 2 ^ 32 ∧ ∀ m ∈ P.g_members, m.virt < 2 ^ 32 then
      some { s with proc := { s.proc with policy := P } }
    else none
  | .udp a =>
    (s.proc.react (.udp a)).map fun r => { s with proc := r.1, out := s.out ++ r.2 }
  | .echo id seq dst req repsize => some (s.echo id seq dst req repsize)
  | .answer k => do
    let c ← s.calls[k]?
    if c.answered then none
    else some (let s' := s.answer c; { s' with calls := s.calls.set k { c with answered := true } })
  | .ret k => do
    let c ← s.calls[k]?
    if EchoCall.done s c then some (s.ret k c) else none
  | .timeout k => do
    let c ← s.calls[k]?
    if c.kind = .node then
      some { s with g_pend := pendFree s.g_pend c.idx, calls := s.calls.eraseIdx k }
    else none
  | .reply icmpSock src id seq data => some (s.icmpIn icmpSock src id seq data)
  | .sendto gsock buf dst => some (s.sendto gsock buf dst)
  | .recv gsock blen => some (s.recv gsock blen)

/-- every reply so far names its responder in network order -/
def Right : Prop := ∀ r ∈ s.handed, r.addr = htonl r.who

/-- the responders of the call whose replies fit into the app's buffer -/
def reported (c : EchoCall) : List Nat :=
  let p := s.g_pend c.idx
  if p.used then p.froms.take (c.repsize / (ICMP_ECHO_REPLY_N s.is64 + p.data.length)) else []

/-- the condition on a step: a call of `IcmpSendEcho` returns replies only of addresses that read
the same backwards, `a.b.b.a` -/
def Mirrored : PingAct → Prop
  | .ret k => ∀ c ∈ s.calls[k]?, ∀ v ∈ s.reported c, octets v = (octets v).reverse
  | _ => True

instance : (a : PingAct) → Decidable (s.Mirrored a)
  | .ret k => inferInstanceAs
      (Decidable (∀ c ∈ s.calls[k]?, ∀ v ∈ s.reported c, octets v = (octets v).reverse))
  | .policy _ | .udp _ | .echo .. | .answer _ | .timeout _ | .reply .. | .sendto .. | .recv .. =>
    isTrue trivial

end PingProc

/-! ## addresses in memory -/

/-- a word is made of its octets -/
theorem word_octets {a : Nat} (h : a < 2 ^ 32) : ∃ w x y z, w < 256 ∧ x < 256 ∧ y < 256 ∧ z < 256 ∧
    a = w * 16777216 + x * 65536 + y * 256 + z := by
  refine ⟨a / 16777216, a / 65536 % 256, a / 256 % 256, a % 256, ?_, ?_, ?_, ?_, ?_⟩ <;> omega

theorem octets_word {w x y z : Nat} (hw : w < 256) (hx : x < 256) (hy : y < 256) (hz : z < 256) :
    octets (w * 16777216 + x * 65536 + y * 256 + z) = [w, x, y, z] := by
  have h1 : (w * 16777216 + x * 65536 + y * 256 + z) / 16777216 % 256 = w := by omega
  have h2 : (w * 16777216 + x * 65536 + y * 256 + z) / 65536 % 256 = x := by omega
  have h3 : (w * 16777216 + x * 65536 + y * 256 + z) / 256 % 256 = y := by omega
  have h4 : (w * 16777216 + x * 65536 + y * 256 + z) % 256 = z := by omega
  unfold octets
  rw [h1, h2, h3, h4]

/-- `htonl` turns the octets round -/
theorem htonl_word {w x y z : Nat} (hw : w < 256) (hx : x < 256) (hy : y < 256) (hz : z < 256) :
    htonl (w * 16777216 + x * 65536 + y * 256 + z) = z * 16777216 + y * 65536 + x * 256 + w := by
  have ho := octets_word hw hx hy hz
  unfold octets at ho
  injection ho with h1 ho
  injection ho with h2 ho
  injection ho with h3 ho
  injection ho with h4 ho
  unfold htonl
  rw [h1, h2, h3, h4]

theorem htonl_htonl {a : Nat} (h : a < 2 ^ 32) : htonl (htonl a) = a := by
  obtain ⟨w, x, y, z, hw, hx, hy, hz, rfl⟩ := word_octets h
  rw [htonl_word hw hx hy hz, htonl_word hz hy hx hw]

/-- the octets read the same backwards exactly when both orders give the same number -/
theorem octets_reverse_iff {v : Nat} (h : v < 2 ^ 32) :
    octets v = (octets v).reverse ↔ htonl v = v := by
  obtain ⟨w, x, y, z, hw, hx, hy, hz, rfl⟩ := word_octets h
  rw [octets_word hw hx hy hz, htonl_word hw hx hy hz]
  show [w, x, y, z] = [z, y, x, w] ↔ _
  rw [← octets_word hz hy hx hw, ← octets_word hw hx hy hz]
  constructor
  · intro hl
    rw [octets_word hw hx hy hz, octets_word hz hy hx hw] at hl
    injection hl with h1 hl
    injection hl with h2 hl
    rw [h1, h2]
  · intro he
    rw [he]

/-! ## the replies of `IcmpSendEcho` -/

/-- a reply carries the number that its responder is taken down as -/
theorem emitLoop_zip {n : Nat} (hn : 0 < n) (rtt : Nat) (data : Bytes) (froms : List Nat)
    (left : Nat) :
    (froms.zip (emitLoop n rtt data froms left)).map (fun r => (⟨r.1, r.2.address⟩ : Handed))
      = (froms.take (left / (n + data.length))).map fun v => ⟨v, v⟩ := by
  induction froms generalizing left with
  | nil => rw [List.take_nil]; rfl
  | cons v froms ih =>
    unfold emitLoop
    by_cases hlt : left < n + data.length
    · rw [if_pos hlt, Nat.div_eq_of_lt hlt]
      rfl
    · have hle : n + data.length ≤ left := Nat.le_of_not_lt hlt
      rw [if_neg hlt, Nat.div_eq_sub_div (by omega) hle, List.take_succ_cons, List.zip_cons_cons, List.map_cons,
        List.map_cons, ih]

theorem replyN_pos (is64 : Bool) : 0 < ICMP_ECHO_REPLY_N is64 := by
  cases is64 <;> decide

namespace PingProc
variable {s s' : PingProc}

theorem ret_handed (s : PingProc) (k : Nat) (c : EchoCall) :
    (s.ret k c).handed = s.handed ++ (s.reported c).map fun v => ⟨v, v⟩ := by
  unfold ret reported replies emit
  dsimp only
  split_ifs
  · rw [emitLoop_zip (replyN_pos _)]
  · rw [emitLoop_zip (replyN_pos _)]
  · rw [List.zip_nil_right]
    rfl

/-! ## what holds in between -/

/-- all addresses are words, the queued replies name their responders, and so far every reply that
was handed over does -/
structure Sound (s : PingProc) : Prop where
  right : s.Right
  queued : ∀ e ∈ s.queued, e.1.src.sAddr = htonl e.2
  froms : ∀ i, ∀ v ∈ (s.g_pend i).froms, v < 2 ^ 32
  calls : ∀ c ∈ s.calls, c.myv < 2 ^ 32
  myvirt : s.proc.policy.g_myvirt < 2 ^ 32
  vnetb : s.proc.policy.g_vnetb < 2 ^ 32
  members : ∀ m ∈ s.proc.policy.g_members, m.virt < 2 ^ 32

theorem sound_init (is64 : Bool) : (init is64).Sound :=
  ⟨nofun, nofun, fun _ => nofun, nofun, Nat.two_pow_pos 32, Nat.two_pow_pos 32, nofun⟩

theorem Sound.nodeVirt_lt (h : s.Sound) (node : Nat) : s.proc.policy.nodeVirt node < 2 ^ 32 := by
  unfold Policy.nodeVirt
  cases hf : s.proc.policy.g_members.find? (·.node = node) with
  | none => exact Nat.two_pow_pos 32
  | some m => exact h.members m (List.mem_of_find?_eq_some hf)

theorem Sound.relayVirt_lt (h : s.Sound) : s.proc.policy.relayVirt < 2 ^ 32 := by
  unfold Policy.relayVirt
  split_ifs
  · exact Nat.two_pow_pos 32
  · exact Nat.or_lt_two_pow h.vnetb (by decide)

theorem Sound.reported_lt (h : s.Sound) (c : EchoCall) : ∀ v ∈ s.reported c, v < 2 ^ 32 := by
  intro v hv
  unfold reported at hv
  dsimp only at hv
  split_ifs at hv
  · exact h.froms c.idx v (List.mem_of_mem_take hv)
  · cases hv

/-- rows that are new or given back have no responder -/
theorem pendAlloc_froms {g : Fin DT_MAXPEND → IcmpPend} (id seq : Nat) (ev : Option Nat)
    (now : Nat) (h : ∀ i, ∀ v ∈ (g i).froms, v < 2 ^ 32) :
    ∀ i, ∀ v ∈ ((pendAlloc g id seq ev now).1 i).froms, v < 2 ^ 32 := by
  have hupd : ∀ k i, ∀ v ∈ (Function.update g k ⟨true, id, seq, ev, [], [], now⟩ i).froms,
      v < 2 ^ 32 := by
    intro k i v hv
    by_cases hik : i = k
    · rw [hik, Function.update_self] at hv
      cases hv
    · rw [Function.update_of_ne hik] at hv
      exact h i v hv
  unfold pendAlloc
  dsimp only
  cases first g fun p => !p.used with
  | some k => exact hupd k
  | none =>
    rcases oldestPend g now with ⟨k?, last⟩
    cases k? with
    | none => exact h
    | some k =>
      dsimp only
      split_ifs
      · exact hupd k
      · exact h

theorem pendFree_froms {g : Fin DT_MAXPEND → IcmpPend} (k : Fin DT_MAXPEND)
    (h : ∀ i, ∀ v ∈ (g i).froms, v < 2 ^ 32) : ∀ i, ∀ v ∈ (pendFree g k i).froms, v < 2 ^ 32 := by
  intro i v hv
  unfold pendFree at hv
  split_ifs at hv
  · by_cases hik : i = k
    · rw [hik, Function.update_self] at hv
      cases hv
    · rw [Function.update_of_ne hik] at hv
      exact h i v hv
  · exact h i v hv

theorem complete_froms {p : IcmpPend} (data : Bytes) {fromVirt : Nat} (now : Nat)
    (hv : fromVirt < 2 ^ 32) (h : ∀ v ∈ p.froms, v < 2 ^ 32) :
    ∀ v ∈ (p.complete data fromVirt now).froms, v < 2 ^ 32 := by
  unfold IcmpPend.complete
  by_cases hfull : fromVirt ∈ p.froms ∨ DT_MAXREPS ≤ p.froms.length
  · rw [if_pos hfull]
    exact h
  · rw [if_neg hfull]
    intro v hm
    rcases List.mem_append.mp hm with hm | hm
    · exact h v hm
    · rw [List.mem_singleton.mp hm]
      exact hv

theorem Sound.complete (h : s.Sound) (id seq : Nat) (data : Bytes) {fromVirt : Nat}
    (hv : fromVirt < 2 ^ 32) : (s.complete id seq data fromVirt).Sound := by
  refine ⟨h.right, h.queued, fun i v hm => ?_, h.calls, h.myvirt, h.vnetb, h.members⟩
  change v ∈ ((pendComplete s.g_pend id seq data fromVirt s.now).1 i).froms at hm
  unfold pendComplete at hm
  dsimp only at hm
  split_ifs at hm
  · exact complete_froms data s.now hv (h.froms i) v hm
  · exact h.froms i v hm

theorem Sound.answer (h : s.Sound) {c : EchoCall} (hc : c ∈ s.calls) : (s.answer c).Sound := by
  have hmyv := h.calls c hc
  unfold PingProc.answer
  cases c.kind with
  | own => exact h.complete _ _ _ hmyv
  | bcast =>
    dsimp only
    split_ifs
    · exact h
    · exact h.complete _ _ _ hmyv
  | node => exact h

theorem Sound.echo (h : s.Sound) (id seq dst : Nat) (req : Bytes) (repsize : Nat) :
    (s.echo id seq dst req repsize).Sound := by
  unfold PingProc.echo
  cases s.target (ntohl dst) with
  | none => exact h
  | some kind =>
    dsimp only
    by_cases hsmall : repsize < ICMP_ECHO_REPLY_N s.is64
    · rw [if_pos hsmall]
      exact h
    · rw [if_neg hsmall]
      have hfroms := pendAlloc_froms id seq (if kind = .own then none else some s.nextEv) s.now
        h.froms
      generalize pendAlloc s.g_pend id seq (if kind = .own then none else some s.nextEv) s.now = r
        at hfroms
      obtain ⟨g, i?⟩ := r
      cases i? with
      | none => exact h
      | some i =>
        refine ⟨h.right, h.queued, hfroms, ?_, h.myvirt, h.vnetb, h.members⟩
        intro c hc
        rcases List.mem_append.mp hc with hc | hc
        · exact h.calls c hc
        · rw [List.mem_singleton.mp hc]
          exact h.myvirt

theorem Sound.icmpIn (h : s.Sound) (icmpSock : Nat → Bool) (src id seq : Nat) (data : Bytes) :
    (s.icmpIn icmpSock src id seq data).Sound := by
  unfold PingProc.icmpIn
  dsimp only
  generalize hv : (if src = 0 then s.proc.policy.relayVirt else s.proc.policy.nodeVirt src) = v
  have hlt : v < 2 ^ 32 := by
    rw [← hv]
    split_ifs
    · exact h.relayVirt_lt
    · exact h.nodeVirt_lt src
  split_ifs
  · exact h
  · exact h.complete id seq data hlt
  · unfold icmpDeliver
    split_ifs
    · exact h
    · refine ⟨h.right, ?_, h.froms, h.calls, h.myvirt, h.vnetb, h.members⟩
      intro e he
      rcases List.mem_append.mp he with he | he
      · exact h.queued e he
      · rw [List.mem_singleton.mp he]
        show htonl (ntohl (htonl v)) = htonl v
        unfold ntohl
        rw [htonl_htonl hlt]

theorem Sound.sendto (h : s.Sound) (gsock : Nat) (buf : Bytes) (dst : SockaddrIn) :
    (s.sendto gsock buf dst).Sound := by
  unfold PingProc.sendto
  dsimp only
  cases icmpParseReq buf with
  | none => exact ⟨h.right, h.queued, h.froms, h.calls, h.myvirt, h.vnetb, h.members⟩
  | some r =>
    obtain ⟨id, seq, data⟩ := r
    dsimp only
    by_cases hr : (s.proc.onIcmpSend gsock buf dst).2.1 = 0
    · rw [if_pos hr]
      exact ⟨h.right, h.queued, h.froms, h.calls, h.myvirt, h.vnetb, h.members⟩
    · rw [if_neg hr]
      refine ⟨h.right, ?_, h.froms, h.calls, h.myvirt, h.vnetb, h.members⟩
      dsimp only
      by_cases hown : s.pingsOwn dst = true ∧ s.proc.policy.g_myvirt ≠ 0 ∧ 8 + data.length ≤ 1500
      · rw [if_pos hown]
        intro e he
        rcases List.mem_append.mp he with he | he
        · exact h.queued e he
        · rw [List.mem_singleton.mp he]
          rfl
      · rw [if_neg hown]
        exact h.queued

/-- a datagram that is read has the source that it was queued with -/
theorem udpPop_src {u : UdpHook} {gsock blen : Nat} {d0 d : Dgram}
    (h0 : (u.queueOf gsock).head? = some d0) (hd : (u.udpPop gsock blen).2 = some d) :
    d.src = d0.src := by
  unfold UdpHook.queueOf at h0
  unfold UdpHook.udpPop at hd
  cases he : u.udpEntry gsock with
  | none => rw [he] at h0; cases h0
  | some i =>
    rw [he] at h0 hd
    dsimp only at hd
    change (u.g_uq i).queue.head? = some d0 at h0
    cases hq : (u.g_uq i).queue with
    | nil => rw [hq] at h0; cases h0
    | cons x q =>
      rw [hq] at h0 hd
      rw [← Option.some.inj hd, ← Option.some.inj h0]

theorem Sound.recv (h : s.Sound) (gsock blen : Nat) : (s.recv gsock blen).Sound := by
  unfold PingProc.recv
  dsimp only
  split
  next d0 d h0 hd =>
    refine ⟨?_, h.queued, h.froms, h.calls, h.myvirt, h.vnetb, h.members⟩
    intro r hr
    rcases List.mem_append.mp hr with hr | hr
    · exact h.right r hr
    · obtain ⟨e, he, rfl⟩ := List.mem_map.mp hr
      obtain ⟨hm, heq⟩ := List.mem_filter.mp he
      show d.src.sAddr = htonl e.2
      rw [udpPop_src h0 hd, ← h.queued e hm, of_decide_eq_true heq]
  next => exact ⟨h.right, h.queued, h.froms, h.calls, h.myvirt, h.vnetb, h.members⟩

theorem react_policy {H : HookProc} {a : UdpAct} {r : HookProc × List HookOut}
    (h : H.react (.udp a) = some r) : r.1.policy = H.policy := by
  cases a with
  | net n => cases h
  | sendto os gsock buf dst => cases h
  | ingress os b => cases h
  | _ =>
    simp only [HookProc.react] at h
    obtain ⟨q, -, rfl⟩ := Option.map_eq_some_iff.mp h
    rfl

theorem Sound.step {a : PingAct} (h : s.Sound) (ok : s.Mirrored a) (hs : s.step a = some s') :
    s'.Sound := by
  cases a with
  | policy P =>
    obtain ⟨⟨h1, h2, h3⟩, hs⟩ := Option.ite_none_right_eq_some.mp hs
    rw [← Option.some.inj hs]
    exact ⟨h.right, h.queued, h.froms, h.calls, h1, h2, h3⟩
  | udp a =>
    obtain ⟨r, hr, rfl⟩ := Option.map_eq_some_iff.mp hs
    have hp := react_policy hr
    refine ⟨h.right, h.queued, h.froms, h.calls, ?_, ?_, ?_⟩
    · exact hp ▸ h.myvirt
    · exact hp ▸ h.vnetb
    · exact hp ▸ h.members
  | echo id seq dst req repsize =>
    rw [← Option.some.inj hs]
    exact h.echo id seq dst req repsize
  | answer k =>
    obtain ⟨c, hc, hs⟩ := Option.bind_eq_some_iff.mp hs
    obtain ⟨-, hs⟩ := Option.ite_none_left_eq_some.mp hs
    rw [← Option.some.inj hs]
    have hmem := List.mem_of_getElem? hc
    have ha := h.answer hmem
    refine ⟨ha.right, ha.queued, ha.froms, ?_, ha.myvirt, ha.vnetb, ha.members⟩
    intro c' hc'
    rcases List.mem_or_eq_of_mem_set hc' with hc' | rfl
    · exact h.calls c' hc'
    · exact h.calls c hmem
  | ret k =>
    obtain ⟨c, hc, hs⟩ := Option.bind_eq_some_iff.mp hs
    obtain ⟨-, hs⟩ := Option.ite_none_right_eq_some.mp hs
    rw [← Option.some.inj hs]
    refine ⟨?_, h.queued, pendFree_froms c.idx h.froms,
      fun c' hc' => h.calls c' (List.mem_of_mem_eraseIdx hc'), h.myvirt, h.vnetb, h.members⟩
    intro r hr
    rw [ret_handed] at hr
    rcases List.mem_append.mp hr with hr | hr
    · exact h.right r hr
    · obtain ⟨v, hv, rfl⟩ := List.mem_map.mp hr
      exact ((octets_reverse_iff (h.reported_lt c v hv)).mp (ok c hc v hv)).symm
  | timeout k =>
    obtain ⟨c, hc, hs⟩ := Option.bind_eq_some_iff.mp hs
    obtain ⟨-, hs⟩ := Option.ite_none_right_eq_some.mp hs
    rw [← Option.some.inj hs]
    exact ⟨h.right, h.queued, pendFree_froms c.idx h.froms,
      fun c' hc' => h.calls c' (List.mem_of_mem_eraseIdx hc'), h.myvirt, h.vnetb, h.members⟩
  | reply icmpSock src id seq data =>
    rw [← Option.some.inj hs]
    exact h.icmpIn icmpSock src id seq data
  | sendto gsock buf dst =>
    rw [← Option.some.inj hs]
    exact h.sendto gsock buf dst
  | recv gsock blen =>
    rw [← Option.some.inj hs]
    exact h.recv gsock blen

/-- a call that returns a reply of another address hands over a wrong one -/
theorem not_right {a : PingAct} (h : s.Sound) (hbad : ¬ s.Mirrored a) (hs : s.step a = some s') :
    ¬ s'.Right := by
  cases a with
  | ret k =>
    obtain ⟨c, hc, hs⟩ := Option.bind_eq_some_iff.mp hs
    obtain ⟨-, hs⟩ := Option.ite_none_right_eq_some.mp hs
    rw [← Option.some.inj hs]
    intro hright
    apply hbad
    intro c' hc' v hv
    cases Option.some.inj (hc.symm.trans hc')
    rw [octets_reverse_iff (h.reported_lt c v hv)]
    refine (hright ⟨v, v⟩ ?_).symm
    rw [ret_handed]
    exact List.mem_append_right _ (List.mem_map_of_mem hv)
  | _ => exact absurd trivial hbad

/-- **Ping APIs name the responder.**  All along a run every reply that the app was handed carries
the address of its responder in network order, exactly when `IcmpSendEcho` returns replies only of
addresses that read the same backwards. -/
theorem ping_address_iff {is64 : Bool} {tr : List (PingProc × PingAct)} {s : PingProc}
    (h : Path step (init is64) tr s) :
    (∀ u ∈ visited tr s, u.Right) ↔ ∀ x ∈ tr, x.1.Mirrored x.2 :=
  h.all_iff_ok (sound_init is64) (fun _ hu => hu.right) (fun _ _ _ hu ok hs => hu.step ok hs)
    fun _ _ _ hu hbad hs => not_right hu hbad hs

/-- a LAN with this machine, 10.200.200.2, and another one -/
def pingLan (peer : Nat) : Policy :=
  ⟨true, false, [], 1, 0x0AC8C802, [⟨1, 0x0AC8C802⟩, ⟨2, peer⟩], 0x0AC8C800, 24, []⟩

/-- one ping of the other machine, which answers -/
def onePing (peer : Nat) : List PingAct :=
  [.policy (pingLan peer), .echo 7 1 (htonl peer) [] 40, .reply (fun _ => false) 2 7 1 [], .ret 0]

theorem ping_address_mirrored : ∃ tr s, Path step (init true) tr s ∧ s.handed ≠ [] ∧
    ∀ u ∈ visited tr s, u.Right := by
  have hrun : (run step (init true) (onePing 0x0AC8C80A)).isSome = true := by decide +kernel
  obtain ⟨s, hs⟩ := Option.isSome_iff_exists.mp hrun
  have hend : ∀ s ∈ run step (init true) (onePing 0x0AC8C80A), s.handed ≠ [] := by decide +kernel
  have hok : ∀ x ∈ trace step (init true) (onePing 0x0AC8C80A), x.1.Mirrored x.2 := by
    decide +kernel
  exact ⟨_, s, path_run hs, hend s hs, (ping_address_iff (path_run hs)).mpr hok⟩

/-- the app pings 10.200.200.3 and is told that 3.200.200.10 answered -/
theorem ping_reversed : ∃ tr s, Path step (init true) tr s ∧
    s.handed = [⟨0x0AC8C803, 0x0AC8C803⟩] ∧ htonl 0x0AC8C803 = 0x03C8C80A ∧ ¬ s.Right := by
  have hrun : (run step (init true) (onePing 0x0AC8C803)).isSome = true := by decide +kernel
  obtain ⟨s, hs⟩ := Option.isSome_iff_exists.mp hrun
  have hend : ∀ s ∈ run step (init true) (onePing 0x0AC8C803),
      s.handed = [⟨0x0AC8C803, 0x0AC8C803⟩] := by decide +kernel
  refine ⟨_, s, path_run hs, hend s hs, by decide, fun hr => ?_⟩
  have hbad := hr ⟨0x0AC8C803, 0x0AC8C803⟩ (by rw [hend s hs]; exact List.mem_cons_self)
  exact absurd hbad (by decide)

end PingProc

end ShadowLan
