import ShadowLan.Hook.Policy
import ShadowLan.Hook.Table

/-!
# What reaches the real `sendto` and `connect`

The app's `sendto` and `connect` go through the hook, which tunnels a destination, completes it over
loopback, fails it, or hands it to the real call.  The decision is spread over the verdicts of
`dt_on_icmp_send`, `dt_on_sendto` and `dt_on_connect`, and the exported wrappers that read them.

* `onIcmpSend`, `dtOnSendto`, `dtOnConnect`   the verdicts, with all they do;
* `sendto`, `connect`          the wrappers; `SendRet.real` and `Connected.real` are the destinations
                               that reach the real calls;
* `SendHeld`, `ConnectHeld`    conditions on the destination, the socket and the loopback;
* `sendto_held`, `connect_held`   a destination is kept from the real call exactly then;
* `egress_iff`                 the isolation that the membership and `LAN_ONLY` promise.

The notes that only later calls read are left out: the echo ids that a socket waits for, and the
destination that a hairpin socket shows.
-/

namespace ShadowLan

def SOCK_RAW : Nat := 3
def IPPROTO_ICMP : Nat := 1

inductive Errno where
  | EINPROGRESS
  | EALREADY
  | EISCONN
  | EWOULDBLOCK
  | ENETUNREACH
  | ECONNREFUSED
  | ETIMEDOUT
  | other (n : Nat)
  deriving DecidableEq

/-- how the wait for a stream ends -/
inductive Waited where
  | opened
  | dead (fail : Nat)
  | timeout
  deriving DecidableEq

/-- answers of the operating system to the calls of one hook, and how a wait of it ends -/
structure HookOs extends Os where
  /-- `SO_PROTOCOL` of a socket -/
  soProtocol : Nat → Option Nat
  nonblock : Nat → Bool
  /-- what the real `connect` to a loopback address says; `none` is success -/
  loopback : SockaddrIn → Option Errno
  waited : Waited

/-- the process: its policy, its datagram sockets and its streams -/
structure HookProc where
  policy : Policy
  udp : UdpHook
  streams : StreamTable

/-! ## ping -/

/-- `dt_is_icmp_sock` -/
def isIcmpSock (os : HookOs) (gsock : Nat) : Bool :=
  if os.sockType gsock = SOCK_RAW then
    match os.soProtocol gsock with
    | some p => p = IPPROTO_ICMP
    | none => true
  else if os.sockType gsock = SOCK_DGRAM then os.soProtocol gsock = some IPPROTO_ICMP
  else false

/-- `dt_icmp_parse_req`: id, sequence number and data of an echo request -/
def icmpParseReq (buf : Bytes) : Option (Nat × Nat × Bytes) :=
  if buf.length < 8 ∨ buf.getD 0 0 ≠ 8 ∨ buf.getD 1 0 ≠ 0 then none
  else some (dtGet16 buf 4, dtGet16 buf 6, buf.drop 8)

def icmpSum : Bytes → Nat
  | a :: b :: rest => a.toNat * 256 + b.toNat + icmpSum rest
  | [a] => a.toNat * 256
  | [] => 0

/-- `while (sum >> 16) sum = (sum & 0xFFFF) + (sum >> 16)`: two rounds do for an `unsigned` -/
def icmpFold (sum : Nat) : Nat :=
  let once := sum % 65536 + sum / 65536
  once % 65536 + once / 65536

/-- `dt_icmp_cksum` -/
def icmpCksum (b : Bytes) : Nat := 65535 - icmpFold (icmpSum b)

/-- `dt_icmp_build_rep` -/
def icmpBuildRep (id seq : Nat) (data : Bytes) : Bytes :=
  let c := icmpCksum ([0, 0, 0, 0] ++ packH id ++ packH seq ++ data)
  [0, 0] ++ packH c ++ packH id ++ packH seq ++ data

namespace HookProc
variable (H : HookProc) (os : HookOs)

/-- the datagram sockets under the policy -/
def hook : UdpHook := { H.udp with net := H.policy.net }

/-- `dt_icmp_self` -/
def icmpSelf (gsock id seq : Nat) (data : Bytes) : UdpHook :=
  if 1500 < 8 + data.length ∨ H.policy.g_myvirt = 0 then H.hook
  else H.hook.udpPush gsock ⟨icmpBuildRep id seq data, ⟨H.policy.g_myvirt, 0⟩⟩

/-- `dt_icmp_send_req` -/
def icmpReq (dest id seq : Nat) (data : Bytes) : HookOut :=
  .tun (encodeIcmp ⟨U_ICMP_REQ, H.policy.g_node, dest, id, seq, data⟩)

/-- the members that a broadcast ping is addressed to, one by one -/
def pinged : List Nat :=
  (H.policy.g_members.map (·.node)).filter fun n =>
    H.policy.nodeVirt n ≠ 0 ∧ H.policy.nodeVirt n ≠ H.policy.g_myvirt

/-- `dt_on_icmp_send`; 0 leaves the packet to the real stack -/
def onIcmpSend (gsock : Nat) (buf : Bytes) (dst : SockaddrIn) : UdpHook × Int × List HookOut :=
  if H.policy.isLocal dst.addr then (H.hook, 0, [])
  else
    match icmpParseReq buf with
    | none => (H.hook, 0, [])
    | some (id, seq, data) =>
      if dst.addr = H.policy.g_myvirt then
        (((H.icmpSelf gsock id seq data).udpCreate gsock).1, 1, [])
      else if H.policy.relayVirt ≠ 0 ∧ dst.addr = H.policy.relayVirt then
        ((H.hook.udpCreate gsock).1, 1, [H.icmpReq 0 id seq data])
      else if H.policy.virtNode dst.addr ≠ 0 then
        ((H.hook.udpCreate gsock).1, 1, [H.icmpReq (H.policy.virtNode dst.addr) id seq data])
      else if H.policy.isVnetBcast dst.addr then
        (((H.icmpSelf gsock id seq data).udpCreate gsock).1, 1,
          H.pinged.map fun n => H.icmpReq n id seq data)
      else (H.hook, 0, [])

/-! ## the wrappers -/

/-- `dt_on_sendto` -/
def dtOnSendto (gsock : Nat) (buf : Bytes) (dst : SockaddrIn) : UdpHook × Int × List HookOut :=
  if isIcmpSock os gsock then H.onIcmpSend gsock buf dst else H.hook.onSendto os.toOs gsock buf dst

inductive SendRet where
  | sent (n : Nat)
  | fail (e : Errno)
  /-- whatever the real `sendto` says of this destination -/
  | real (dest : Option SockaddrIn)
  deriving DecidableEq

/-- `sendto`; `dest = none` is a null or short address, or one of another family -/
def sendto (sockfd : Nat) (buf : Bytes) (dest : Option SockaddrIn) :
    UdpHook × SendRet × List HookOut :=
  match H.policy.g_direct, dest with
  | true, some dst =>
    let (s, cr, out) := H.dtOnSendto os sockfd buf dst
    if cr = -1 then (s, .fail .ENETUNREACH, out)
    else if cr ≠ 0 then (s, .sent buf.length, out)
    else (s, .real dest, out)
  | _, _ => (H.hook, .real dest, [])

/-- an errno that leaves the connection on its way -/
def inFlight : Errno → Bool
  | .EINPROGRESS | .EALREADY | .EISCONN | .EWOULDBLOCK => true
  | _ => false

/-- the loopback address of a hairpin: the real port behind an alias -/
def hairpin (dst : SockaddrIn) : SockaddrIn :=
  ⟨INADDR_LOOPBACK, (H.udp.g_ta.real dst.port SOCK_STREAM).getD dst.port⟩

/-- the real `connect` of a hairpin succeeds or is on its way -/
def loopbackOk (dst : SockaddrIn) : Bool :=
  match os.loopback (H.hairpin dst) with
  | none => true
  | some e => inFlight e

/-- `dt_on_connect`: the streams, the verdict, and the destinations given to the real `connect` -/
def dtOnConnect (gsock sid : Nat) (dst : SockaddrIn) : StreamTable × Int × List SockaddrIn :=
  if H.policy.isLocal dst.addr then (H.streams, 0, [])
  else if os.sockType gsock ≠ SOCK_STREAM then (H.streams, 0, [])
  else if H.policy.rejectWire4 dst then (H.streams, 3, [])
  else if (H.streams.bySock gsock).isSome then (H.streams, 2, [])
  else
    let vnode := H.policy.virtNode dst.addr
    if vnode ≠ 0 ∧ H.policy.isDialLocal vnode then
      (H.streams, if H.loopbackOk os dst then 4 else -1, [H.hairpin dst])
    else if vnode = 0 ∧ ¬ H.policy.lanTarget dst then
      (H.streams, if H.policy.rejectWire4 dst then -1 else 0, [])
    else (H.streams.alloc gsock dst sid, 1, [])

inductive ConnRet where
  | ok
  | fail (e : Errno)
  | real
  deriving DecidableEq

/-- what a `connect` did: the streams, the destinations given to the real `connect`, the answer -/
structure Connected where
  streams : StreamTable
  real : List (Option SockaddrIn)
  ret : ConnRet

/-- the answer to an app whose stream is on its way -/
def waitRet (s : Nat) : ConnRet :=
  if os.nonblock s then .fail .EINPROGRESS
  else
    match os.waited with
    | .opened => .ok
    | .dead fail => .fail (if fail = STF_JOIN_TIMEOUT then .ETIMEDOUT else .ECONNREFUSED)
    | .timeout => .fail .ETIMEDOUT

/-- `my_connect_hook`; `a = none` is a null or short address, or one of another family -/
def connect (s sid : Nat) (a : Option SockaddrIn) : Connected :=
  match H.policy.g_direct, a with
  | true, some dst =>
    let (T, r, calls) := H.dtOnConnect os s sid dst
    if r = 3 then ⟨T, calls.map some, .fail .ENETUNREACH⟩
    else if r = 4 then ⟨T, calls.map some, .ok⟩
    else if r = 1 then ⟨T, calls.map some, waitRet os s⟩
    else if r = 2 then ⟨T, calls.map some, .fail .EALREADY⟩
    else ⟨T, calls.map some ++ [a], .real⟩
  | _, _ => ⟨H.streams, [a], .real⟩

/-! ## what is kept from the real calls -/

/-- an echo request to ourselves, the relay, a member, or all of them -/
def icmpServed (buf : Bytes) (dst : SockaddrIn) : Bool :=
  (icmpParseReq buf).isSome &&
    (dst.addr = H.policy.g_myvirt || (H.policy.relayVirt ≠ 0 && dst.addr = H.policy.relayVirt) ||
      H.policy.virtNode dst.addr ≠ 0 || H.policy.isVnetBcast dst.addr)

/-- a destination that the real `sendto` never sees -/
structure SendHeld (sockfd : Nat) (buf : Bytes) (dst : SockaddrIn) : Prop where
  direct : H.policy.g_direct = true
  remote : H.policy.isLocal dst.addr = false
  icmp : isIcmpSock os sockfd = true → H.icmpServed buf dst = true
  /-- a game datagram: to a member, to the LAN, or to nowhere under `LAN_ONLY` -/
  game : isIcmpSock os sockfd = false →
    (H.policy.virtNode dst.addr ≠ 0 ∧ ipv4IsBcast dst.addr = false) ∨
      H.policy.lanTarget dst = true ∨ (H.policy.virtNode dst.addr = 0 ∧ H.policy.g_lan_only = true)

/-- a destination that the real `connect` never sees -/
structure ConnectHeld (gsock : Nat) (dst : SockaddrIn) : Prop where
  direct : H.policy.g_direct = true
  remote : H.policy.isLocal dst.addr = false
  stream : os.sockType gsock = SOCK_STREAM
  /-- the socket has a stream, or gets one, or its hairpin works, or there is no route -/
  route : (H.streams.bySock gsock).isSome = true ∨
    ((H.policy.isDialLocal (H.policy.virtNode dst.addr) = true → H.loopbackOk os dst = true) ∧
      (H.policy.virtNode dst.addr ≠ 0 ∨ H.policy.lanTarget dst = true ∨ H.policy.g_lan_only = true))

/-- the two addresses of the isolation: a member's, and under `LAN_ONLY` any that is not local -/
def Isolated (dst : SockaddrIn) : Prop :=
  (∃ m ∈ H.policy.g_members, m.virt = dst.addr) ∨
    (H.policy.g_lan_only = true ∧ H.policy.isLocal dst.addr = false)

variable {H} {os} {sockfd gsock sid : Nat} {buf : Bytes} {dst : SockaddrIn}

theorem dial_verdict (s : UdpHook) (o : Os) (raw : Bytes) (frame : UdpGame → Bytes) :
    (s.dial o gsock dst raw frame).2.1 = 1 := by
  unfold UdpHook.dial
  split
  · rfl
  · split <;> rfl

/-- the verdict on a game datagram -/
theorem onSendto_verdict (s : UdpHook) (o : Os) :
    (s.onSendto o gsock buf dst).2.1 =
      if s.net.isLocal dst.addr = true then 0
      else if s.net.virtNode dst.addr ≠ 0 ∧ s.net.isBcast dst.addr = false then 1
      else if s.net.lanTarget dst = true then 1
      else if s.rejectWire4 dst = true then -1
      else 0 := by
  unfold UdpHook.onSendto
  dsimp only
  by_cases hl : s.net.isLocal dst.addr = true
  · rw [if_pos hl, if_pos hl]
  · rw [if_neg hl, if_neg hl]
    by_cases hv : s.net.virtNode dst.addr ≠ 0 ∧ s.net.isBcast dst.addr = false
    · rw [if_pos hv, if_pos (by simpa using hv)]
      split
      · rfl
      · split
        · rfl
        · exact dial_verdict _ _ _ _
    · rw [if_neg hv, if_neg (by simpa using hv)]
      by_cases ht : s.net.lanTarget dst = true
      · rw [if_pos ht, if_neg (not_not.mpr ht)]
        split
        · rfl
        · exact dial_verdict _ _ _ _
      · rw [if_neg ht, if_pos ht]

/-- the verdict on a packet of a ping socket -/
theorem onIcmpSend_verdict : (H.onIcmpSend gsock buf dst).2.1 =
    if H.policy.isLocal dst.addr = true then 0
    else if H.icmpServed buf dst = true then 1 else 0 := by
  unfold onIcmpSend icmpServed
  by_cases hl : H.policy.isLocal dst.addr = true
  · rw [if_pos hl, if_pos hl]
  rw [if_neg hl, if_neg hl]
  cases icmpParseReq buf with
  | none => rfl
  | some q =>
    obtain ⟨id, seq, data⟩ := q
    dsimp only
    by_cases h1 : dst.addr = H.policy.g_myvirt
    · rw [if_pos h1, if_pos (by simp [h1])]
    rw [if_neg h1]
    by_cases h2 : H.policy.relayVirt ≠ 0 ∧ dst.addr = H.policy.relayVirt
    · rw [if_pos h2, if_pos (by simp [h2])]
    rw [if_neg h2]
    by_cases h3 : H.policy.virtNode dst.addr ≠ 0
    · rw [if_pos h3, if_pos (by simp [h3])]
    rw [if_neg h3]
    by_cases h4 : H.policy.isVnetBcast dst.addr = true
    · rw [if_pos h4, if_pos (by simp [h4])]
    rw [if_neg h4, if_neg]
    simpa [h1, h3, h4] using h2

/-- the real `sendto` gets what `dt_on_sendto` answers 0 to -/
theorem sendto_real (hd : H.policy.g_direct = true) :
    (H.sendto os sockfd buf (some dst)).2.1 = .real (some dst) ↔
      (H.dtOnSendto os sockfd buf dst).2.1 = 0 := by
  unfold sendto
  rw [hd]
  dsimp only
  split
  · next h => simp [h]
  · split
    · next h => simp [h]
    · next h => simpa using h

theorem sendto_held :
    (H.sendto os sockfd buf (some dst)).2.1 ≠ .real (some dst) ↔ H.SendHeld os sockfd buf dst := by
  by_cases hd : H.policy.g_direct = true
  · rw [ne_eq, sendto_real hd]
    unfold dtOnSendto
    by_cases hi : isIcmpSock os sockfd = true
    · rw [if_pos hi, onIcmpSend_verdict]
      by_cases hl : H.policy.isLocal dst.addr = true
      · rw [if_pos hl]
        exact ⟨fun h => absurd rfl h, fun h => absurd h.remote (by simp [hl])⟩
      have hl' : H.policy.isLocal dst.addr = false := by simpa using hl
      rw [if_neg hl]
      by_cases hc : H.icmpServed buf dst = true
      · rw [if_pos hc]
        exact ⟨fun _ => ⟨hd, hl', fun _ => hc, fun hno => absurd hi (by simp [hno])⟩,
          fun _ => by decide⟩
      · rw [if_neg hc]
        exact ⟨fun h => absurd rfl h, fun h => absurd (h.icmp hi) hc⟩
    · have hi' : isIcmpSock os sockfd = false := by simpa using hi
      rw [if_neg hi, onSendto_verdict]
      show ¬ (if H.policy.isLocal dst.addr = true then (0 : Int)
        else if H.policy.virtNode dst.addr ≠ 0 ∧ ipv4IsBcast dst.addr = false then 1
        else if H.policy.lanTarget dst = true then 1
        else if H.hook.rejectWire4 dst = true then -1
        else 0) = 0 ↔ _
      by_cases hl : H.policy.isLocal dst.addr = true
      · rw [if_pos hl]
        exact ⟨fun h => absurd rfl h, fun h => absurd h.remote (by simp [hl])⟩
      have hl' : H.policy.isLocal dst.addr = false := by simpa using hl
      rw [if_neg hl]
      by_cases hv : H.policy.virtNode dst.addr ≠ 0 ∧ ipv4IsBcast dst.addr = false
      · rw [if_pos hv]
        exact ⟨fun _ => ⟨hd, hl', fun h => absurd h hi, fun _ => Or.inl hv⟩, fun _ => by decide⟩
      rw [if_neg hv]
      by_cases ht : H.policy.lanTarget dst = true
      · rw [if_pos ht]
        exact ⟨fun _ => ⟨hd, hl', fun h => absurd h hi, fun _ => Or.inr (Or.inl ht)⟩,
          fun _ => by decide⟩
      have ht' : H.policy.lanTarget dst = false := by simpa using ht
      rw [if_neg ht, H.policy.rejectWire4_net hl' ht' rfl]
      have hrej : H.policy.rejectWire4 dst = true ↔
          H.policy.virtNode dst.addr = 0 ∧ H.policy.g_lan_only = true := by
        unfold Policy.rejectWire4
        rw [hl', ht']
        simp [and_comm]
      constructor
      · intro h
        refine ⟨hd, hl', fun h => absurd h hi, fun _ => Or.inr (Or.inr (hrej.mp ?_))⟩
        by_contra hno
        rw [if_neg hno] at h
        exact h rfl
      · intro h
        rcases h.game hi' with h | h | h
        · exact absurd h hv
        · exact absurd h ht
        · rw [if_pos (hrej.mpr h)]
          decide
  · have hd' : H.policy.g_direct = false := by simpa using hd
    unfold sendto
    rw [hd']
    exact ⟨fun h => absurd rfl h, fun h => absurd h.direct hd⟩

/-- the real `connect` gets what `dt_on_connect` gave it, and the destination itself unless the
verdict is one that the wrapper knows -/
theorem connect_real (hd : H.policy.g_direct = true) {T : StreamTable} {r : Int}
    {calls : List SockaddrIn} (h : H.dtOnConnect os gsock sid dst = (T, r, calls)) :
    (H.connect os gsock sid (some dst)).real =
      calls.map some ++ if r = 1 ∨ r = 2 ∨ r = 3 ∨ r = 4 then [] else [some dst] := by
  unfold connect
  rw [hd]
  dsimp only
  rw [h]
  dsimp only
  split
  · next h3 => simp [h3]
  · split
    · next h4 => simp [h4]
    · split
      · next h1 => simp [h1]
      · split
        · next h2 => simp [h2]
        · next h3 h4 h1 h2 => rw [if_neg (by simp [h1, h2, h3, h4])]

/-- a verdict that the wrapper reads as its own keeps the destination from the real `connect` -/
theorem held_of_verdict (hd : H.policy.g_direct = true) {T : StreamTable} {r : Int}
    (h : H.dtOnConnect os gsock sid dst = (T, r, [])) (hr : r = 1 ∨ r = 2 ∨ r = 3) :
    some dst ∉ (H.connect os gsock sid (some dst)).real := by
  rw [connect_real hd h, if_pos (by omega)]
  exact List.not_mem_nil

theorem passed_of_verdict (hd : H.policy.g_direct = true) {T : StreamTable} {r : Int}
    {calls : List SockaddrIn} (h : H.dtOnConnect os gsock sid dst = (T, r, calls))
    (hr : r = 0 ∨ r = -1) : some dst ∈ (H.connect os gsock sid (some dst)).real := by
  rw [connect_real hd h, if_neg (by omega)]
  exact List.mem_append_right _ List.mem_cons_self

section
variable (hd : H.policy.g_direct = true) (hl : ¬ H.policy.isLocal dst.addr = true)
  (ht : os.sockType gsock = SOCK_STREAM) (hr : ¬ H.policy.rejectWire4 dst = true)
  (hs : ¬ (H.streams.bySock gsock).isSome = true)
include hd hl ht hr hs

/-- a destination that this machine serves itself: the hairpin takes it, if the loopback does -/
theorem hairpin_held (hdial : H.policy.isDialLocal (H.policy.virtNode dst.addr) = true) :
    some dst ∉ (H.connect os gsock sid (some dst)).real ↔ H.ConnectHeld os gsock dst := by
  have hl' : H.policy.isLocal dst.addr = false := by simpa using hl
  have hv : H.policy.virtNode dst.addr ≠ 0 := by
    intro h
    rw [h] at hdial
    cases hdial
  have e : H.dtOnConnect os gsock sid dst
      = (H.streams, if H.loopbackOk os dst then 4 else -1, [H.hairpin dst]) := by
    rw [dtOnConnect, if_neg hl, if_neg (not_not.mpr ht), if_neg hr, if_neg hs]
    exact if_pos ⟨hv, hdial⟩
  by_cases ho : H.loopbackOk os dst = true
  · rw [if_pos ho] at e
    refine ⟨fun _ => ⟨hd, hl', ht, Or.inr ⟨fun _ => ho, Or.inl hv⟩⟩, fun _ => ?_⟩
    rw [connect_real hd e, if_pos (by omega), List.append_nil]
    intro h
    -- the hairpin goes to 127.0.0.1, which is local
    have hlo : dst = H.hairpin dst := by simpa using h
    apply hl
    rw [hlo]
    exact H.policy.isLocal_loopback
  · rw [if_neg ho] at e
    refine ⟨fun h => absurd (passed_of_verdict hd e (Or.inr rfl)) h, fun h => ?_⟩
    rcases h.route with h | h
    · exact absurd h hs
    · exact absurd (h.1 hdial) ho

/-- any other destination: a stream takes it, unless it is neither a member's nor the LAN's -/
theorem opened_held (hdial : ¬ H.policy.isDialLocal (H.policy.virtNode dst.addr) = true) :
    some dst ∉ (H.connect os gsock sid (some dst)).real ↔ H.ConnectHeld os gsock dst := by
  have hl' : H.policy.isLocal dst.addr = false := by simpa using hl
  by_cases hp : H.policy.virtNode dst.addr = 0 ∧ ¬ H.policy.lanTarget dst = true
  · have e : H.dtOnConnect os gsock sid dst = (H.streams, 0, []) := by
      rw [dtOnConnect, if_neg hl, if_neg (not_not.mpr ht), if_neg hr, if_neg hs]
      dsimp only
      rw [if_neg (fun h => hdial h.2), if_pos hp, if_neg hr]
    have hlan : H.policy.g_lan_only = false := by
      by_contra hno
      have hno' : H.policy.g_lan_only = true := by simpa using hno
      apply hr
      simp [Policy.rejectWire4, hl', hp, hno']
    refine ⟨fun h => absurd (passed_of_verdict hd e (Or.inl rfl)) h, fun h => ?_⟩
    rcases h.route with h | ⟨-, h | h | h⟩
    · exact absurd h hs
    · exact absurd hp.1 h
    · exact absurd h hp.2
    · rw [hlan] at h
      cases h
  · have e : H.dtOnConnect os gsock sid dst = (H.streams.alloc gsock dst sid, 1, []) := by
      rw [dtOnConnect, if_neg hl, if_neg (not_not.mpr ht), if_neg hr, if_neg hs]
      dsimp only
      rw [if_neg (fun h => hdial h.2), if_neg hp]
    refine ⟨fun _ => ⟨hd, hl', ht, Or.inr ⟨fun h => absurd h hdial, ?_⟩⟩,
      fun _ => held_of_verdict hd e (by omega)⟩
    by_cases hv : H.policy.virtNode dst.addr = 0
    · right
      left
      by_contra hno
      exact hp ⟨hv, hno⟩
    · exact Or.inl hv

end

theorem connect_held :
    some dst ∉ (H.connect os gsock sid (some dst)).real ↔ H.ConnectHeld os gsock dst := by
  by_cases hd : H.policy.g_direct = true
  swap
  · have hd' : H.policy.g_direct = false := by simpa using hd
    unfold connect
    rw [hd']
    exact ⟨fun h => absurd List.mem_cons_self h, fun h => absurd h.direct hd⟩
  by_cases hl : H.policy.isLocal dst.addr = true
  · have e : H.dtOnConnect os gsock sid dst = (H.streams, 0, []) := if_pos hl
    exact ⟨fun h => absurd (passed_of_verdict hd e (Or.inl rfl)) h,
      fun h => absurd h.remote (by simp [hl])⟩
  have hl' : H.policy.isLocal dst.addr = false := by simpa using hl
  by_cases ht : os.sockType gsock = SOCK_STREAM
  swap
  · have e : H.dtOnConnect os gsock sid dst = (H.streams, 0, []) := by
      rw [dtOnConnect, if_neg hl, if_pos ht]
    exact ⟨fun h => absurd (passed_of_verdict hd e (Or.inl rfl)) h, fun h => absurd h.stream ht⟩
  by_cases hr : H.policy.rejectWire4 dst = true
  · have e : H.dtOnConnect os gsock sid dst = (H.streams, 3, []) := by
      rw [dtOnConnect, if_neg hl, if_neg (not_not.mpr ht), if_pos hr]
    simp only [Policy.rejectWire4, Bool.and_eq_true, decide_eq_true_eq] at hr
    obtain ⟨⟨⟨hlan, -⟩, hv⟩, -⟩ := hr
    have hdial : H.policy.isDialLocal (H.policy.virtNode dst.addr) = false := by
      rw [hv]
      rfl
    refine ⟨fun _ => ⟨hd, hl', ht, Or.inr ⟨?_, Or.inr (Or.inr hlan)⟩⟩,
      fun _ => held_of_verdict hd e (by omega)⟩
    intro h
    rw [hdial] at h
    cases h
  by_cases hs : (H.streams.bySock gsock).isSome = true
  · have e : H.dtOnConnect os gsock sid dst = (H.streams, 2, []) := by
      rw [dtOnConnect, if_neg hl, if_neg (not_not.mpr ht), if_neg hr, if_pos hs]
    exact ⟨fun _ => ⟨hd, hl', ht, Or.inl hs⟩, fun _ => held_of_verdict hd e (by omega)⟩
  by_cases hdial : H.policy.isDialLocal (H.policy.virtNode dst.addr) = true
  · exact hairpin_held hd hl ht hr hs hdial
  · exact opened_held hd hl ht hr hs hdial

/-- **Egress isolation.**  A `sendto` and a `connect` to a destination that is to be isolated keep it
from the real calls exactly when the conditions on the destination, the sockets and the loopback
hold. -/
theorem egress_iff (H : HookProc) (os : HookOs) (sockfd gsock sid : Nat) (buf : Bytes)
    (dst : SockaddrIn) :
    (H.Isolated dst → (H.sendto os sockfd buf (some dst)).2.1 ≠ .real (some dst) ∧
        some dst ∉ (H.connect os gsock sid (some dst)).real) ↔
      (H.Isolated dst → H.SendHeld os sockfd buf dst ∧ H.ConnectHeld os gsock dst) := by
  rw [sendto_held, connect_held]

/-! ### what gets out -/

/-- node 2 of the virtual network `10.200.0.0/24`, with one other member, under `LAN_ONLY` -/
def islandPolicy : Policy :=
  ⟨true, true, [], 2, 0x0AC80002, [⟨2, 0x0AC80002⟩, ⟨3, 0x0AC80003⟩], 0x0AC80000, 24, []⟩

def island : HookProc := ⟨islandPolicy, .init, .init⟩

/-- the real `connect` to loopback is refused -/
def refusedOs (type : Nat) : HookOs :=
  { port := fun _ => some 40000, sockType := fun _ => type, autobind := 0, socket := fun _ => none,
    lport := 0, ping := [], soProtocol := fun _ => some 0, nonblock := fun _ => false,
    loopback := fun _ => some .ECONNREFUSED, waited := .timeout }

/-- a datagram socket connects to a public address, and a stream to our own virtual one -/
theorem egress_leaks :
    (island.Isolated ⟨0x08080808, 53⟩ ∧
      some ⟨0x08080808, 53⟩ ∈
        (island.connect (refusedOs SOCK_DGRAM) 5 1 (some ⟨0x08080808, 53⟩)).real) ∧
    (island.Isolated ⟨0x0AC80002, 27015⟩ ∧
      (island.connect (refusedOs SOCK_STREAM) 5 1 (some ⟨0x0AC80002, 27015⟩)).real =
        [some ⟨INADDR_LOOPBACK, 27015⟩, some ⟨0x0AC80002, 27015⟩]) := by
  refine ⟨⟨Or.inr (by decide), by decide⟩, ⟨Or.inr (by decide), ?_⟩⟩
  decide +kernel

end HookProc

end ShadowLan
