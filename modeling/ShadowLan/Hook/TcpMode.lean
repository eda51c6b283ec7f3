import ShadowLan.Hook.Control
import ShadowLan.Hook.Egress

/-!
# UDP over TCP

With `g_udp_tcp` set, `dt_udp_tun_send` puts a datagram for the relay into the queue of the control
link instead of the UDP tunnel's socket.  The datagrams come from the app's `sendto`, from echo
requests (`sendto` on a ping socket, or `IcmpSendEcho`), from the answers to the relay's echo
requests, and from the hosted thread.

* `react`         an event of the process, with all that it emits;
* `step`          an event, the end of one call of `dt_udp_tun_send`, or a step of the control link;
* `Complete`      what the step emits goes to `dt_udp_tun_send`, the end of a call queues a frame
                  `DT_UDP_TUN` with the bytes of the datagram or drops it because the queue is full,
                  and nothing is written to the UDP socket;
* `complete_iff`  from any state, this holds along a run exactly when the hosted thread never
                  forwards.

What the ping bridge makes of an echo reply comes with the event (`Os.ping`).
-/

namespace ShadowLan

/-- what happens in a process -/
inductive HookEv where
  /-- the configuration or the membership changes -/
  | policy (P : Policy)
  /-- a datagram event other than `sendto` and the arrival of a datagram from the relay -/
  | udp (a : UdpAct)
  | sendto (os : HookOs) (sockfd : Nat) (buf : Bytes) (dest : Option SockaddrIn)
  /-- `dt_udp_ingress`, from the UDP thread or the control thread -/
  | ingress (os : HookOs) (b : Bytes)
  /-- `dt_icmp_echo`; `ok` says that the buffers suffice and an event and a slot are there -/
  | echo (ok : Bool) (id seq dst : Nat) (req : Bytes)

/-- the hosted thread carries an answer back -/
def HookEv.forwards : HookEv → Bool
  | .udp (.forward _) => true
  | _ => false

namespace HookProc
variable (H : HookProc)

/-- `dt_icmp_in`: a request for us is answered; a reply goes to the sockets that wait for it -/
def icmpIn (os : HookOs) (isRep : Bool) (src dest id seq : Nat) (data : Bytes) :
    UdpHook × List HookOut :=
  if isRep then (os.ping.foldl (fun s p => s.udpPush p.1 p.2) H.hook, [])
  else if H.policy.g_node = 0 ∨ dest ≠ H.policy.g_node then (H.hook, [])
  else (H.hook, [.tun (encodeIcmp ⟨U_ICMP_REP, H.policy.g_node, src, id, seq, data⟩)])

/-- `dt_udp_ingress` -/
def udpIngress (os : HookOs) (b : Bytes) : UdpHook × List HookOut :=
  if udpHeaderOk b 10 ∧ (udpOp b = U_ICMP_REQ ∨ udpOp b = U_ICMP_REP) then
    if 16 ≤ b.length then
      H.icmpIn os (udpOp b = U_ICMP_REP) (dtGet32 b 4) (dtGet32 b 8) (dtGet16 b 12) (dtGet16 b 14)
        (b.drop 16)
    else (H.hook, [])
  else H.hook.udpIngress os.toOs b

/-- the requests of `dt_icmp_echo` -/
def icmpEcho (id seq dst : Nat) (req : Bytes) : List HookOut :=
  if ¬ H.policy.g_direct ∨ H.policy.isLocal dst ∨ dst = H.policy.g_myvirt then []
  else if H.policy.isVnetBcast dst then H.pinged.map fun n => H.icmpReq n id seq req
  else if H.policy.relayVirt ≠ 0 ∧ dst = H.policy.relayVirt then [H.icmpReq 0 id seq req]
  else if H.policy.virtNode dst = 0 then []
  else [H.icmpReq (H.policy.virtNode dst) id seq req]

/-- an event, with what it emits -/
def react : HookEv → Option (HookProc × List HookOut)
  | .policy P => some ({ H with policy := P }, [])
  | .udp (.sendto ..) | .udp (.ingress ..) | .udp (.net _) => none
  | .udp a => (H.hook.step a).map fun r => ({ H with udp := r.1 }, r.2)
  | .sendto os sockfd buf dest =>
    let r := H.sendto os sockfd buf dest
    some ({ H with udp := r.1 }, r.2.2)
  | .ingress os b =>
    let r := H.udpIngress os b
    some ({ H with udp := r.1 }, r.2)
  | .echo ok id seq dst req => some (H, if ok then H.icmpEcho id seq dst req else [])

end HookProc

/-! ## the two ways to the relay -/

/-- the process with its two ways to the relay: `calls` are the calls of `dt_udp_tun_send` that are
not over, `wire` is what was written to the UDP tunnel's socket -/
structure TunProc where
  proc : HookProc
  ctl : Ctl
  calls : List Bytes
  wire : List Bytes

inductive TunAct where
  | hook (e : HookEv)
  /-- the `k`-th call of `dt_udp_tun_send` ends -/
  | sent (k : Nat)
  | link (a : CtlAct)

/-- the hosted thread carries an answer back -/
def TunAct.forwards : TunAct → Bool
  | .hook e => e.forwards
  | _ => false

/-- the frames that threads other than these queue -/
def CtlAct.foreign : CtlAct → Bool
  | .queue type _ => type ≠ DT_UDP_TUN && type ≠ DT_BCAST
  | _ => true

namespace TunProc
variable (T : TunProc)

/-- one output of an event -/
def emit : HookOut → TunProc
  | .tun d => { T with calls := T.calls ++ [d] }
  | .udptun d => { T with wire := T.wire ++ [d] }
  | .bcast p => { T with ctl := T.ctl.dtTcpQueue DT_BCAST p }
  | .inject .. => T

/-- `dt_udp_tun_send` -/
def dtUdpTunSend (g_udp_tcp : Bool) (d : Bytes) : TunProc :=
  if g_udp_tcp then { T with ctl := T.ctl.dtTcpQueue DT_UDP_TUN d }
  else { T with wire := T.wire ++ [d] }

def step (g_udp_tcp : Bool) : TunAct → Option TunProc
  | .hook e => (T.proc.react e).map fun r => r.2.foldl emit { T with proc := r.1 }
  | .sent k => T.calls[k]?.map fun d =>
      { T with calls := T.calls.eraseIdx k }.dtUdpTunSend g_udp_tcp d
  | .link a =>
    if a.foreign then (T.ctl.step g_udp_tcp a).map fun c => { T with ctl := c } else none

/-! ## complete -/

/-- the datagram is queued as one frame with its bytes, or dropped because the queue is full -/
def Carried (c c' : Ctl) (d : Bytes) : Prop :=
  c' = { c with
      g_sq := c.g_sq ++ [⟨DT_UDP_TUN, packI (1 + d.length) ++ DT_UDP_TUN :: d⟩],
      g_sq_bytes := c.g_sq_bytes + (5 + d.length) } ∨
    c' = c ∧ DT_CTLQ_DROP < c.g_sq_bytes + (5 + d.length)

/-- the datagrams for the relay that an event emits -/
def datagrams (e : HookEv) : List Bytes :=
  ((T.proc.react e).map fun r => r.2.filterMap HookOut.toRelay).getD []

/-- every datagram for the relay goes through `dt_udp_tun_send` into the queue of the control link -/
def Tunneled (T' : TunProc) : TunAct → Prop
  | .hook e => T'.calls = T.calls ++ T.datagrams e
  | .sent k => T'.calls = T.calls.eraseIdx k ∧ ∀ d ∈ T.calls[k]?, Carried T.ctl T'.ctl d
  | .link _ => T'.calls = T.calls

def Complete (a : TunAct) : Prop :=
  ∀ T', T.step true a = some T' → T'.wire = T.wire ∧ T.Tunneled T' a

end TunProc

/-! ## what is written to the socket at once -/

/-- straight to the tunnel's UDP socket -/
def HookOut.direct : HookOut → Bool
  | .udptun _ => true
  | _ => false

def NoDirect (l : List HookOut) : Prop := l.any HookOut.direct = false

theorem noDirect_nil : NoDirect [] := rfl

theorem dial_noDirect (s : UdpHook) (os : Os) (gsock : Nat) (dst : SockaddrIn) (raw : Bytes)
    (frame : UdpGame → Bytes) : NoDirect (s.dial os gsock dst raw frame).2.2 := by
  unfold UdpHook.dial
  generalize s.slotGet gsock dst.port dst = r
  obtain ⟨u, i?⟩ := r
  cases i? with
  | none => exact noDirect_nil
  | some i =>
    dsimp only
    generalize u.sportPresentation os gsock = r
    obtain ⟨v, sp?⟩ := r
    cases sp? with
    | none => exact noDirect_nil
    | some sp => exact rfl

theorem onSendto_noDirect (s : UdpHook) (os : Os) (gsock : Nat) (buf : Bytes) (dst : SockaddrIn) :
    NoDirect (s.onSendto os gsock buf dst).2.2 := by
  unfold UdpHook.onSendto
  dsimp only
  split
  · exact noDirect_nil
  split
  · split
    · exact noDirect_nil
    · cases s.sessionOfClient dst with
      | some i => exact rfl
      | none => exact dial_noDirect ..
  split
  · exact noDirect_nil
  split
  · exact rfl
  · exact dial_noDirect ..

theorem hostedUdpIn_noDirect (s : UdpHook) (os : Os) (g : UdpGame) :
    NoDirect (s.hostedUdpIn os g).2.2 := by
  unfold UdpHook.hostedUdpIn
  cases UdpHook.hostedCli g with
  | none => exact noDirect_nil
  | some cli =>
    dsimp only
    generalize s.usessFind os (s.realPort g.triple.gport) cli.addr cli g.triple = r
    obtain ⟨u, i?⟩ := r
    cases i? with
    | none => exact noDirect_nil
    | some i =>
      dsimp only
      cases (u.g_us i).real with
      | none => exact noDirect_nil
      | some fd => exact rfl

theorem c2sIn_noDirect (s : UdpHook) (os : Os) (g : UdpGame) : NoDirect (s.c2sIn os g).2 := by
  have h := hostedUdpIn_noDirect s os g
  unfold UdpHook.c2sIn
  revert h
  generalize s.hostedUdpIn os g = r
  obtain ⟨u, ok, out⟩ := r
  intro h
  cases ok <;> exact h

theorem udpIngress_noDirect (s : UdpHook) (os : Os) (b : Bytes) :
    NoDirect (s.udpIngress os b).2 := by
  unfold UdpHook.udpIngress
  split
  · exact noDirect_nil
  split
  · cases dtGame b with
    | none => exact noDirect_nil
    | some g => exact c2sIn_noDirect s os g
  split
  · exact noDirect_nil
  split
  · cases dtGame b <;> exact noDirect_nil
  · exact noDirect_nil

namespace HookProc
variable (H : HookProc)

theorem pinged_noDirect (l : List Nat) (id seq : Nat) (data : Bytes) :
    NoDirect (l.map fun n => H.icmpReq n id seq data) := by
  unfold NoDirect
  rw [List.any_map]
  exact List.any_eq_false.mpr fun _ _ => Bool.false_ne_true

theorem onIcmpSend_noDirect (gsock : Nat) (buf : Bytes) (dst : SockaddrIn) :
    NoDirect (H.onIcmpSend gsock buf dst).2.2 := by
  unfold onIcmpSend
  split
  · exact noDirect_nil
  cases icmpParseReq buf with
  | none => exact noDirect_nil
  | some x =>
    dsimp only
    split
    · exact noDirect_nil
    split
    · exact rfl
    split
    · exact rfl
    split
    · exact H.pinged_noDirect ..
    · exact noDirect_nil

theorem sendto_noDirect (os : HookOs) (sockfd : Nat) (buf : Bytes) (dest : Option SockaddrIn) :
    NoDirect (H.sendto os sockfd buf dest).2.2 := by
  have hon : ∀ dst, NoDirect (H.dtOnSendto os sockfd buf dst).2.2 := fun dst => by
    unfold dtOnSendto
    split_ifs
    · exact H.onIcmpSend_noDirect ..
    · exact onSendto_noDirect ..
  unfold sendto
  cases H.policy.g_direct with
  | false => exact noDirect_nil
  | true =>
    cases dest with
    | none => exact noDirect_nil
    | some dst =>
      have h := hon dst
      dsimp only
      split_ifs <;> exact h

theorem icmpEcho_noDirect (id seq dst : Nat) (req : Bytes) :
    NoDirect (H.icmpEcho id seq dst req) := by
  unfold icmpEcho
  split_ifs
  · exact noDirect_nil
  · exact H.pinged_noDirect ..
  · exact rfl
  · exact noDirect_nil
  · exact rfl

theorem ingress_noDirect (os : HookOs) (b : Bytes) : NoDirect (H.udpIngress os b).2 := by
  unfold udpIngress icmpIn
  split_ifs
  · exact noDirect_nil
  · exact noDirect_nil
  · exact rfl
  · exact noDirect_nil
  · exact udpIngress_noDirect ..

/-- **Only the hosted thread writes to the socket at once.** -/
theorem react_noDirect {e : HookEv} {r : HookProc × List HookOut} (h : H.react e = some r) :
    e.forwards = false → NoDirect r.2 := by
  intro hf
  cases e with
  | policy P =>
    rw [← Option.some.inj h]
    exact noDirect_nil
  | sendto os sockfd buf dest =>
    rw [← Option.some.inj h]
    exact H.sendto_noDirect ..
  | ingress os b =>
    rw [← Option.some.inj h]
    exact H.ingress_noDirect ..
  | echo ok id seq dst req =>
    rw [← Option.some.inj h]
    cases ok with
    | true => exact H.icmpEcho_noDirect ..
    | false => exact noDirect_nil
  | udp a =>
    cases a with
    | sendto | ingress | net => cases h
    | forward raw => cases hf
    | skip =>
      obtain ⟨⟨s', out⟩, hs, rfl⟩ := Option.map_eq_some_iff.mp h
      unfold UdpHook.step at hs
      obtain ⟨-, hs⟩ := Option.ite_none_right_eq_some.mp hs
      dsimp only at hs
      cases hsnap : H.hook.snap with
      | nil =>
        rw [hsnap] at hs
        cases hs
      | cons x rest =>
        rw [hsnap] at hs
        cases hs
        exact noDirect_nil
    | bind | ensure | recv | close | sweep | tick =>
      unfold react at h
      obtain ⟨⟨s', out⟩, hs, rfl⟩ := Option.map_eq_some_iff.mp h
      obtain ⟨-, hs⟩ := Option.ite_none_right_eq_some.mp hs
      cases hs
      exact noDirect_nil

/-- the hosted thread does -/
theorem react_forward {raw : Bytes} {r : HookProc × List HookOut}
    (h : H.react (.udp (.forward raw)) = some r) : ∃ d, r.2 = [.udptun d] := by
  obtain ⟨⟨s', out⟩, hs, rfl⟩ := Option.map_eq_some_iff.mp h
  obtain ⟨-, hs⟩ := Option.ite_none_right_eq_some.mp hs
  dsimp only at hs
  cases hsnap : H.hook.snap with
  | nil =>
    rw [hsnap] at hs
    cases hs
  | cons e rest =>
    rw [hsnap] at hs
    obtain ⟨-, hs⟩ := Option.ite_none_left_eq_some.mp hs
    cases hs
    exact ⟨_, rfl⟩

end HookProc

namespace TunProc
variable {T T' : TunProc}

theorem foldl_emit {l : List HookOut} (hl : NoDirect l) (T : TunProc) :
    (l.foldl emit T).wire = T.wire ∧
      (l.foldl emit T).calls = T.calls ++ l.filterMap HookOut.toRelay := by
  induction l generalizing T with
  | nil => exact ⟨rfl, (List.append_nil _).symm⟩
  | cons o l ih =>
    obtain ⟨ho, hl⟩ := Bool.or_eq_false_iff.mp hl
    obtain ⟨hw, hc⟩ := ih hl (T.emit o)
    rw [List.foldl_cons, hw, hc]
    cases o with
    | tun d => exact ⟨rfl, List.append_assoc ..⟩
    | udptun d => cases ho
    | bcast p => exact ⟨rfl, rfl⟩
    | inject fd port raw => exact ⟨rfl, rfl⟩

theorem carried_dtTcpQueue (c : Ctl) (d : Bytes) : Carried c (c.dtTcpQueue DT_UDP_TUN d) d := by
  have hn : (dtFrame DT_UDP_TUN d).n = 5 + d.length := by
    simp only [DtFrame.n, dtFrame, packI, List.length_append, List.length_cons, List.length_nil]
    omega
  unfold Ctl.dtTcpQueue
  rw [hn]
  split
  next hfull => exact Or.inr ⟨rfl, hfull.2⟩
  next => exact Or.inl rfl

/-- a step is complete exactly when it is not one of the hosted thread that carries an answer back -/
theorem complete_step_iff {a : TunAct} (h : T.step true a = some T') :
    T.Complete a ↔ a.forwards = false := by
  have hiff : T.Complete a ↔ T'.wire = T.wire ∧ T.Tunneled T' a :=
    ⟨fun hc => hc T' h, fun hc u hu => Option.some.inj (h.symm.trans hu) ▸ hc⟩
  rw [hiff]
  cases a with
  | hook e =>
    obtain ⟨⟨H', out⟩, hr, rfl⟩ := Option.map_eq_some_iff.mp h
    have hout : T.datagrams e = out.filterMap HookOut.toRelay := by
      unfold datagrams
      rw [hr]
      rfl
    cases hf : e.forwards with
    | false =>
      obtain ⟨hw, hc⟩ := foldl_emit (T.proc.react_noDirect hr hf) { T with proc := H' }
      exact iff_of_true ⟨hw, hc.trans (by rw [hout])⟩ hf
    | true =>
      refine iff_of_false (fun hc => ?_) (Bool.eq_false_iff.not_left.mpr hf)
      cases e with
      | udp a =>
        cases a with
        | forward raw =>
          obtain ⟨d, hd⟩ := T.proc.react_forward hr
          have hw := hc.1
          rw [hd] at hw
          exact absurd (List.append_right_eq_self.mp hw) (List.cons_ne_nil d [])
        | _ => cases hf
      | _ => cases hf
  | sent k =>
    obtain ⟨d, hd, rfl⟩ := Option.map_eq_some_iff.mp h
    refine iff_of_true ⟨rfl, rfl, fun d' hd' => ?_⟩ rfl
    rw [Option.some.inj (hd.symm.trans hd')]
    exact carried_dtTcpQueue T.ctl d'
  | link a =>
    obtain ⟨-, h⟩ := Option.ite_none_right_eq_some.mp h
    obtain ⟨c, -, rfl⟩ := Option.map_eq_some_iff.mp h
    exact iff_of_true ⟨rfl, rfl⟩ rfl

/-- **UDP over TCP.**  From any state, every datagram for the relay goes through the control link
exactly when the hosted thread carries no answer back. -/
theorem complete_iff {T₀ : TunProc} {tr : List (TunProc × TunAct)}
    (hp : Path (step · true) T₀ tr T) :
    (∀ x ∈ tr, x.1.Complete x.2) ↔ ∀ x ∈ tr, x.2.forwards = false :=
  forall₂_congr fun _ hx => (hp.enabled hx).elim fun _ hu => complete_step_iff hu

/-! ### the ways of a datagram -/

/-- node 2 of `10.200.0.0/24`, in a process that has just started -/
def boot : TunProc := ⟨HookProc.island, .boot, [], []⟩

/-- sockets on port 27015, of which socket 3 is a ping socket; the first session gets socket 9 -/
def lanOs : HookOs :=
  { port := fun _ => some 27015, sockType := fun _ => SOCK_DGRAM, autobind := 0,
    socket := fun _ => some 9, lport := 50001, ping := [],
    soProtocol := fun s => some (if s = 3 then IPPROTO_ICMP else 0), nonblock := fun _ => false,
    loopback := fun _ => none, waited := .timeout }

/-- a datagram to node 3, an echo request to node 3, and one from node 3 that is answered -/
def chatting : List TunAct :=
  [.hook (.sendto lanOs 5 [7] (some ⟨0x0AC80003, 27015⟩)),
    .hook (.sendto lanOs 3 [8, 0, 0, 0, 0, 1, 0, 2] (some ⟨0x0AC80003, 0⟩)), .sent 0,
    .hook (.ingress lanOs (encodeIcmp ⟨U_ICMP_REQ, 3, 2, 1, 2, []⟩)), .sent 0, .sent 0]

theorem complete_chatting : ∃ tr T, Path (step · true) boot tr T ∧ T.ctl.g_sq.length = 3 ∧
    T.wire = [] ∧ ∀ x ∈ tr, x.1.Complete x.2 := by
  have hrun : (run (step · true) boot chatting).isSome = true := by decide +kernel
  obtain ⟨T, hT⟩ := Option.isSome_iff_exists.mp hrun
  have hend : ∀ T ∈ run (step · true) boot chatting, T.ctl.g_sq.length = 3 ∧ T.wire = [] := by
    decide +kernel
  exact ⟨_, T, path_run hT, (hend T hT).1, (hend T hT).2,
    (complete_iff (path_run hT)).mpr (by decide +kernel)⟩

/-- node 3 plays a game that is hosted here -/
def hosting : List TunAct :=
  [.hook (.ingress lanOs (encodeUdpGame U_GAME_C2S ⟨⟨27015, dotted 0x0AC80003, 40000⟩, [7]⟩)),
    .hook (.udp .sweep), .hook (.udp (.forward [1]))]

/-- the game's answer goes out on UDP -/
theorem incomplete_hosting : ∃ tr T, Path (step · true) boot tr T ∧
    T.wire = [encodeUdpGame U_GAME_S2C ⟨⟨27015, dotted 0x0AC80003, 40000⟩, [1]⟩] ∧
    T.ctl.g_sq = [] ∧ T.calls = [] ∧ ¬ ∀ x ∈ tr, x.1.Complete x.2 := by
  have hrun : (run (step · true) boot hosting).isSome = true := by decide +kernel
  obtain ⟨T, hT⟩ := Option.isSome_iff_exists.mp hrun
  have hend : ∀ T ∈ run (step · true) boot hosting,
      T.wire = [encodeUdpGame U_GAME_S2C ⟨⟨27015, dotted 0x0AC80003, 40000⟩, [1]⟩] ∧
      T.ctl.g_sq = [] ∧ T.calls = [] := by
    decide +kernel
  obtain ⟨hw, hq, hc⟩ := hend T hT
  refine ⟨_, T, path_run hT, hw, hq, hc, fun hall => ?_⟩
  have hbad : ¬ ∀ x ∈ trace (step · true) boot hosting, x.2.forwards = false := by decide
  exact hbad fun x hx =>
    ((path_run hT).enabled hx).elim fun _ hu => (complete_step_iff hu).mp (hall x hx)

end TunProc

end ShadowLan
