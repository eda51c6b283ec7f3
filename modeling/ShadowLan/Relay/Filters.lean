import ShadowLan.Hook.Interop

/-!
# The port filters

A relay may be told which TCP and UDP game ports and which discovery ports it serves.  A `T_STOPEN`,
a C2S, a P2P and a beacon are looked at when they arrive; a reply is not, it goes by the flow that it
answers.

* `Filtered`     every flow is of an allowed port: what the two places that note flows keep, and what
                 each of the three look-ups of a reply rests on;
* `streqs`       the fan-out of `handle_stream_open`, which goes on while the handler is suspended;
* `Hub`          the relay with its streams, its beacons and the fan-outs that are under way;
* `Passes`       the ports as they stand in what is transmitted;
* `filters_run`  everything that is transmitted in a run passes.
-/

namespace ShadowLan
namespace Relay
variable {s t : Relay}

/-- every flow is of an allowed port -/
def Filtered (s : Relay) : Prop := ∀ e ∈ s.udp_flows.items, s.portAllowed e.1.2.gport = true

/-- the ports stay as they are configured, and the flows within them -/
structure Lets (s t : Relay) : Prop where
  allowed : t.allowed_udp = s.allowed_udp
  flows : s.Filtered → t.Filtered

theorem Lets.trans {u : Relay} (h : Lets s t) (h' : Lets t u) : Lets s u :=
  ⟨h'.allowed.trans h.allowed, fun hs => h'.flows (h.flows hs)⟩

theorem SameFlows.lets (h : SameFlows s t) : Lets s t := by
  refine ⟨h.allowed, fun hs e he => ?_⟩
  rw [h.flows] at he
  unfold portAllowed
  rw [h.allowed]
  exact hs e he

theorem Lets.refl (s : Relay) : Lets s s := (SameFlows.refl s).lets

theorem Lets.port (h : Lets s t) : t.portAllowed = s.portAllowed := by
  funext gport
  unfold portAllowed
  rw [h.allowed]

/-! ## what a datagram leaves -/

theorem lets_setFlow {k : DestTag × Triple} {fl : Flow} (hp : s.portAllowed k.2.gport = true) :
    Lets s { s with udp_flows := s.udp_flows.set k fl } := by
  refine ⟨rfl, fun hs e he => ?_⟩
  rcases Dict.mem_set.mp he with rfl | ⟨he, -⟩
  · exact hp
  · exact hs e he

theorem lets_setFlows {k : Triple} (hp : s.portAllowed k.gport = true) (player : Addr)
    (dests : List Addr) : Lets s (dests.foldl (fun s dst => s.setFlow (.a dst) k player) s) := by
  induction dests generalizing s with
  | nil => exact .refl s
  | cons d dests ih => exact (lets_setFlow hp).trans (ih hp)

theorem lets_trimFlows (s : Relay) : Lets s s.trimFlows := by
  unfold trimFlows
  split
  · exact ⟨rfl, fun _ => nofun⟩
  · exact .refl s

theorem lets_recordUdpProof (s : Relay) (a : Addr) : Lets s (s.recordUdpProof a) :=
  SameFlows.lets ⟨(heard_recordUdpProof s a).flows, (heard_recordUdpProof s a).allowed⟩

theorem lets_udpTargets (s : Relay) (gport : Nat) (a : Addr) : Lets s (s.udpTargets gport a).1 := by
  unfold udpTargets
  split
  · exact .refl s
  · exact SameFlows.lets ⟨rfl, rfl⟩

theorem lets_handleNode (s : Relay) (data : Bytes) (a : Addr) : Lets s (s.handleNode data a) := by
  unfold handleNode
  split
  · exact .refl s
  · split
    · exact .refl s
    · split
      · exact .refl s
      · dsimp only
        split <;> exact SameFlows.lets ⟨rfl, rfl⟩

theorem lets_handleP2p (s : Relay) (data : Bytes) (a : Addr) : Lets s (s.handleP2p data a).1 := by
  rw [handleP2p_eq]
  split
  · exact .refl s
  · dsimp only
    split
    · exact .refl s
    next hp =>
      split
      · exact lets_recordUdpProof s a
      · have hp := (Bool.not_eq_true _).mp hp
        rw [Bool.not_eq_false'] at hp
        have hnote : Lets s (s.noteUdp a) := SameFlows.lets ⟨rfl, rfl⟩
        exact (hnote.trans (lets_setFlow (hnote.port ▸ hp))).trans (lets_trimFlows _)

theorem lets_handleIcmp (s : Relay) (data : Bytes) (a : Addr) : Lets s (s.handleIcmp data a).1 := by
  have hnote : Lets s (s.noteUdp a) := SameFlows.lets ⟨rfl, rfl⟩
  unfold handleIcmp
  cases decodeIcmp data with
  | none => exact .refl s
  | some f =>
    dsimp only
    cases s.icmpSource a f.src with
    | none => exact .refl s
    | some node =>
      dsimp only
      split
      · split
        · exact .refl s
        · exact hnote
      · split
        · exact .refl s
        · split
          · exact .refl s
          · exact hnote

theorem lets_handleC2s (s : Relay) (data : Bytes) (a : Addr) : Lets s (s.handleC2s data a).1 := by
  unfold handleC2s
  split
  · exact .refl s
  next g _ =>
    split
    · exact .refl s
    next hp =>
      have hp := (Bool.not_eq_true _).mp hp
      rw [Bool.not_eq_false'] at hp
      have hnote : Lets s (s.noteUdp a) := SameFlows.lets ⟨rfl, rfl⟩
      have htargets := hnote.trans (lets_udpTargets (s.noteUdp a) g.triple.gport a)
      dsimp only
      split
      · exact htargets
      · exact (htargets.trans (lets_setFlows (htargets.port ▸ hp) a _)).trans (lets_trimFlows _)

/-- all three look-ups of a reply come to a flow with the reply's triple -/
theorem flowFor_mem {a : Addr} {k : Triple} {e : (DestTag × Triple) × Flow}
    (h : s.flowFor a k = some e) : e.1.2 = k ∧ e ∈ s.udp_flows.items := by
  have hat : ∀ {tag}, (s.udp_flows.get? (tag, k)).map (fun fl => ((tag, k), fl)) = some e →
      e.1.2 = k ∧ e ∈ s.udp_flows.items := by
    intro tag h
    obtain ⟨fl, hfl, rfl⟩ := Option.map_eq_some_iff.mp h
    exact ⟨rfl, Dict.get?_eq_some.mp hfl⟩
  unfold flowFor at h
  rcases Option.or_eq_some_iff.mp h with h | ⟨-, h⟩
  · rcases Option.or_eq_some_iff.mp h with h | ⟨-, h⟩
    · exact hat h
    · obtain ⟨nid, -, h⟩ := Option.bind_eq_some_iff.mp h
      exact hat h
  · obtain ⟨hmem, hp, -⟩ := freshest_some h
    have hk := (Bool.and_eq_true _ _ ▸ hp).1
    exact ⟨of_decide_eq_true hk, hmem⟩

theorem lets_handleS2c (s : Relay) (data : Bytes) (a : Addr) : Lets s (s.handleS2c data a).1 := by
  unfold handleS2c
  split
  · exact .refl s
  next g _ =>
    cases hf : s.flowFor a g.triple with
    | none => exact .refl s
    | some e =>
      dsimp only
      split
      · exact .refl s
      · split
        · exact .refl s
        · refine ⟨rfl, fun hs => ?_⟩
          have htouch : Lets s (s.touchFlow e.1 e.2.player) := lets_setFlow (hs e (flowFor_mem hf).2)
          have hlearn : Lets (s.touchFlow e.1 e.2.player)
              ((s.touchFlow e.1 e.2.player).learn e.2.player g.triple.gport a) :=
            SameFlows.lets ⟨rfl, rfl⟩
          exact (htouch.trans hlearn).flows hs

theorem lets_handleUdpPayload (s : Relay) (data : Bytes) (a : Addr) :
    Lets s (s.handleUdpPayload data a).1 := by
  have hproof := lets_recordUdpProof s a
  unfold handleUdpPayload
  repeat' split
  · exact .refl s
  · exact lets_handleNode s data a
  · exact lets_handleP2p s data a
  · exact lets_handleIcmp s data a
  · exact hproof.trans (lets_handleS2c _ data a)
  · exact hproof.trans (lets_handleC2s _ data a)
  · exact .refl s

theorem lets_next {a : RelayAct} (h : s.next a = some t) : Lets s t := by
  obtain ⟨r, hr, rfl⟩ := Option.map_eq_some_iff.mp h
  cases a with
  | datagram data ip port =>
    rw [← Option.some.inj hr]
    exact lets_handleUdpPayload s data _
  | tun w data =>
    obtain ⟨ip, -, rfl⟩ := Option.map_eq_some_iff.mp hr
    dsimp only [tunFrame]
    split
    · exact .refl s
    · exact lets_handleUdpPayload s data _
  | accept | close | node | udpMode | gone | tick => exact (next_flows rfl h).lets

/-! ## what a datagram sends -/

/-- a game datagram that is transmitted is of an allowed port -/
def GameOk (s : Relay) (b : Bytes) : Prop :=
  udpOp b = U_GAME_C2S ∨ udpOp b = U_GAME_S2C → s.portAllowed (dtGet16 b 4) = true

theorem gport_of_decode {b : Bytes} {o : Nat} {g : UdpGame} (h : decodeGameAt b o = some g) :
    g.triple.gport < 65536 ∧ dtGet16 b o = g.triple.gport := by
  unfold decodeGameAt at h
  obtain ⟨gport, hg, h⟩ := Option.bind_eq_some_iff.mp h
  obtain ⟨il, -, h⟩ := Option.bind_eq_some_iff.mp h
  obtain ⟨ip, -, h⟩ := Option.bind_eq_some_iff.mp h
  obtain ⟨cport, -, h⟩ := Option.bind_eq_some_iff.mp h
  rw [← Option.some.inj h]
  exact ⟨unpackH_lt hg, (unpackH_slice hg).2⟩

theorem gport_of_game {b : Bytes} {g : UdpGame} (h : decodeUdpGame b = some g) :
    dtGet16 b 4 = g.triple.gport :=
  (gport_of_decode (Option.ite_none_right_eq_some.mp h).2).2

theorem gport_of_pdat {b : Bytes} {p : Nat × UdpGame} (h : decodePdat b = some p) :
    dtGet16 (encodeUdpGame U_GAME_C2S p.2) 4 = p.2.triple.gport := by
  have h := (Option.ite_none_right_eq_some.mp h).2
  obtain ⟨dest, -, h⟩ := Option.bind_eq_some_iff.mp h
  obtain ⟨g, hg, h⟩ := Option.bind_eq_some_iff.mp h
  rw [← Option.some.inj h]
  unfold encodeUdpGame
  simp only [List.append_assoc]
  exact dtGet16_at (gport_of_decode hg).1 (UMAGIC ++ [UVER, U_GAME_C2S]) _

theorem data_of_sendAll {b : Bytes} {dests : List Addr} {o : Out} (h : o ∈ s.sendAll b dests) :
    o.data = b := by
  obtain ⟨a, -, ho⟩ := List.mem_flatMap.mp h
  exact data_of_udpSendto ho

theorem gameOk_c2s {data : Bytes} {a : Addr} {o : Out} (h : o ∈ (s.handleC2s data a).2) :
    s.GameOk o.data := by
  rw [handleC2s_out] at h
  cases hd : decodeUdpGame data with
  | none =>
    rw [hd] at h
    cases h
  | some g =>
    rw [hd] at h
    dsimp only at h
    split at h
    next hp =>
      rw [data_of_sendAll h]
      exact fun _ => gport_of_game hd ▸ hp
    · cases h

theorem gameOk_p2p {data : Bytes} {a : Addr} {o : Out} (h : o ∈ (s.handleP2p data a).2) :
    s.GameOk o.data := by
  rw [handleP2p_out] at h
  cases hd : decodePdat data with
  | none =>
    rw [hd] at h
    cases h
  | some p =>
    rw [hd] at h
    dsimp only at h
    split at h
    next hp =>
      rw [data_of_sendAll h]
      intro _
      rw [gport_of_pdat hd]
      exact hp
    · cases h

/-- a reply is within the filter because its flow is -/
theorem gameOk_s2c (hs : s.Filtered) {data : Bytes} {a : Addr} {o : Out}
    (h : o ∈ (s.handleS2c data a).2) : s.GameOk o.data := by
  rw [handleS2c_out] at h
  cases hd : decodeUdpGame data with
  | none =>
    rw [hd] at h
    cases h
  | some g =>
    rw [hd] at h
    dsimp only at h
    cases hf : s.flowFor a g.triple with
    | none =>
      rw [hf] at h
      cases h
    | some e =>
      rw [hf] at h
      dsimp only at h
      split at h
      · cases h
      · obtain ⟨hk, hmem⟩ := flowFor_mem hf
        rw [data_of_udpSendto h]
        intro _
        rw [gport_of_game hd, ← hk]
        exact hs e hmem

/-- a ping is no game datagram -/
theorem gameOk_ping {f : IcmpFrame} (h : f.mtype = U_ICMP_REQ ∨ f.mtype = U_ICMP_REP) :
    s.GameOk (encodeIcmp f) := by
  intro hop
  change f.mtype = U_GAME_C2S ∨ f.mtype = U_GAME_S2C at hop
  rcases h with h | h <;> rw [h] at hop <;> exact absurd hop (by decide)

theorem mtype_of_icmp {data : Bytes} {f : IcmpFrame} (h : decodeIcmp data = some f) :
    f.mtype = U_ICMP_REQ ∨ f.mtype = U_ICMP_REP := by
  have hop := (op_of_icmp h).2
  have h := (Option.ite_none_right_eq_some.mp h).2
  obtain ⟨src, -, h⟩ := Option.bind_eq_some_iff.mp h
  obtain ⟨dest, -, h⟩ := Option.bind_eq_some_iff.mp h
  obtain ⟨iid, -, h⟩ := Option.bind_eq_some_iff.mp h
  obtain ⟨seq, -, h⟩ := Option.bind_eq_some_iff.mp h
  rw [← Option.some.inj h]
  exact hop

theorem gameOk_icmp {data : Bytes} {a : Addr} {o : Out} (h : o ∈ (s.handleIcmp data a).2) :
    s.GameOk o.data := by
  rw [handleIcmp_out] at h
  cases hd : decodeIcmp data with
  | none =>
    rw [hd] at h
    cases h
  | some f =>
    have hm := mtype_of_icmp hd
    rw [hd] at h
    dsimp only at h
    split at h
    · cases h
    · split at h
      · split at h
        · cases h
        · rw [data_of_udpSendto h]
          exact gameOk_ping (Or.inr rfl)
      · split at h
        · cases h
        · rw [data_of_sendAll h]
          exact gameOk_ping hm

theorem GameOk.of_lets (h : Lets s t) {b : Bytes} (hb : t.GameOk b) : s.GameOk b := by
  intro hop
  rw [← h.port]
  exact hb hop

theorem gameOk_handleUdpPayload (hs : s.Filtered) {data : Bytes} {a : Addr} {o : Out}
    (h : o ∈ (s.handleUdpPayload data a).2) : s.GameOk o.data := by
  have hproof := lets_recordUdpProof s a
  revert h
  unfold handleUdpPayload
  repeat' split
  · exact nofun
  · exact nofun
  · exact gameOk_p2p
  · exact gameOk_icmp
  · exact fun h => (gameOk_s2c (hproof.flows hs) h).of_lets hproof
  · exact fun h => (gameOk_c2s h).of_lets hproof
  · exact nofun

theorem gameOk_step (hs : s.Filtered) {a : RelayAct} {r : Relay × List Out} (hr : s.step a = some r)
    {o : Out} (ho : o ∈ r.2) : s.GameOk o.data := by
  have hquiet : ∀ {x : Option String} {f : String → Relay}, x.map (fun i => (f i, ([] : List Out))) = some r →
      s.GameOk o.data := by
    intro x f h
    obtain ⟨i, -, rfl⟩ := Option.map_eq_some_iff.mp h
    cases ho
  cases a with
  | datagram data ip port =>
    rw [← Option.some.inj hr] at ho
    exact gameOk_handleUdpPayload hs ho
  | tun w data =>
    obtain ⟨ip, -, rfl⟩ := Option.map_eq_some_iff.mp hr
    dsimp only [tunFrame] at ho
    split at ho
    · cases ho
    · exact gameOk_handleUdpPayload hs ho
  | tick d =>
    rw [← Option.some.inj hr] at ho
    cases ho
  | accept w ip =>
    obtain ⟨-, hr⟩ := Option.ite_none_right_eq_some.mp hr
    rw [← Option.some.inj hr] at ho
    cases ho
  | close w => exact hquiet hr
  | node w payload => exact hquiet hr
  | udpMode w => exact hquiet hr
  | gone w => exact hquiet hr

end Relay

/-! ## the fan-out of a stream -/

/-- the local variables of `handle_stream_open` in its loop of `T_STREQ` -/
structure StreqJob where
  sid : Nat
  gport : Nat
  ovirt : Nat
  todo : List Writer

namespace Exchange
variable (h : Exchange)

/-- `_pref`: the host claim of the link, and its last beacon -/
def _pref (beaconers : Dict Writer Nat) (w : Writer) : Nat × Nat :=
  ((((h.relay.writer_node.get? w).bind fun n => h.relay.link? n w).map Link.host_claim).getD 0,
    (beaconers.get? w).getD 0)

/-- the order of `dest_links.sort(key=_pref, reverse=True)` -/
def prefers (beaconers : Dict Writer Nat) (v w : Writer) : Bool :=
  let p := h._pref beaconers v
  let q := h._pref beaconers w
  q.1 < p.1 || q.1 = p.1 && q.2 ≤ p.2

/-- the fan-out that `handle_stream_open` starts, when it opens the stream -/
def streqs (beaconers : Dict Writer Nat) (payload : Bytes) : Option StreqJob :=
  match decode_stopen payload with
  | none => none
  | some (node, dest_node, sid, gport) =>
    if !h.portAllowed gport then none
    else if h.relay.live_links node = [] then none
    else if (h.streams.get? sid).isSome then none
    else if dest_node ≠ 0 ∧ (h.relay.nodes.get? dest_node).isNone then none
    else
      let links := h.dest_links node dest_node
      if links = [] then none
      else
        some
          { sid, gport
            ovirt := ((h.relay.nodes.get? node).map Node.virt).getD 0
            todo := if dest_node ≠ 0 then links else links.mergeSort (h.prefers beaconers) }

variable {h} {t : Exchange}

theorem gport_of_stopen {payload : Bytes} {node dest_node sid gport : Nat}
    (hd : decode_stopen payload = some (node, dest_node, sid, gport)) : gport < 65536 := by
  obtain ⟨-, hd⟩ := Option.ite_none_left_eq_some.mp hd
  obtain ⟨node', -, hd⟩ := Option.bind_eq_some_iff.mp hd
  obtain ⟨dest', -, hd⟩ := Option.bind_eq_some_iff.mp hd
  obtain ⟨sid', -, hd⟩ := Option.bind_eq_some_iff.mp hd
  obtain ⟨gport', hg, hd⟩ := Option.bind_eq_some_iff.mp hd
  have he : (node', dest', sid', gport') = (node, dest_node, sid, gport) := Option.some.inj hd
  simp only [Prod.mk.injEq] at he
  exact he.2.2.2 ▸ unpackH_lt hg

theorem streqs_port {beaconers : Dict Writer Nat} {payload : Bytes} {j : StreqJob}
    (hj : h.streqs beaconers payload = some j) : h.portAllowed j.gport = true ∧ j.gport < 65536 := by
  unfold streqs at hj
  cases hd : decode_stopen payload with
  | none =>
    rw [hd] at hj
    cases hj
  | some p =>
    obtain ⟨node, dest_node, sid, gport⟩ := p
    rw [hd] at hj
    dsimp only at hj
    obtain ⟨hp, hj⟩ := Option.ite_none_left_eq_some.mp hj
    obtain ⟨-, hj⟩ := Option.ite_none_left_eq_some.mp hj
    obtain ⟨-, hj⟩ := Option.ite_none_left_eq_some.mp hj
    obtain ⟨-, hj⟩ := Option.ite_none_left_eq_some.mp hj
    obtain ⟨-, hj⟩ := Option.ite_none_left_eq_some.mp hj
    obtain rfl := Option.some.inj hj
    rw [Bool.not_eq_true, Bool.not_eq_false'] at hp
    exact ⟨hp, gport_of_stopen hd⟩

/-! ### what a step of the exchange leaves -/

/-- the ports stay as they are configured, and the flows within them -/
structure Lets (h t : Exchange) : Prop where
  allowed : t.allowed_tcp = h.allowed_tcp
  relay : Relay.Lets h.relay t.relay

theorem Lets.refl (h : Exchange) : Lets h h := ⟨rfl, .refl _⟩

theorem Lets.trans {u : Exchange} (h1 : Lets h t) (h2 : Lets t u) : Lets h u :=
  ⟨h2.allowed.trans h1.allowed, h1.relay.trans h2.relay⟩

theorem lets_pop (h : Exchange) (sid : Nat) : Lets h (h._stream_pop sid) := by
  unfold _stream_pop
  split
  · exact .refl h
  · exact ⟨rfl, .refl _⟩

theorem lets_failNode (h : Exchange) (node : Nat) : Lets h (h.failNode node) := by
  have key : ∀ (l : List Nat) (h : Exchange), Lets h (l.foldl failHandshake h) := by
    intro l
    induction l with
    | nil => exact .refl
    | cons sid l ih =>
      intro h
      have hone : Lets h (h.failHandshake sid) := by
        unfold failHandshake
        split
        · exact .refl h
        · split
          · exact lets_pop h sid
          · exact .refl h
      exact hone.trans (ih _)
  have hstart : Lets h { h with node_streams := h.node_streams.pop node } := ⟨rfl, .refl _⟩
  exact hstart.trans (key _ _)

theorem lets_finish (h : Exchange) (w : Writer) : Lets h (h.finish w) := by
  have ht : Lets h { h with relay := h.relay.teardown w } :=
    ⟨rfl, (Relay.flows_teardown h.relay w).lets⟩
  unfold finish
  dsimp only
  split
  · exact ht
  · split
    · exact ht.trans (lets_failNode _ _)
    · exact ht

theorem lets_nodeFrame (h : Exchange) (w : Writer) (ip : String) (payload : Bytes) :
    Lets h (h.nodeFrame w ip payload) := by
  unfold nodeFrame
  split
  · exact lets_finish h w
  · split
    · exact .refl h
    next f _ =>
      split
      · exact .refl h
      · have hreg : Lets h { h with relay := (h.relay.registerNode w ip f).1 } :=
          ⟨rfl, (Relay.flows_registerNode h.relay w ip f).lets⟩
        dsimp only
        split
        · exact hreg
        · exact hreg.trans (lets_finish _ w)

theorem lets_stopen (h : Exchange) (payload : Bytes) : Lets h (h.stopen payload) := by
  unfold stopen
  repeat' split
  all_goals exact ⟨rfl, .refl _⟩

theorem lets_next {a : Act} (hst : h.next a = some t) : Lets h t := by
  have hrelay : ∀ b : RelayAct, (h.relay.next b).map (fun u => { h with relay := u }) = some t →
      Lets h t := by
    intro b hb
    obtain ⟨u, hu, rfl⟩ := Option.map_eq_some_iff.mp hb
    exact ⟨rfl, Relay.lets_next hu⟩
  cases a with
  | relay b =>
    cases b with
    | node w payload =>
      obtain ⟨ip, -, rfl⟩ := Option.map_eq_some_iff.mp hst
      exact lets_nodeFrame h w ip payload
    | gone w =>
      obtain ⟨ip, -, rfl⟩ := Option.map_eq_some_iff.mp hst
      exact lets_finish h w
    | accept w ip => exact hrelay (.accept w ip) hst
    | close w => exact hrelay (.close w) hst
    | udpMode w => exact hrelay (.udpMode w) hst
    | tun w data => exact hrelay (.tun w data) hst
    | datagram data ip port => exact hrelay (.datagram data ip port) hst
    | tick d => exact hrelay (.tick d) hst
  | stopen payload =>
    rw [← Option.some.inj hst]
    exact lets_stopen h payload
  | grant sid node =>
    change h.grant sid node = some t at hst
    unfold grant at hst
    split at hst
    · cases hst
    · split at hst
      · rw [← Option.some.inj hst]
        exact ⟨rfl, .refl _⟩
      · obtain ⟨-, hst⟩ := Option.ite_none_right_eq_some.mp hst
        rw [← Option.some.inj hst]
        exact ⟨rfl, .refl _⟩
  | confirm sid =>
    rw [← Option.some.inj hst]
    exact ⟨rfl, .refl _⟩
  | popped sid =>
    rw [← Option.some.inj hst]
    exact lets_pop h sid
  | strayGrant sid node =>
    rw [← Option.some.inj hst]
    exact ⟨rfl, .refl _⟩

end Exchange

/-! ## the hub -/

structure Hub where
  exchange : Exchange
  /-- empty: every discovery port is allowed -/
  disc_ports : List Nat
  beaconers : Dict Writer Nat
  /-- the fan-outs that have been started -/
  jobs : List StreqJob

inductive HubAct where
  | exchange (a : Exchange.Act)
  /-- a frame `T_BCAST` -/
  | bcast (w : Writer) (payload : Bytes)
  /-- a fan-out goes on with its next link -/
  | streq (i : Nat)

namespace Hub

def init (token : Bytes) (allowed_tcp allowed_udp disc_ports : List Nat) (subnet clock : Nat) :
    Hub where
  exchange := .init token allowed_udp allowed_tcp subnet clock
  disc_ports := disc_ports
  beaconers := .empty
  jobs := []

variable (s : Hub)

def room : Room := ⟨s.exchange.relay, s.disc_ports, s.beaconers⟩

/-- what the relay transmits in a step of the exchange: the answers on the UDP tunnel -/
def answers : Exchange.Act → List RoomOut
  | .relay a => ((s.exchange.relay.step a).map fun r => r.2.map RoomOut.tunnel).getD []
  | _ => []

def started : Exchange.Act → List StreqJob
  | .stopen payload => (s.exchange.streqs s.beaconers payload).toList
  | _ => []

def heardOf (e : Exchange) : Exchange.Act → Dict Writer Nat
  | .relay (.node w _) | .relay (.gone w) => s.room.forget e.relay w
  | _ => s.beaconers

def step : HubAct → Option (Hub × List RoomOut)
  | .exchange a =>
    (s.exchange.next a).map fun e =>
      ({ s with exchange := e, beaconers := s.heardOf e a, jobs := s.jobs ++ s.started a }, s.answers a)
  | .bcast w payload =>
    (s.exchange.relay.players.get? w).map fun _ =>
      let r := s.room.bcast w payload
      ({ s with beaconers := r.1.beaconers }, r.2)
  | .streq i =>
    match s.jobs[i]? with
    | none => none
    | some j =>
      match j.todo with
      | [] => none
      | w :: todo =>
        some ({ s with jobs := s.jobs.set i { j with todo := todo } },
          [.frame w T_STREQ (encode_streq j.sid j.gport j.ovirt)])

def next (a : HubAct) : Option Hub := (s.step a).map Prod.fst

end Hub

/-! ## what passes -/

/-- the port that stands in the bytes is allowed, for each of the three filters that is set -/
def RoomOut.Passes (allowed_tcp allowed_udp disc_ports : List Nat) : RoomOut → Prop
  | .tunnel o => allowed_udp ≠ [] → udpOp o.data = U_GAME_C2S ∨ udpOp o.data = U_GAME_S2C →
      dtGet16 o.data 4 ∈ allowed_udp
  | .frame _ mtype payload =>
    (allowed_tcp ≠ [] → mtype = T_STREQ → dtGet16 payload 4 ∈ allowed_tcp) ∧
    (disc_ports ≠ [] → mtype = T_BCAST → dtGet16 payload 0 ∈ disc_ports) ∧
    (disc_ports ≠ [] → mtype = T_BCAST_FROM → dtGet16 payload 4 ∈ disc_ports)

namespace Hub
variable {s t : Hub} {allowed_tcp allowed_udp disc_ports : List Nat}

/-- the configuration, the flows within it, and the fan-outs within it -/
structure Inv (allowed_tcp allowed_udp disc_ports : List Nat) (s : Hub) : Prop where
  tcp : s.exchange.allowed_tcp = allowed_tcp
  udp : s.exchange.relay.allowed_udp = allowed_udp
  disc : s.disc_ports = disc_ports
  flows : s.exchange.relay.Filtered
  jobs : ∀ j ∈ s.jobs, s.exchange.portAllowed j.gport = true ∧ j.gport < 65536

theorem inv_init (token : Bytes) (allowed_tcp allowed_udp disc_ports : List Nat)
    (subnet clock : Nat) : Inv allowed_tcp allowed_udp disc_ports
      (init token allowed_tcp allowed_udp disc_ports subnet clock) :=
  ⟨rfl, rfl, rfl, nofun, nofun⟩

/-- the fan-out of a stream request sends one frame to the next host -/
theorem streq_step {i : Nat} {r : Hub × List RoomOut} (hr : s.step (.streq i) = some r) :
    ∃ j w todo, j ∈ s.jobs ∧ r = ({ s with jobs := s.jobs.set i { j with todo := todo } },
      [.frame w T_STREQ (encode_streq j.sid j.gport j.ovirt)]) := by
  change (match s.jobs[i]? with | none => none | some j => _) = some r at hr
  cases hj : s.jobs[i]? with
  | none =>
    rw [hj] at hr
    cases hr
  | some j =>
    rw [hj] at hr
    dsimp only at hr
    cases htodo : j.todo with
    | nil =>
      rw [htodo] at hr
      cases hr
    | cons w todo =>
      rw [htodo] at hr
      exact ⟨j, w, todo, List.mem_of_getElem? hj, (Option.some.inj hr).symm⟩

theorem inv_step (h : Inv allowed_tcp allowed_udp disc_ports s) {a : HubAct} {r : Hub × List RoomOut}
    (hr : s.step a = some r) : Inv allowed_tcp allowed_udp disc_ports r.1 := by
  cases a with
  | exchange a =>
    obtain ⟨e, he, rfl⟩ := Option.map_eq_some_iff.mp hr
    have hlets := Exchange.lets_next he
    have hport : e.portAllowed = s.exchange.portAllowed := by
      funext gport
      unfold Exchange.portAllowed
      rw [hlets.allowed]
    refine ⟨hlets.allowed.trans h.tcp, hlets.relay.allowed.trans h.udp, h.disc,
      hlets.relay.flows h.flows, fun j hj => ?_⟩
    show e.portAllowed j.gport = true ∧ _
    rw [hport]
    rcases List.mem_append.mp hj with hj | hj
    · exact h.jobs j hj
    · cases a with
      | stopen payload => exact Exchange.streqs_port (Option.mem_toList.mp hj)
      | relay | grant | confirm | popped | strayGrant => cases hj
  | bcast w payload =>
    obtain ⟨ip, -, rfl⟩ := Option.map_eq_some_iff.mp hr
    exact ⟨h.tcp, h.udp, h.disc, h.flows, h.jobs⟩
  | streq i =>
    obtain ⟨j, w, todo, hmem, rfl⟩ := streq_step hr
    refine ⟨h.tcp, h.udp, h.disc, h.flows, fun j' hj' => ?_⟩
    rcases List.mem_or_eq_of_mem_set hj' with hj' | rfl
    · exact h.jobs j' hj'
    · exact h.jobs j hmem

/-- a filter that is set lets only its own ports through -/
theorem mem_of_allowed {ports : List Nat} {p : Nat}
    (h : (decide (ports = []) || decide (p ∈ ports)) = true) (hne : ports ≠ []) : p ∈ ports := by
  rw [Bool.or_eq_true, decide_eq_true_iff, decide_eq_true_iff] at h
  exact h.resolve_left hne

theorem passes_beacon {r : Room} {src_node dport sport : Nat} {payload : Bytes} {v : Writer}
    (hd : unpackH (slice payload 0 2) = some dport) (hok : r.discAllowed dport = true) :
    (r.beacon src_node dport sport payload v).Passes allowed_tcp allowed_udp r.disc_ports := by
  have hport : dtGet16 payload 0 = dport := (unpackH_slice (o := 0) hd).2
  have hfrom : dtGet16 (encode_bcast_from src_node dport sport (payload.drop 4)) 4 = dport := by
    unfold encode_bcast_from
    simp only [List.append_assoc]
    exact dtGet16_at (unpackH_lt hd) (packI src_node) _
  unfold Room.beacon
  split
  · refine ⟨fun _ e => absurd e (by decide), fun _ e => absurd e (by decide), fun hne _ => ?_⟩
    rw [hfrom]
    exact mem_of_allowed hok hne
  · refine ⟨fun _ e => absurd e (by decide), fun hne _ => ?_, fun _ e => absurd e (by decide)⟩
    rw [hport]
    exact mem_of_allowed hok hne

theorem passes_bcast {r : Room} {w : Writer} {payload : Bytes} {o : RoomOut}
    (ho : o ∈ (r.bcast w payload).2) : o.Passes allowed_tcp allowed_udp r.disc_ports := by
  unfold Room.bcast at ho
  split at ho
  next dport sport hd _ =>
    split at ho
    next hok =>
      obtain ⟨v, -, rfl⟩ := List.mem_map.mp ho
      exact passes_beacon hd hok
    · cases ho
  · cases ho

theorem passes_streq {j : StreqJob} {w : Writer}
    (hj : s.exchange.portAllowed j.gport = true ∧ j.gport < 65536) :
    (RoomOut.frame w T_STREQ (encode_streq j.sid j.gport j.ovirt)).Passes
      s.exchange.allowed_tcp allowed_udp disc_ports := by
  have hport : dtGet16 (encode_streq j.sid j.gport j.ovirt) 4 = j.gport := by
    unfold encode_streq
    simp only [List.append_assoc]
    exact dtGet16_at hj.2 (packI j.sid) _
  refine ⟨fun hne _ => ?_, fun _ e => absurd e (by decide), fun _ e => absurd e (by decide)⟩
  rw [hport]
  exact mem_of_allowed hj.1 hne

theorem passes_step (h : Inv allowed_tcp allowed_udp disc_ports s) {a : HubAct} {r : Hub × List RoomOut}
    (hr : s.step a = some r) : ∀ o ∈ r.2, o.Passes allowed_tcp allowed_udp disc_ports := by
  intro o ho
  cases a with
  | exchange a =>
    obtain ⟨e, he, rfl⟩ := Option.map_eq_some_iff.mp hr
    cases a with
    | relay b =>
      change o ∈ ((s.exchange.relay.step b).map fun r => r.2.map RoomOut.tunnel).getD [] at ho
      cases hb : s.exchange.relay.step b with
      | none =>
        rw [hb] at ho
        cases ho
      | some x =>
        rw [hb] at ho
        obtain ⟨out, hout, rfl⟩ := List.mem_map.mp ho
        intro hne hop
        have hok := Relay.gameOk_step h.flows hb hout hop
        unfold Relay.portAllowed at hok
        rw [h.udp] at hok
        exact mem_of_allowed hok hne
    | stopen | grant | confirm | popped | strayGrant => cases ho
  | bcast w payload =>
    obtain ⟨ip, -, rfl⟩ := Option.map_eq_some_iff.mp hr
    rw [← h.disc]
    exact passes_bcast (r := s.room) ho
  | streq i =>
    obtain ⟨j, w, todo, hmem, rfl⟩ := streq_step hr
    obtain rfl := List.mem_singleton.mp ho
    rw [← h.tcp]
    exact passes_streq (h.jobs j hmem)

/-- **The port filters hold over whole runs.**  Whatever the order of connections, datagrams, beacons
and streams: every `T_STREQ` that is sent is for an allowed TCP port, every C2S and S2C that is
passed on for an allowed UDP port, and every beacon for an allowed discovery port. -/
theorem filters_run {token : Bytes} {subnet clock : Nat} {tr : List (Hub × HubAct)}
    (h : Path next (init token allowed_tcp allowed_udp disc_ports subnet clock) tr s) :
    ∀ x ∈ tr, ∀ r, x.1.step x.2 = some r → ∀ o ∈ r.2,
      o.Passes allowed_tcp allowed_udp disc_ports := by
  induction h with
  | nil => exact nofun
  | @snoc tr u v a hp hl ih =>
    have hinv : Inv allowed_tcp allowed_udp disc_ports u :=
      hp.inv (inv_init token allowed_tcp allowed_udp disc_ports subnet clock) fun _ _ _ hu hst => by
        obtain ⟨r, hr, rfl⟩ := Option.map_eq_some_iff.mp hst
        exact inv_step hu hr
    intro x hx r hr
    rcases List.mem_append.mp hx with hx | hx
    · exact ih x hx r hr
    · rw [List.mem_singleton.mp hx] at hr
      exact passes_step hinv hr

/-- node 1 asks node 2 by P2P and gets its reply, sends a beacon and opens a stream -/
def visits : List HubAct :=
  [.exchange (.relay (.accept 1 "10.0.0.9")),
    .exchange (.relay (.node 1 [3, 0, 0, 0, 0, 0, 1, 0x13, 0x88, 0])),
    .exchange (.relay (.accept 2 "10.0.0.8")),
    .exchange (.relay (.node 2 [3, 0, 0, 0, 0, 0, 2, 0x1E, 0x61, 0])),
    .exchange (.relay (.datagram [0x56, 0x4E, 3, 3, 0, 0, 0, 2, 0x11, 0x5C, 0, 0, 0, 7, 65] "10.0.0.9" 5000)),
    .exchange (.relay (.datagram [0x56, 0x4E, 3, 2, 0x11, 0x5C, 0, 0, 0, 7, 66] "10.0.0.8" 7777)),
    .bcast 1 [0x11, 0x5C, 0, 9, 65],
    .exchange (.stopen [0, 0, 0, 1, 0, 0, 0, 2, 0, 0, 0, 9, 0x11, 0x5C]), .streq 0]

theorem filters_visits : ∃ s, run next (init [] [4444] [4444] [4444] 0 0) visits = some s ∧
    ∀ x ∈ trace next (init [] [4444] [4444] [4444] 0 0) visits, ∀ r, x.1.step x.2 = some r →
      ∀ o ∈ r.2, o.Passes [4444] [4444] [4444] := by
  have hrun : (run next (init [] [4444] [4444] [4444] 0 0) visits).isSome = true := by
    decide
  obtain ⟨s, hs⟩ := Option.isSome_iff_exists.mp hrun
  exact ⟨s, hs, filters_run (path_run hs)⟩

end Hub

end ShadowLan
