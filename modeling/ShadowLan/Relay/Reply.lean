import ShadowLan.Relay.Routes

/-!
# Does a reply find its player?

A C2S or P2P of player `p` is noted in the table of flows, under the endpoints or under the node
it is routed to; an S2C is routed by the first entry of three lookups: of the endpoint it comes
from, of that endpoint's node, the freshest with the same triple.

* `noteFlows`       the table with the datagram noted;
* `Hit`             the entry that a reply is routed by;
* `ReplyOk`         the table is not emptied, and the entry is live and of this player;
* `reply_iff`       the next S2C is sent to the player and to nobody else iff `ReplyOk`;
* `dropped_reply`   an old entry of the endpoint hides the new one of the node.
-/

namespace ShadowLan

/-- an event that hands a datagram to `handle_udp_payload` -/
def RelayAct.isDatagram : RelayAct → Bool
  | .tun _ _ | .datagram _ _ _ => true
  | _ => false

/-- where a name leads: to a control connection, or to a UDP address -/
inductive Exit where
  | conn (w : Writer)
  | plain (a : Addr)
  deriving DecidableEq, Repr

def Exit.send (data : Bytes) : Exit → Out
  | .conn w => .tun w data
  | .plain a => .sendto data a

theorem Exit.send_inj {data : Bytes} {e e' : Exit} : e.send data = e'.send data ↔ e = e' := by
  cases e <;> cases e' <;> simp [Exit.send]

namespace Relay

/-- the one transmission that sending to `d` is; none when the connection is gone -/
def resolve (s : Relay) (d : Addr) : Option Exit :=
  match d with
  | .tcp w => if s.isLink w && !s.isClosing w then some (.conn w) else none
  | .udp _ _ =>
    match s.carrier d with
    | some w => some (.conn w)
    | none => some (.plain d)

/-- what the relay answers to a reply with: one transmission, to the player -/
def Finds (s : Relay) (data : Bytes) (host player : Addr) : Prop :=
  (s.handleUdpPayload data host).2 ≠ [] ∧
    (s.handleUdpPayload data host).2 = (s.handleUdpPayload data host).1.udpSendto data player

/-- the triple of a C2S or P2P, and the tags its flow is noted under -/
def flowTags (s : Relay) (data : Bytes) (player : Addr) : Option (Triple × List DestTag) :=
  if udpOp data = U_GAME_P2P then
    (decodePdat data).map fun x => (x.2.triple, [.n x.1])
  else if udpOp data = U_GAME_C2S then
    (decodeUdpGame data).map fun g =>
      let s := (s.recordUdpProof player).noteUdp player
      (g.triple, (s.udpTargets g.triple.gport player).2.map .a)
  else none

/-- the flows with one of `player` noted under the tags -/
def noteFlows (s : Relay) (tags : List DestTag) (t : Triple) (player : Addr) :
    Dict (DestTag × Triple) Flow :=
  tags.foldl (fun flows tag => flows.set (tag, t) ⟨player, s.clock⟩) s.udp_flows

/-- the flow a reply is routed by, in the order of the lookups -/
inductive Hit (flows : Dict (DestTag × Triple) Flow) (node : Option Nat) (now : Nat) (host : Addr)
    (t : Triple) : Flow → Prop
  | endpoint {fl} (h : flows.get? (.a host, t) = some fl) : Hit flows node now host t fl
  | node {fl n} (hno : flows.get? (.a host, t) = none) (hn : node = some n)
      (h : flows.get? (.n n, t) = some fl) : Hit flows node now host t fl
  | scan {k fl} (hno : flows.get? (.a host, t) = none)
      (hnode : ∀ n, node = some n → flows.get? (.n n, t) = none)
      (h : freshest (fun e => e.1.2 = t && decide (now - e.2.seen < FLOW_TTL)) (fun e => e.2.seen)
        flows.items = some (k, fl)) : Hit flows node now host t fl

/-- `s` is the relay before the player's datagram, `s'` before the reply -/
structure ReplyOk (s s' : Relay) (tags : List DestTag) (t : Triple) (player host : Addr) : Prop where
  /-- noting the flow does not empty the table -/
  kept : (s.noteFlows tags t player).size ≤ TABLE_MAX
  /-- the entry found first is live, and leads where the player's name leads -/
  hit : ∃ fl, Hit (s.noteFlows tags t player) ((s'.recordUdpProof host).nodeByUdpAddr host)
      s'.clock host t fl ∧ s'.clock - fl.seen ≤ FLOW_TTL ∧ fl.player ≠ host ∧
      (s'.recordUdpProof host).resolve fl.player = (s'.recordUdpProof host).resolve player
  /-- the player can be reached -/
  live : ((s'.recordUdpProof host).resolve player).isSome = true

section
variable {s t : Relay}

/-! ## sending -/

theorem udpSendto_resolve (s : Relay) (data : Bytes) (d : Addr) :
    s.udpSendto data d = ((s.resolve d).map (Exit.send data)).toList := by
  cases d with
  | tcp w =>
    show (if (s.isLink w && !s.isClosing w) = true then [Out.tun w data] else [])
      = ((if (s.isLink w && !s.isClosing w) = true then some (Exit.conn w) else none).map
          (Exit.send data)).toList
    split <;> rfl
  | udp ip port =>
    unfold udpSendto resolve
    dsimp only
    cases s.carrier (.udp ip port) <;> rfl

theorem udpSendto_eq_nil {data : Bytes} {d : Addr} :
    s.udpSendto data d = [] ↔ s.resolve d = none := by
  rw [udpSendto_resolve]
  cases s.resolve d <;> simp

theorem udpSendto_congr_iff {data : Bytes} {d d' : Addr} :
    s.udpSendto data d = s.udpSendto data d' ↔ s.resolve d = s.resolve d' := by
  rw [udpSendto_resolve, udpSendto_resolve]
  cases s.resolve d <;> cases s.resolve d' <;> simp [Exit.send_inj]

/-! ## noting a flow -/

theorem setFlows_flows (k : Triple) (p : Addr) (dests : List Addr) (s : Relay) :
    (dests.foldl (fun s dst => s.setFlow (.a dst) k p) s).udp_flows =
      s.noteFlows (dests.map .a) k p := by
  unfold noteFlows
  induction dests generalizing s with
  | nil => rfl
  | cons d ds ih =>
    rw [List.foldl_cons, ih]
    rfl

/-- the table is emptied when it outgrows its bound -/
def trimmed (flows : Dict (DestTag × Triple) Flow) : Dict (DestTag × Triple) Flow :=
  if flows.size > TABLE_MAX then .empty else flows

theorem trimFlows_flows (s : Relay) : s.trimFlows.udp_flows = trimmed s.udp_flows := by
  unfold trimFlows trimmed
  split <;> rfl

theorem handleC2s_flows {s : Relay} {data : Bytes} {p : Addr} {g : UdpGame}
    (hg : decodeUdpGame data = some g) (hout : (s.handleC2s data p).2 ≠ []) :
    (s.handleC2s data p).1.udp_flows = trimmed
      (s.noteFlows (((s.noteUdp p).udpTargets g.triple.gport p).2.map .a) g.triple p) := by
  unfold handleC2s at hout ⊢
  rw [hg] at hout ⊢
  dsimp only at hout ⊢
  split at hout
  next => exact absurd rfl hout
  next hp =>
    rw [if_neg hp]
    split at hout
    next => exact absurd rfl hout
    next hd =>
      rw [if_neg hd]
      have htargets : ∀ t : Relay, (t.udpTargets g.triple.gport p).1.udp_flows = t.udp_flows ∧
          (t.udpTargets g.triple.gport p).1.clock = t.clock := fun t => by
        unfold udpTargets
        split <;> exact ⟨rfl, rfl⟩
      have hcongr : ∀ (u : Relay) (tags : List DestTag), u.udp_flows = s.udp_flows →
          u.clock = s.clock → u.noteFlows tags g.triple p = s.noteFlows tags g.triple p := by
        intro u tags h1 h2
        unfold noteFlows
        rw [h1, h2]
      rw [trimFlows_flows, setFlows_flows]
      exact congrArg trimmed (hcongr _ _ (htargets _).1 (htargets _).2)

theorem handleP2p_flows {s : Relay} {data : Bytes} {p : Addr} {dest : Nat} {g : UdpGame}
    (hg : decodePdat data = some (dest, g)) (hout : (s.handleP2p data p).2 ≠ []) :
    (s.handleP2p data p).1.udp_flows = trimmed (s.noteFlows [.n dest] g.triple p) := by
  obtain ⟨dest', g', hg', hs⟩ := handleP2p_sent hout
  obtain ⟨rfl, rfl⟩ := Prod.mk.inj (Option.some.inj (hg.symm.trans hg'))
  rw [hs, trimFlows_flows]
  rfl

/-- **What a relayed datagram leaves in the table of flows.** -/
theorem relayed_flows {data : Bytes} {p : Addr} {k : Triple} {tags : List DestTag}
    (htags : s.flowTags data p = some (k, tags)) (hout : (s.handleUdpPayload data p).2 ≠ []) :
    (s.handleUdpPayload data p).1.udp_flows = trimmed (s.noteFlows tags k p) := by
  unfold flowTags at htags
  by_cases h1 : udpOp data = U_GAME_P2P
  · rw [if_pos h1] at htags
    obtain ⟨⟨dest, g⟩, hg, he⟩ := Option.map_eq_some_iff.mp htags
    obtain ⟨rfl, rfl⟩ := Prod.mk.inj he
    have hhand : s.handleUdpPayload data p = s.handleP2p data p := by
      unfold handleUdpPayload
      rw [if_neg (by simp [(op_of_pdat hg).1]), if_neg (by rw [h1]; decide), if_pos h1]
    rw [hhand] at hout ⊢
    exact handleP2p_flows hg hout
  · rw [if_neg h1] at htags
    by_cases h2 : udpOp data = U_GAME_C2S
    · rw [if_pos h2] at htags
      obtain ⟨g, hg, he⟩ := Option.map_eq_some_iff.mp htags
      obtain ⟨rfl, rfl⟩ := Prod.mk.inj he
      have hhand : s.handleUdpPayload data p = (s.recordUdpProof p).handleC2s data p := by
        unfold handleUdpPayload
        rw [if_neg (by simp [udpHeaderOk_of_game hg]), h2]
        rfl
      rw [hhand] at hout ⊢
      rw [handleC2s_flows hg hout]
      unfold noteFlows
      rw [(heard_recordUdpProof s p).flows, (heard_recordUdpProof s p).clock]
    · rw [if_neg h2] at htags
      cases htags

/-! ## between the datagrams -/

/-- the flows, and the ports that a flow may have -/
structure SameFlows (s t : Relay) : Prop where
  flows : t.udp_flows = s.udp_flows
  allowed : t.allowed_udp = s.allowed_udp

theorem SameFlows.refl (s : Relay) : SameFlows s s := ⟨rfl, rfl⟩

theorem SameFlows.trans {u : Relay} (h : SameFlows s t) (h' : SameFlows t u) : SameFlows s u :=
  ⟨h'.flows.trans h.flows, h'.allowed.trans h.allowed⟩

theorem flows_pruneNodes (s : Relay) : SameFlows s s.pruneNodes := by
  have hone : ∀ (s : Relay) nid ent, SameFlows s (s.pruneNode nid ent) := by
    intro s nid ent
    unfold pruneNode
    dsimp only
    split
    · exact ⟨rfl, rfl⟩
    · split <;> exact ⟨rfl, rfl⟩
  have key : ∀ (l : List (Nat × Node)) (s : Relay),
      SameFlows s (l.foldl (fun s e => s.pruneNode e.1 e.2) s) := by
    intro l
    induction l with
    | nil => exact .refl
    | cons e l ih =>
      intro s
      exact (hone s e.1 e.2).trans (ih _)
  exact key _ s

theorem flows_newNode (s : Relay) (node : Nat) : SameFlows s (s.newNode node).1 := by
  have h := flows_pruneNodes s
  unfold newNode
  dsimp only
  split
  · exact h.trans ⟨rfl, rfl⟩
  · split <;> exact h.trans ⟨rfl, rfl⟩

theorem flows_enter (s : Relay) (w : Writer) (ip : String) (f : NodeFrame) :
    SameFlows s (s.enter w ip f) := by
  have hdecl : ∀ s : Relay, SameFlows s (s.declare f.node w ip f.udpPort) := by
    intro s
    unfold declare
    dsimp only
    split
    · exact ⟨rfl, rfl⟩
    · split <;> exact ⟨rfl, rfl⟩
  unfold enter
  dsimp only
  split <;> exact ⟨(hdecl _).flows, (hdecl _).allowed⟩

theorem flows_teardown (s : Relay) (w : Writer) : SameFlows s (s.teardown w) := by
  unfold teardown
  dsimp only
  split <;> exact ⟨rfl, rfl⟩

theorem flows_registerNode (s : Relay) (w : Writer) (ip : String) (f : NodeFrame) :
    SameFlows s (s.registerNode w ip f).1 := by
  unfold registerNode
  split
  · exact .refl s
  · have hnew : SameFlows s (if (s.nodes.get? f.node).isNone = true then s.newNode f.node
        else (s, true)).1 := by
      split
      · exact flows_newNode s f.node
      · exact .refl s
    generalize (if (s.nodes.get? f.node).isNone = true then s.newNode f.node
      else (s, true)) = q at hnew ⊢
    obtain ⟨u, ok⟩ := q
    dsimp only
    split
    · exact hnew.trans (flows_enter u w ip f)
    · exact hnew

theorem flows_nodeFrame (s : Relay) (w : Writer) (ip : String) (payload : Bytes) :
    SameFlows s (s.nodeFrame w ip payload) := by
  unfold nodeFrame
  split
  · exact flows_teardown s w
  · split
    · exact .refl s
    next f _ =>
      split
      · exact .refl s
      · dsimp only
        split
        · exact flows_registerNode s w ip f
        · exact (flows_registerNode s w ip f).trans (flows_teardown _ w)

theorem flows_udpMode (s : Relay) (w : Writer) : SameFlows s (s.udpMode w) := by
  unfold udpMode
  dsimp only
  split <;> exact ⟨rfl, rfl⟩

/-- only datagrams touch the flows -/
theorem next_flows {a : RelayAct} {s' : Relay} (ha : a.isDatagram = false)
    (h : s.next a = some s') : SameFlows s s' := by
  unfold next at h
  obtain ⟨r, hr, rfl⟩ := Option.map_eq_some_iff.mp h
  have hframe : ∀ {o : Option String} {f : String → Relay × List Out}, o.map f = some r →
      (∀ x, SameFlows s (f x).1) → SameFlows s r.1 := by
    intro o f ho hf
    obtain ⟨x, _, rfl⟩ := Option.map_eq_some_iff.mp ho
    exact hf x
  cases a with
  | accept w ip =>
    simp only [step] at hr
    split at hr
    · rw [← Option.some.inj hr]
      exact ⟨rfl, rfl⟩
    · cases hr
  | close w => exact hframe hr fun _ => ⟨rfl, rfl⟩
  | node w payload => exact hframe hr fun ip => flows_nodeFrame s w ip payload
  | udpMode w => exact hframe hr fun _ => flows_udpMode s w
  | gone w => exact hframe hr fun _ => flows_teardown s w
  | tick d =>
    rw [← Option.some.inj hr]
    exact ⟨rfl, rfl⟩
  | tun w payload => cases ha
  | datagram data ip port => cases ha

theorem run_flows {tr : List (Relay × RelayAct)} (h : Path next s tr t)
    (hq : ∀ x ∈ tr, x.2.isDatagram = false) : t.udp_flows = s.udp_flows :=
  h.inv_of_ok (I := fun u => u.udp_flows = s.udp_flows) rfl
    (fun _ _ _ hu ha hs => (next_flows ha hs).flows.trans hu) hq

/-! ## the reply -/

theorem flowFor_endpoint {host : Addr} {k : Triple} {fl : Flow}
    (h : s.udp_flows.get? (.a host, k) = some fl) :
    s.flowFor host k = some ((.a host, k), fl) := by
  simp [flowFor, h]

theorem flowFor_node {host : Addr} {k : Triple} {fl : Flow} {n : Nat}
    (hno : s.udp_flows.get? (.a host, k) = none) (hn : s.nodeByUdpAddr host = some n)
    (h : s.udp_flows.get? (.n n, k) = some fl) :
    s.flowFor host k = some ((.n n, k), fl) := by
  simp [flowFor, hno, hn, h]

theorem flowFor_scan {host : Addr} {k : Triple}
    (hno : s.udp_flows.get? (.a host, k) = none)
    (hnode : ∀ n, s.nodeByUdpAddr host = some n → s.udp_flows.get? (.n n, k) = none) :
    s.flowFor host k =
      freshest (fun e => e.1.2 = k && decide (s.clock - e.2.seen < FLOW_TTL)) (fun e => e.2.seen)
        s.udp_flows.items := by
  have hskip : ((s.nodeByUdpAddr host).bind fun nid =>
      (s.udp_flows.get? (.n nid, k)).map fun fl => ((DestTag.n nid, k), fl)) = none :=
    Option.bind_eq_none_iff.mpr fun n h => Option.map_eq_none_iff.mpr (hnode n h)
  unfold flowFor isFresh
  dsimp only
  rw [hno, hskip]
  rfl

/-- the three lookups of an S2C, one after the other -/
theorem flowFor_iff {host : Addr} {k : Triple} {fl : Flow} :
    (∃ key, s.flowFor host k = some (key, fl)) ↔
      Hit s.udp_flows (s.nodeByUdpAddr host) s.clock host k fl := by
  constructor
  · rintro ⟨key, h⟩
    cases ha : s.udp_flows.get? (.a host, k) with
    | some fl' =>
      rw [flowFor_endpoint ha] at h
      exact .endpoint ((Prod.mk.inj (Option.some.inj h)).2 ▸ ha)
    | none =>
      by_cases hn : ∃ n fl', s.nodeByUdpAddr host = some n ∧ s.udp_flows.get? (.n n, k) = some fl'
      · obtain ⟨n, fl', hn, hfl⟩ := hn
        rw [flowFor_node ha hn hfl] at h
        exact .node ha hn ((Prod.mk.inj (Option.some.inj h)).2 ▸ hfl)
      · push Not at hn
        have hno : ∀ n, s.nodeByUdpAddr host = some n → s.udp_flows.get? (.n n, k) = none :=
          fun n h => Option.eq_none_iff_forall_ne_some.mpr fun fl' => hn n fl' h
        rw [flowFor_scan ha hno] at h
        exact .scan ha hno h
  · intro h
    cases h with
    | endpoint h => exact ⟨_, flowFor_endpoint h⟩
    | node hno hn h => exact ⟨_, flowFor_node hno hn h⟩
    | scan hno hnode h => exact ⟨_, (flowFor_scan hno hnode).trans h⟩

theorem Hit.unique {flows : Dict (DestTag × Triple) Flow} {node : Option Nat} {now : Nat}
    {host : Addr} {k : Triple} {fl fl' : Flow} (h : Hit flows node now host k fl)
    (h' : Hit flows node now host k fl') : fl = fl' := by
  cases h with
  | endpoint h =>
    cases h' with
    | endpoint h' => exact Option.some.inj (h.symm.trans h')
    | node hno => rw [h] at hno; cases hno
    | scan hno => rw [h] at hno; cases hno
  | node hno hn h =>
    cases h' with
    | endpoint h' => rw [hno] at h'; cases h'
    | node _ hn' h' =>
      rw [hn] at hn'
      rw [← Option.some.inj hn'] at h'
      exact Option.some.inj (h.symm.trans h')
    | scan _ hnode _ => rw [hnode _ hn] at h; cases h
  | scan hno hnode h =>
    cases h' with
    | endpoint h' => rw [hno] at h'; cases h'
    | node _ hn' h' => rw [hnode _ hn'] at h'; cases h'
    | scan _ _ h' => exact (Prod.mk.inj (Option.some.inj (h.symm.trans h'))).2

theorem not_hit_empty {node : Option Nat} {now : Nat} {host : Addr} {k : Triple} {fl : Flow} :
    ¬ Hit .empty node now host k fl := by
  intro h
  cases h with
  | endpoint h => cases h
  | node _ _ h => cases h
  | scan _ _ h => cases h

/-- when the relay answers an S2C with one transmission to the player -/
theorem finds_iff {data : Bytes} {host player : Addr} {g : UdpGame}
    (hop : udpOp data = U_GAME_S2C) (hg : decodeUdpGame data = some g) :
    s.Finds data host player ↔
      ∃ fl, Hit s.udp_flows ((s.recordUdpProof host).nodeByUdpAddr host) s.clock host g.triple fl ∧
        s.clock - fl.seen ≤ FLOW_TTL ∧ fl.player ≠ host ∧
        (s.recordUdpProof host).resolve fl.player = (s.recordUdpProof host).resolve player ∧
        ((s.recordUdpProof host).resolve player).isSome = true := by
  have hheard := heard_recordUdpProof s host
  have hhand : s.handleUdpPayload data host = (s.recordUdpProof host).handleS2c data host := by
    unfold handleUdpPayload
    rw [if_neg (by simp [udpHeaderOk_of_game hg]), hop]
    rfl
  unfold Finds
  rw [hhand, (handleS2c_links _ data host).udpSendto, handleS2c_out, hg,
    ← hheard.flows, ← hheard.clock]
  generalize s.recordUdpProof host = u
  dsimp only
  have hflow : ∀ fl, (∃ key, u.flowFor host g.triple = some (key, fl)) ↔
      Hit u.udp_flows (u.nodeByUdpAddr host) u.clock host g.triple fl := fun _ => flowFor_iff
  cases hf : u.flowFor host g.triple with
  | none =>
    refine iff_of_false (fun h => h.1 rfl) ?_
    rintro ⟨fl, hhit, _⟩
    obtain ⟨key, hkey⟩ := (hflow fl).mpr hhit
    rw [hf] at hkey
    cases hkey
  | some e =>
    have hhit := (hflow e.2).mp ⟨e.1, hf⟩
    dsimp only
    by_cases hdead : u.clock - e.2.seen > FLOW_TTL ∨ e.2.player = host
    · rw [if_pos hdead]
      refine iff_of_false (fun h => h.1 rfl) ?_
      rintro ⟨fl, hhit', hage, hne, _⟩
      rw [hhit'.unique hhit] at hage hne
      exact hne (hdead.resolve_left (by omega))
    · rw [if_neg hdead, udpSendto_congr_iff, Ne, udpSendto_eq_nil]
      rw [not_or] at hdead
      constructor
      · rintro ⟨hsome, heq⟩
        refine ⟨e.2, hhit, by omega, hdead.2, heq, ?_⟩
        rw [← heq]
        exact Option.isSome_iff_ne_none.mpr hsome
      · rintro ⟨fl, hhit', _, _, heq, hsome⟩
        rw [hhit'.unique hhit] at heq
        exact ⟨heq ▸ Option.isSome_iff_ne_none.mp hsome, heq⟩

/-- **When a reply finds its player.**  `s` is any state of the relay, `player` sends it a C2S or
P2P that it relays to someone; after events that hand it no datagram, in `s'`, an S2C with the same
triple arrives from `host`.  The relay transmits it to the player and to nobody else exactly when
`ReplyOk` holds. -/
theorem reply_iff {s s' : Relay} {data reply : Bytes} {player host : Addr} {t : Triple}
    {tags : List DestTag} {tr : List (Relay × RelayAct)} {g : UdpGame}
    (htags : s.flowTags data player = some (t, tags))
    (hout : (s.handleUdpPayload data player).2 ≠ [])
    (hrun : Path next (s.handleUdpPayload data player).1 tr s')
    (hquiet : ∀ x ∈ tr, x.2.isDatagram = false)
    (hop : udpOp reply = U_GAME_S2C) (hg : decodeUdpGame reply = some g) (ht : g.triple = t) :
    s'.Finds reply host player ↔ s.ReplyOk s' tags t player host := by
  have hflows : s'.udp_flows = trimmed (s.noteFlows tags t player) :=
    (run_flows hrun hquiet).trans (relayed_flows htags hout)
  rw [finds_iff hop hg, hflows, ht]
  unfold trimmed
  by_cases hsize : (s.noteFlows tags t player).size > TABLE_MAX
  · rw [if_pos hsize]
    refine iff_of_false ?_ (fun h => absurd h.kept (by omega))
    rintro ⟨fl, hhit, _⟩
    exact not_hit_empty hhit
  · rw [if_neg hsize]
    constructor
    · rintro ⟨fl, hhit, hage, hne, heq, hlive⟩
      exact ⟨by omega, ⟨fl, hhit, hage, hne, heq⟩, hlive⟩
    · rintro ⟨_, ⟨fl, hhit, hage, hne, heq⟩, hlive⟩
      exact ⟨fl, hhit, hage, hne, heq, hlive⟩

end

/-- a host with UDP port 5000 on node 1, a player with UDP port 6000 on node 2 -/
def hostAndPlayer : List RelayAct :=
  [.accept 1 "10.0.0.9", .node 1 [3, 0, 0, 0, 0, 0, 1, 0x13, 0x88, 0],
    .accept 2 "10.0.0.8", .node 2 [3, 0, 0, 0, 0, 0, 2, 0x17, 0x70, 0]]

def hostAddr : Addr := .udp "10.0.0.9" 5000
def playerAddr : Addr := .udp "10.0.0.8" 6000

/-- game port 27015, from `("1", 40000)` -/
def query : Bytes := [0x56, 0x4E, 3, 1, 0x69, 0x87, 0, 1, 0x31, 0x9C, 0x40, 7]
def directQuery : Bytes := [0x56, 0x4E, 3, 3, 0, 0, 0, 1, 0x69, 0x87, 0, 1, 0x31, 0x9C, 0x40, 7]
def answer : Bytes := [0x56, 0x4E, 3, 2, 0x69, 0x87, 0, 1, 0x31, 0x9C, 0x40, 8]

/-- a C2S into a fresh room, and the reply at once -/
theorem reply_found : ∃ s, Reachable s ∧
    (s.handleUdpPayload query playerAddr).1.Finds answer hostAddr playerAddr ∧
    s.ReplyOk (s.handleUdpPayload query playerAddr).1 [.a hostAddr] ⟨27015, [0x31], 40000⟩
      playerAddr hostAddr := by
  have hrun : (run next (init [] [] 0 0) hostAndPlayer).isSome = true := by decide
  obtain ⟨s, hs⟩ := Option.isSome_iff_exists.mp hrun
  have h : ∀ s ∈ run next (init [] [] 0 0) hostAndPlayer,
      s.flowTags query playerAddr = some (⟨27015, [0x31], 40000⟩, [.a hostAddr]) ∧
      (s.handleUdpPayload query playerAddr).2 ≠ [] ∧
      ((s.handleUdpPayload query playerAddr).1.handleUdpPayload answer hostAddr).2 ≠ [] ∧
      ((s.handleUdpPayload query playerAddr).1.handleUdpPayload answer hostAddr).2 =
        ((s.handleUdpPayload query playerAddr).1.handleUdpPayload answer hostAddr).1.udpSendto answer
          playerAddr := by decide
  obtain ⟨htags, hout, hfinds⟩ := h s hs
  have hg : decodeUdpGame answer = some ⟨⟨27015, [0x31], 40000⟩, [8]⟩ := by decide
  exact ⟨s, ⟨_, _, _, _, _, path_run hs⟩, hfinds,
    (reply_iff htags hout .nil (by simp) (by decide) hg rfl).mp hfinds⟩

def lateQuery : List RelayAct :=
  hostAndPlayer ++ ([.datagram query "10.0.0.8" 6000, .tick (130 * second)] : List RelayAct)

/-- the player finds the host by a C2S; 130 seconds later it sends it a P2P, and the reply to that
is dropped: the old flow of the endpoint is found first, and is too old -/
theorem dropped_reply : ∃ s, Reachable s ∧
    (s.handleUdpPayload directQuery playerAddr).2 = [.sendto query hostAddr] ∧
    ((s.handleUdpPayload directQuery playerAddr).1.handleUdpPayload answer hostAddr).2 = [] := by
  have hrun : (run next (init [] [] 0 0) lateQuery).isSome = true := by decide
  obtain ⟨s, hs⟩ := Option.isSome_iff_exists.mp hrun
  have h : ∀ s ∈ run next (init [] [] 0 0) lateQuery,
      (s.handleUdpPayload directQuery playerAddr).2 = [.sendto query hostAddr] ∧
      ((s.handleUdpPayload directQuery playerAddr).1.handleUdpPayload answer hostAddr).2 = [] := by
    decide
  exact ⟨s, ⟨_, _, _, _, _, path_run hs⟩, h s hs⟩

end Relay
end ShadowLan
