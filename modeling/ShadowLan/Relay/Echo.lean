import ShadowLan.Relay.Routes

/-!
# Does the relay echo?

Every branch of `handle_udp_payload` leaves its source out of the destinations, by the one name
under which the datagram was handled.  The datagram comes back to its source exactly when another
name of the same link is among the destinations.

* `NoEcho`             nothing of what the relay transmits for a datagram reaches its source link;
* `EchoFree`           no other name of the link is among the destinations, branch by branch;
* `no_echo_iff`        the two are the same, in every state;
* `echoed_broadcast`   a link in UDP-over-TCP mode with a declared port hears its own datagram.
-/

namespace ShadowLan
namespace Relay

/-- a ping of the relay itself, which is answered to its sender -/
def RelayPing (data : Bytes) : Prop := ∃ f, decodeIcmp data = some f ∧ f.dest = 0

def NoEcho (s : Relay) (ep : LinkRef → Addr → Prop) (x : LinkRef) (data : Bytes) : Prop :=
  ∀ o ∈ (s.handleUdpPayload data x.source).2, ¬ o.reaches ep x

/-- no link of the node has an endpoint that is another name of `x` -/
def NodeClear (s : Relay) (ep : LinkRef → Addr → Prop) (x : LinkRef) (dest : Nat) : Prop :=
  ∀ y ∈ s.nodeLinks dest, ∀ d, s.linkEndpoint y.1 y.2 = some d → d ≠ x.source → ¬ s.leads ep d x

/-- a C2S: the sticky replier is no name of the link; without one, no endpoint heard from lately is
another name of it, and its connection is not in UDP-over-TCP mode under another name -/
def C2sClear (s : Relay) (ep : LinkRef → Addr → Prop) (x : LinkRef) (gport : Nat) : Prop :=
  match s.sticky gport x.source with
  | some r => ¬ s.leads ep r x
  | none =>
    (∀ d, d ≠ x.source → s.knownFresh d → ¬ s.leads ep d x) ∧
      (s.tcpMode x.writer → x.source ≠ .tcp x.writer → s.isClosing x.writer = true)

/-- an S2C: the player of the live flow it belongs to is no other name of the link -/
def S2cClear (s : Relay) (ep : LinkRef → Addr → Prop) (x : LinkRef) (t : Triple) : Prop :=
  ∀ k fl, s.flowFor x.source t = some (k, fl) → s.clock - fl.seen ≤ FLOW_TTL →
    fl.player ≠ x.source → ¬ s.leads ep fl.player x

structure EchoFree (s : Relay) (ep : LinkRef → Addr → Prop) (x : LinkRef) (data : Bytes) : Prop where
  c2s : udpOp data = U_GAME_C2S → ∀ g, decodeUdpGame data = some g →
    s.portAllowed g.triple.gport = true → s.C2sClear ep x g.triple.gport
  p2p : ∀ dest g, decodePdat data = some (dest, g) →
    s.portAllowed g.triple.gport = true → s.NodeClear ep x dest
  s2c : udpOp data = U_GAME_S2C → ∀ g, decodeUdpGame data = some g → s.S2cClear ep x g.triple
  icmp : ∀ f, decodeIcmp data = some f → ∀ node, s.icmpSource x.source f.src = some node →
    f.dest ≠ node → s.NodeClear ep x f.dest

/-! ## the branches -/

section
variable {s : Relay} {ep : LinkRef → Addr → Prop} {x : LinkRef} (hx : x ∈ s.allLinks)
include hx

theorem quiet_sendAll (data : Bytes) (addrs : List Addr) :
    (∀ o ∈ s.sendAll data addrs, ¬ o.reaches ep x) ↔ ∀ d ∈ addrs, ¬ s.leads ep d x := by
  have h : ¬ (∃ o ∈ s.sendAll data addrs, o.reaches ep x) ↔ ¬ ∃ d ∈ addrs, s.leads ep d x :=
    not_congr (sendAll_reached_iff data addrs hx)
  push Not at h
  exact h

theorem quiet_targetsOf (data : Bytes) (dest : Nat) :
    (∀ o ∈ s.sendAll data (s.targetsOf dest x.source), ¬ o.reaches ep x) ↔ s.NodeClear ep x dest := by
  rw [quiet_sendAll hx]
  unfold NodeClear
  constructor
  · intro h y hy d he hne
    exact h d (mem_targetsOf.mpr ⟨hne, y, hy, he⟩)
  · intro h d hd
    obtain ⟨hne, y, hy, he⟩ := mem_targetsOf.mp hd
    exact h y hy d he hne

theorem quiet_p2p (data : Bytes) :
    (∀ o ∈ (s.handleP2p data x.source).2, ¬ o.reaches ep x) ↔
      ∀ dest g, decodePdat data = some (dest, g) → s.portAllowed g.triple.gport = true →
        s.NodeClear ep x dest := by
  rw [handleP2p_out]
  cases decodePdat data with
  | none => simp
  | some p =>
    obtain ⟨dest, g⟩ := p
    dsimp only
    by_cases hp : s.portAllowed g.triple.gport = true
    · rw [if_pos hp, quiet_targetsOf hx]
      simp [hp]
    · rw [if_neg hp]
      simp [hp]

theorem quiet_icmp (data : Bytes) (hping : ¬ RelayPing data) :
    (∀ o ∈ (s.handleIcmp data x.source).2, ¬ o.reaches ep x) ↔
      ∀ f, decodeIcmp data = some f → ∀ node, s.icmpSource x.source f.src = some node →
        f.dest ≠ node → s.NodeClear ep x f.dest := by
  rw [handleIcmp_out]
  unfold RelayPing at hping
  cases hf : decodeIcmp data with
  | none => simp
  | some f =>
    have h0 : f.dest ≠ 0 := fun h => hping ⟨f, hf, h⟩
    dsimp only
    cases hn : s.icmpSource x.source f.src with
    | none => simp [hn]
    | some node =>
      dsimp only
      rw [if_neg h0]
      by_cases hd : f.dest = node
      · rw [if_pos hd]
        simp [hn, hd]
      · rw [if_neg hd, quiet_targetsOf hx]
        simp [hn, hd]

/-- the destinations of a C2S, seen from the link -/
theorem quiet_targets (data : Bytes) (gport : Nat) :
    (∀ o ∈ s.sendAll data (s.udpTargets gport x.source).2, ¬ o.reaches ep x) ↔
      s.C2sClear ep x gport := by
  rw [quiet_sendAll hx]
  unfold udpTargets C2sClear
  cases s.sticky gport x.source with
  | some r => simp
  | none =>
    constructor
    · intro h
      refine ⟨fun d hne hd => h d (mem_fanOut.mpr ⟨hne, Or.inl hd⟩), fun hmode hne => ?_⟩
      have hno := h (.tcp x.writer) (mem_fanOut.mpr ⟨Ne.symm hne, Or.inr ⟨_, rfl, hmode⟩⟩)
      by_contra hlive
      exact hno ⟨rfl, Bool.eq_false_iff.mpr hlive⟩
    · rintro ⟨hknown, htcp⟩ d hd hl
      obtain ⟨hne, hd | ⟨w, rfl, hw⟩⟩ := mem_fanOut.mp hd
      · exact hknown d hne hd hl
      · obtain ⟨rfl, hlive⟩ : w = x.writer ∧ s.isClosing w = false := hl
        rw [htcp hw (Ne.symm hne)] at hlive
        cases hlive

omit hx in
theorem Noted.c2sClear {t : Relay} (h : Noted x.source s t) (gport : Nat) :
    t.C2sClear ep x gport ↔ s.C2sClear ep x gport := by
  unfold C2sClear tcpMode
  rw [h.heard.sticky, h.same.leads, h.same.isClosing, h.same.allLinks]
  cases s.sticky gport x.source with
  | some r => exact Iff.rfl
  | none =>
    refine and_congr_left fun _ => forall_congr' fun d => forall_congr' fun hd => ?_
    rw [h.heard.knownFresh hd]

theorem quiet_c2s (data : Bytes) :
    (∀ o ∈ ((s.recordUdpProof x.source).handleC2s data x.source).2, ¬ o.reaches ep x) ↔
      ∀ g, decodeUdpGame data = some g → s.portAllowed g.triple.gport = true →
        s.C2sClear ep x g.triple.gport := by
  have h1 := recordUdpProof_source hx
  have h2 := h1.trans (noted_noteUdp x.source _)
  rw [handleC2s_out, h1.heard.portAllowed,
    ← (SameLinks.noteUdp (s.recordUdpProof x.source) x.source).sendAll]
  cases decodeUdpGame data with
  | none => simp
  | some g =>
    dsimp only
    by_cases hp : s.portAllowed g.triple.gport = true
    · have hx' : x ∈ ((s.recordUdpProof x.source).noteUdp x.source).allLinks := by
        rw [h2.same.allLinks]; exact hx
      rw [if_pos hp, quiet_targets hx', h2.c2sClear]
      simp [hp]
    · rw [if_neg hp]
      simp [hp]

theorem quiet_s2c (data : Bytes) :
    (∀ o ∈ ((s.recordUdpProof x.source).handleS2c data x.source).2, ¬ o.reaches ep x) ↔
      ∀ g, decodeUdpGame data = some g → s.S2cClear ep x g.triple := by
  have h1 := recordUdpProof_source hx
  have hsend : ∀ d, (∀ o ∈ s.udpSendto data d, ¬ o.reaches ep x) ↔ ¬ s.leads ep d x := fun d => by
    have h : ¬ (∃ o ∈ s.udpSendto data d, o.reaches ep x) ↔ ¬ s.leads ep d x :=
      not_congr (reached_iff data d hx)
    push Not at h
    exact h
  rw [handleS2c_out, h1.flowFor, h1.same.clock, h1.same.udpSendto]
  unfold S2cClear
  cases decodeUdpGame data with
  | none => simp
  | some g =>
    dsimp only
    cases hf : s.flowFor x.source g.triple with
    | none => simp [hf]
    | some e =>
      obtain ⟨k, fl⟩ := e
      dsimp only
      by_cases hlive : s.clock - fl.seen > FLOW_TTL ∨ fl.player = x.source
      · rw [if_pos hlive]
        refine iff_of_true (by simp) fun g' hg k' fl' he hage hne => ?_
        rw [← Option.some.inj hg, hf] at he
        rw [← (Prod.mk.inj (Option.some.inj he)).2] at hage hne
        exact absurd (hlive.resolve_left (by omega)) hne
      · rw [if_neg hlive, hsend]
        rw [not_or] at hlive
        constructor
        · intro hl g' hg k' fl' he _ _
          rw [← Option.some.inj hg, hf] at he
          rw [← (Prod.mk.inj (Option.some.inj he)).2]
          exact hl
        · intro h
          exact h g rfl k fl hf (by omega) hlive.2

end

/-! ## the exact condition -/

/-- **When the relay does not echo.**  In every state, for every registered link and every
datagram handled as coming from it that does not ping the relay itself: nothing is sent back to
the link exactly when no other name of the link is among the destinations. -/
theorem no_echo_iff (s : Relay) (ep : LinkRef → Addr → Prop) (x : LinkRef) (data : Bytes)
    (hx : x ∈ s.allLinks) (hping : ¬ RelayPing data) : s.NoEcho ep x data ↔ s.EchoFree ep x data := by
  have hop := handleUdpPayload_op s data x.source
    (fun r => ∀ o ∈ r.2, ¬ o.reaches ep x) (fun _ => by simp)
  refine hop.trans ?_
  rw [quiet_p2p hx, quiet_icmp hx data hping, quiet_s2c hx, quiet_c2s hx]
  constructor
  · intro h
    refine ⟨fun ho g hg => ?_, fun dest g hg => ?_, fun ho g hg => ?_, fun f hf => ?_⟩
    · exact (h (udpHeaderOk_of_game hg)).2.2.2 ho g hg
    · obtain ⟨hh, ho⟩ := op_of_pdat hg
      exact (h hh).1 ho dest g hg
    · exact (h (udpHeaderOk_of_game hg)).2.2.1 ho g hg
    · obtain ⟨hh, ho⟩ := op_of_icmp hf
      exact (h hh).2.1 ho f hf
  · intro h _
    exact ⟨fun _ => h.p2p, fun _ => h.icmp, fun ho => h.s2c ho, fun ho => h.c2s ho⟩

/-- a peer registers with UDP port 5000 -/
def joining : List RelayAct := [.accept 1 "10.0.0.9", .node 1 [3, 0, 0, 0, 0, 0, 1, 0x13, 0x88, 0]]

/-- a second peer registers with UDP port 6000 -/
def joining2 : List RelayAct := [.accept 2 "10.0.0.8", .node 2 [3, 0, 0, 0, 0, 0, 2, 0x17, 0x70, 0]]

/-- C2S for game port 27015 from `("1", 40000)` -/
def hello : Bytes := [0x56, 0x4E, 3, 1, 0x69, 0x87, 0, 1, 0x31, 0x9C, 0x40, 7]

theorem not_relayPing {data : Bytes} (h : decodeIcmp data = none) : ¬ RelayPing data := by
  rintro ⟨f, hf, _⟩
  rw [h] at hf
  cases hf

/-- two plain UDP links: the datagram goes to the other one only -/
theorem no_echo_plain : ∃ s, Reachable s ∧ ∃ x ∈ s.allLinks, (s.handleUdpPayload hello x.source).2 ≠ [] ∧
    s.NoEcho named x hello ∧ s.EchoFree named x hello := by
  have hrun : (run next (init [] [] 0 0) (joining ++ joining2)).isSome = true := by decide
  obtain ⟨s, hs⟩ := Option.isSome_iff_exists.mp hrun
  have h : ∀ s ∈ run next (init [] [] 0 0) (joining ++ joining2), ∃ x ∈ s.allLinks,
      (s.handleUdpPayload hello x.source).2 ≠ [] ∧
        ∀ o ∈ (s.handleUdpPayload hello x.source).2, ¬ o.reaches named x := by decide
  obtain ⟨x, hx, hsent, hno⟩ := h s hs
  have hping : ¬ RelayPing hello := not_relayPing (by decide)
  exact ⟨s, ⟨_, _, _, _, _, path_run hs⟩, x, hx, hsent, hno, (no_echo_iff s named x hello hx hping).mp hno⟩

def joiningTcp : List RelayAct := joining ++ [RelayAct.udpMode 1]

/-- the same peer declares UDP-over-TCP: its datagram is handled under the UDP endpoint, and the
fan-out goes to its control connection -/
theorem echoed_broadcast : ∃ s, Reachable s ∧ ∃ x ∈ s.allLinks, ¬ RelayPing hello ∧
    x.source = .udp "10.0.0.9" 5000 ∧
    (s.handleUdpPayload hello x.source).2 = [.tun x.writer hello] ∧ ¬ s.NoEcho recorded x hello := by
  have hrun : (run next (init [] [] 0 0) joiningTcp).isSome = true := by decide
  obtain ⟨s, hs⟩ := Option.isSome_iff_exists.mp hrun
  have h : ∀ s ∈ run next (init [] [] 0 0) joiningTcp, ∃ x ∈ s.allLinks,
      x.source = .udp "10.0.0.9" 5000 ∧
        (s.handleUdpPayload hello x.source).2 = [.tun x.writer hello] := by decide
  obtain ⟨x, hx, hsrc, hout⟩ := h s hs
  refine ⟨s, ⟨_, _, _, _, _, path_run hs⟩, x, hx, not_relayPing (by decide), hsrc, hout, ?_⟩
  intro hno
  exact hno (.tun x.writer hello) (by rw [hout]; exact List.mem_singleton_self _) rfl

end Relay
end ShadowLan
