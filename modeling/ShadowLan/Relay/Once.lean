import Mathlib.Data.List.Pairwise
import ShadowLan.Relay.Routes

/-!
# How many copies a machine gets

The destinations of a datagram are distinct names, but two names may lead to one machine: to one
link, or to two links that share an endpoint, as a redialed link and the one it replaces do.

* `Once`           no machine gets two of the transmissions for a datagram;
* `OnceOk`         no two names among the destinations lead to one machine, branch by branch;
* `once_iff`       the two are the same, in every state;
* `doubled_c2s`    a link in UDP-over-TCP mode whose endpoint was heard from lately gets two copies.
-/

namespace ShadowLan

/-- one link, or two that share an endpoint -/
def SameMachine (ep : LinkRef → Addr → Prop) (x y : LinkRef) : Prop := x = y ∨ ∃ a, ep x a ∧ ep y a

theorem SameMachine.symm {ep : LinkRef → Addr → Prop} {x y : LinkRef} (h : SameMachine ep x y) :
    SameMachine ep y x := by
  rcases h with h | ⟨a, hx, hy⟩
  · exact Or.inl h.symm
  · exact Or.inr ⟨a, hy, hx⟩

namespace Relay

/-- both transmissions arrive at one machine -/
def Twice (s : Relay) (ep : LinkRef → Addr → Prop) (o o' : Out) : Prop :=
  ∃ x ∈ s.allLinks, ∃ y ∈ s.allLinks, o.reaches ep x ∧ o'.reaches ep y ∧ SameMachine ep x y

/-- both names lead to one machine -/
def Clash (s : Relay) (ep : LinkRef → Addr → Prop) (d d' : Addr) : Prop :=
  ∃ x ∈ s.allLinks, ∃ y ∈ s.allLinks, s.leads ep d x ∧ s.leads ep d' y ∧ SameMachine ep x y

/-- at most one copy a machine, by the links at the time of the transmission -/
def Once (s : Relay) (ep : LinkRef → Addr → Prop) (data : Bytes) (src : Addr) : Prop :=
  (s.handleUdpPayload data src).2.Pairwise fun o o' =>
    ¬ (s.handleUdpPayload data src).1.Twice ep o o'

/-- the destinations of a C2S without a sticky replier -/
def C2sDest (s : Relay) (src d : Addr) : Prop :=
  d ≠ src ∧ (s.knownFresh d ∨ ∃ w, d = .tcp w ∧ s.tcpMode w)

/-- the destinations of a datagram for a node -/
def NodeDest (s : Relay) (dest : Nat) (src d : Addr) : Prop :=
  d ≠ src ∧ ∃ y ∈ s.nodeLinks dest, s.linkEndpoint y.1 y.2 = some d

/-- different names in `D` lead to different machines -/
def Distinct (s : Relay) (ep : LinkRef → Addr → Prop) (D : Addr → Prop) : Prop :=
  ∀ d d', D d → D d' → d ≠ d' → ¬ s.Clash ep d d'

structure OnceOk (s : Relay) (ep : LinkRef → Addr → Prop) (data : Bytes) (src : Addr) : Prop where
  /-- the source's endpoint is recorded before a C2S is routed -/
  c2s : udpOp data = U_GAME_C2S → ∀ g, decodeUdpGame data = some g →
    s.portAllowed g.triple.gport = true → s.sticky g.triple.gport src = none →
    (s.recordUdpProof src).Distinct ep (s.C2sDest src)
  p2p : ∀ dest g, decodePdat data = some (dest, g) → s.portAllowed g.triple.gport = true →
    s.Distinct ep (s.NodeDest dest src)
  icmp : ∀ f, decodeIcmp data = some f → ∀ node, s.icmpSource src f.src = some node →
    f.dest ≠ 0 → f.dest ≠ node → s.Distinct ep (s.NodeDest f.dest src)

section
variable {s t : Relay} {ep : LinkRef → Addr → Prop}

theorem SameLinks.twice (h : SameLinks s t) : t.Twice = s.Twice := by
  funext ep o o'
  unfold Relay.Twice
  rw [h.allLinks]

theorem Clash.symm {d d' : Addr} (h : s.Clash ep d d') : s.Clash ep d' d := by
  obtain ⟨x, hx, y, hy, h1, h2, hm⟩ := h
  exact ⟨y, hy, x, hx, h2, h1, hm.symm⟩

/-- the transmissions for two names meet at a machine iff the names do -/
theorem clash_iff (data : Bytes) (d d' : Addr) : s.Clash ep d d' ↔
    ∃ o ∈ s.udpSendto data d, ∃ o' ∈ s.udpSendto data d', s.Twice ep o o' := by
  unfold Clash Twice
  constructor
  · rintro ⟨x, hx, y, hy, h1, h2, hm⟩
    obtain ⟨o, ho, hr⟩ := (reached_iff data d hx).mpr h1
    obtain ⟨o', ho', hr'⟩ := (reached_iff data d' hy).mpr h2
    exact ⟨o, ho, o', ho', x, hx, y, hy, hr, hr', hm⟩
  · rintro ⟨o, ho, o', ho', x, hx, y, hy, hr, hr', hm⟩
    exact ⟨x, hx, y, hy, (reached_iff data d hx).mp ⟨o, ho, hr⟩,
      (reached_iff data d' hy).mp ⟨o', ho', hr'⟩, hm⟩

/-- a name leads to at most one transmission -/
theorem udpSendto_pairwise (R : Out → Out → Prop) (s : Relay) (data : Bytes) (d : Addr) :
    (s.udpSendto data d).Pairwise R := by
  unfold udpSendto
  repeat' split
  all_goals simp

/-- **Copies come from names.**  Sending to distinct names, no machine gets two copies iff
different names lead to different machines. -/
theorem sendAll_once (data : Bytes) {dests : List Addr} (hnd : dests.Nodup) :
    (s.sendAll data dests).Pairwise (fun o o' => ¬ s.Twice ep o o') ↔
      s.Distinct ep (· ∈ dests) := by
  have hpair : (s.sendAll data dests).Pairwise (fun o o' => ¬ s.Twice ep o o') ↔
      dests.Pairwise fun d d' => ¬ s.Clash ep d d' := by
    unfold sendAll
    rw [List.pairwise_flatMap]
    simp only [clash_iff data]
    push Not
    exact and_iff_right fun d _ => udpSendto_pairwise _ s data d
  rw [hpair]
  constructor
  · intro h d d' hd hd' hne
    have hsymm : Std.Symm fun d d' => ¬ s.Clash ep d d' := ⟨fun _ _ h hc => h hc.symm⟩
    exact h.forall hd hd' hne
  · intro h
    exact hnd.pairwise_of_forall_ne fun d hd d' hd' hne => h d d' hd hd' hne

theorem Distinct.congr {D D' : Addr → Prop} (h : ∀ d, D d ↔ D' d) :
    s.Distinct ep D ↔ s.Distinct ep D' := by
  rw [funext fun d => propext (h d)]

theorem nodup_targetsOf (s : Relay) (nid : Nat) (src : Addr) : (s.targetsOf nid src).Nodup :=
  (nodup_collect _ List.nodup_nil).filter _

theorem nodup_fanOut (s : Relay) (src : Addr) : (s.fanOut src).Nodup :=
  nodup_collect _ ((List.filter_sublist.map _).nodup s.known_udp.nodup)

theorem once_targetsOf (data : Bytes) (dest : Nat) (src : Addr) :
    (s.sendAll data (s.targetsOf dest src)).Pairwise (fun o o' => ¬ s.Twice ep o o') ↔
      s.Distinct ep (s.NodeDest dest src) :=
  (sendAll_once data (nodup_targetsOf s dest src)).trans (Distinct.congr fun _ => mem_targetsOf)

/-! ## the branches -/

theorem once_p2p (s : Relay) (data : Bytes) (src : Addr) :
    ((s.handleP2p data src).2.Pairwise fun o o' => ¬ (s.handleP2p data src).1.Twice ep o o') ↔
      ∀ dest g, decodePdat data = some (dest, g) → s.portAllowed g.triple.gport = true →
        s.Distinct ep (s.NodeDest dest src) := by
  have hlinks : ((s.handleP2p data src).2.Pairwise fun o o' =>
      ¬ (s.handleP2p data src).1.Twice ep o o') ↔
      (s.handleP2p data src).2.Pairwise fun o o' => ¬ s.Twice ep o o' := by
    by_cases h : (s.handleP2p data src).2 = []
    · rw [h]; simp
    · rw [(handleP2p_links s data src h).twice]
  rw [hlinks, handleP2p_out]
  cases decodePdat data with
  | none => simp
  | some p =>
    obtain ⟨dest, g⟩ := p
    dsimp only
    by_cases hp : s.portAllowed g.triple.gport = true
    · rw [if_pos hp, once_targetsOf]
      simp [hp]
    · rw [if_neg hp]
      simp [hp]

theorem once_icmp (s : Relay) (data : Bytes) (src : Addr) :
    ((s.handleIcmp data src).2.Pairwise fun o o' => ¬ (s.handleIcmp data src).1.Twice ep o o') ↔
      ∀ f, decodeIcmp data = some f → ∀ node, s.icmpSource src f.src = some node →
        f.dest ≠ 0 → f.dest ≠ node → s.Distinct ep (s.NodeDest f.dest src) := by
  rw [(handleIcmp_links s data src).twice, handleIcmp_out]
  cases decodeIcmp data with
  | none => simp
  | some f =>
    dsimp only
    cases hn : s.icmpSource src f.src with
    | none => simp [hn]
    | some node =>
      dsimp only
      by_cases h0 : f.dest = 0
      · rw [if_pos h0]
        have hall : (if f.mtype ≠ U_ICMP_REQ then [] else
            s.udpSendto (encodeIcmp { f with mtype := U_ICMP_REP, src := 0, dest := node }) src).Pairwise
              fun o o' => ¬ s.Twice ep o o' := by
          split
          · exact List.Pairwise.nil
          · exact udpSendto_pairwise _ s _ src
        exact iff_of_true hall fun f' hf _ _ hd => absurd (Option.some.inj hf ▸ h0) hd
      · rw [if_neg h0]
        by_cases hd : f.dest = node
        · rw [if_pos hd]
          simp [hn, hd]
        · rw [if_neg hd, once_targetsOf]
          simp [hn, hd, h0]

theorem once_c2s (s : Relay) (data : Bytes) (src : Addr) :
    (((s.recordUdpProof src).handleC2s data src).2.Pairwise fun o o' =>
        ¬ ((s.recordUdpProof src).handleC2s data src).1.Twice ep o o') ↔
      ∀ g, decodeUdpGame data = some g → s.portAllowed g.triple.gport = true →
        s.sticky g.triple.gport src = none →
        (s.recordUdpProof src).Distinct ep (s.C2sDest src) := by
  generalize ht : s.recordUdpProof src = t
  have h1 : Heard src s t := ht ▸ heard_recordUdpProof s src
  have h2 : Heard src s (t.noteUdp src) := h1.trans (noted_noteUdp src t).heard
  rw [(handleC2s_links t data src).twice, handleC2s_out, h1.portAllowed]
  cases decodeUdpGame data with
  | none => simp
  | some g =>
    dsimp only
    by_cases hp : s.portAllowed g.triple.gport = true
    · rw [if_pos hp]
      unfold udpTargets
      rw [h2.sticky]
      cases hst : s.sticky g.triple.gport src with
      | some r =>
        have hone : t.sendAll data [r] = t.udpSendto data r := by simp [sendAll]
        refine iff_of_true ?_ (fun g' hg _ hnone => ?_)
        · show (t.sendAll data [r]).Pairwise _
          rw [hone]
          exact udpSendto_pairwise _ t data r
        · rw [← Option.some.inj hg, hst] at hnone
          cases hnone
      | none =>
        have hdest : ∀ d, d ∈ (t.noteUdp src).fanOut src ↔ s.C2sDest src d := fun d =>
          h2.mem_fanOut.trans mem_fanOut
        show (t.sendAll data ((t.noteUdp src).fanOut src)).Pairwise _ ↔ _
        rw [sendAll_once data (nodup_fanOut _ src), Distinct.congr hdest]
        simp [hp, hst]
    · rw [if_neg hp]
      simp [hp]

theorem once_s2c (s : Relay) (data : Bytes) (src : Addr) (R : Out → Out → Prop) :
    (s.handleS2c data src).2.Pairwise R := by
  rw [handleS2c_out]
  repeat' split
  all_goals first | exact List.Pairwise.nil | exact udpSendto_pairwise R s data _

end

/-! ## the exact condition -/

/-- **When every machine sees a datagram once.**  In every state and for every datagram from
every address: no machine gets two copies exactly when no two names among the destinations lead
to one machine. -/
theorem once_iff (s : Relay) (ep : LinkRef → Addr → Prop) (data : Bytes) (src : Addr) :
    s.Once ep data src ↔ s.OnceOk ep data src := by
  have hop := handleUdpPayload_op s data src
    (fun r => r.2.Pairwise fun o o' => ¬ r.1.Twice ep o o') (fun _ => List.Pairwise.nil)
  refine hop.trans ?_
  rw [once_p2p, once_icmp, once_c2s]
  constructor
  · intro h
    refine ⟨fun ho g hg => ?_, fun dest g hg => ?_, fun f hf => ?_⟩
    · exact (h (udpHeaderOk_of_game hg)).2.2.2 ho g hg
    · obtain ⟨hh, ho⟩ := op_of_pdat hg
      exact (h hh).1 ho dest g hg
    · obtain ⟨hh, ho⟩ := op_of_icmp hf
      exact (h hh).2.1 ho f hf
  · intro h _
    exact ⟨fun _ => h.p2p, fun _ => h.icmp, fun _ => once_s2c _ data src _, fun ho => h.c2s ho⟩

/-- a peer in UDP-over-TCP mode with UDP port 5000, and a plain one with UDP port 6000 -/
def mixedRoom : List RelayAct :=
  [.accept 1 "10.0.0.9", .node 1 [3, 0, 0, 0, 0, 0, 1, 0x13, 0x88, 0], .udpMode 1,
    .accept 2 "10.0.0.8", .node 2 [3, 0, 0, 0, 0, 0, 2, 0x17, 0x70, 0]]

/-- C2S for game port 27015 from `("1", 40000)` -/
def serverQuery : Bytes := [0x56, 0x4E, 3, 1, 0x69, 0x87, 0, 1, 0x31, 0x9C, 0x40, 7]

/-- the first peer is known by its UDP endpoint and by its connection: both names lead to its
connection, and a C2S of the second peer goes there twice -/
theorem doubled_c2s : ∃ s, Reachable s ∧
    (s.handleUdpPayload serverQuery (.udp "10.0.0.8" 6000)).2
      = [.tun 1 serverQuery, .tun 1 serverQuery] ∧
    ¬ s.Once recorded serverQuery (.udp "10.0.0.8" 6000) := by
  have hrun : (run next (init [] [] 0 0) mixedRoom).isSome = true := by decide
  obtain ⟨s, hs⟩ := Option.isSome_iff_exists.mp hrun
  have h : ∀ s ∈ run next (init [] [] 0 0) mixedRoom,
      (s.handleUdpPayload serverQuery (.udp "10.0.0.8" 6000)).2
        = [.tun 1 serverQuery, .tun 1 serverQuery] ∧
      ∃ x ∈ (s.handleUdpPayload serverQuery (.udp "10.0.0.8" 6000)).1.allLinks, 1 = x.writer := by
    decide
  obtain ⟨hout, x, hx, hw⟩ := h s hs
  refine ⟨s, ⟨_, _, _, _, _, path_run hs⟩, hout, fun honce => ?_⟩
  unfold Once at honce
  rw [hout] at honce
  have hpair := (List.pairwise_cons.mp honce).1 _ List.mem_cons_self
  exact hpair ⟨x, hx, x, hx, hw, hw, Or.inl rfl⟩

end Relay
end ShadowLan
