import ShadowLan.Relay.Beacon
import ShadowLan.Relay.Filters

/-!
# Who a ping is from

A ping carries the node that it is from, and the relay puts the node there that it has registered for
the address of the sender.  What comes through a control connection is handled under the link's UDP
endpoint, or under `("tcp", id(writer))` when there is none, and that name is registered for nobody.

* `Brings`       the ways in which a link brings a datagram, and the address it is handled under;
* `Truthful`     every copy carries the link's own node, and a ping to that node is dropped;
* `Attributed`   the look-up of the address gives the link's node, or nothing turns on it;
* `ping_iff`     the first exactly under the second;
* `forged`       a link without an endpoint, and a node that it is not.
-/

namespace ShadowLan
namespace Relay
variable {s : Relay}

inductive Brings (s : Relay) (x : LinkRef) (data : Bytes) : RelayAct → Addr → Prop
  /-- over UDP, from an endpoint of the link -/
  | udp {ip port} (h : named x (.udp ip port)) : Brings s x data (.datagram data ip port) (.udp ip port)
  /-- as `T_UDP_TUN`, on the link's control connection -/
  | tun (h : s.writer_node.get? x.writer = some x.node) : Brings s x data (.tun x.writer data) x.source

/-- a copy that goes on carries the node `n`, and a ping to that node does not go on; the answer of
the relay itself is no copy -/
def Truthful (n : Nat) (f : IcmpFrame) (outs : List Out) : Prop :=
  (f.dest ≠ 0 → ∀ o ∈ outs, o.data = encodeIcmp { f with src := n }) ∧ (f.dest = n → outs = [])

/-- no endpoint of the node but `a` leads anywhere -/
def Unreached (s : Relay) (dest : Nat) (a : Addr) : Prop :=
  ∀ d ∈ s.targetsOf dest a, s.resolve d = none

/-- the node that a ping from `a` is taken to be from is `n`, or the ping goes nowhere -/
def Attributed (s : Relay) (n : Nat) (a : Addr) (f : IcmpFrame) : Prop :=
  match s.nodeByUdpAddr a with
  | some m => m = n ∨ f.dest = 0 ∨ f.dest = m ∨ s.Unreached f.dest a
  | none => f.src = n ∨ f.src = 0 ∨ f.dest = 0 ∨ f.dest = f.src ∨ s.Unreached f.dest a

instance (s : Relay) (dest : Nat) (a : Addr) : Decidable (s.Unreached dest a) :=
  inferInstanceAs (Decidable (∀ d ∈ s.targetsOf dest a, s.resolve d = none))

/-! ## the address -/

theorem tunAddr_source {x : LinkRef} (hx : x ∈ s.allLinks)
    (hn : s.writer_node.get? x.writer = some x.node) : s.tunAddr x.writer = some x.source := by
  have hx := mem_allLinks.mp hx
  unfold nodeLinks at hx
  unfold tunAddr
  rw [hn]
  show (s.nodes.get? x.node).bind _ = _
  cases he : s.nodes.get? x.node with
  | none =>
    rw [he] at hx
    cases hx
  | some ent =>
    rw [he] at hx
    rw [Option.bind_some, Dict.get?_eq_some.mpr hx]
    rfl

theorem handleUdpPayload_icmp {data : Bytes} {f : IcmpFrame} (h : decodeIcmp data = some f)
    (a : Addr) : s.handleUdpPayload data a = s.handleIcmp data a := by
  obtain ⟨hok, hop⟩ := op_of_icmp h
  have hne : udpOp data ≠ U_NODE ∧ udpOp data ≠ U_GAME_P2P := by
    rcases hop with e | e <;> rw [e] <;> decide
  unfold handleUdpPayload
  rw [hok, if_neg (by decide), if_neg hne.1, if_neg hne.2, if_pos hop]

/-- however the link brings it, a ping is handled under the one address -/
theorem step_ping {x : LinkRef} (hx : x ∈ s.allLinks) {data : Bytes} {f : IcmpFrame} {act : RelayAct}
    {a : Addr} (hb : s.Brings x data act a) (hd : decodeIcmp data = some f)
    {r : Relay × List Out} (hr : s.step act = some r) : r = s.handleIcmp data a := by
  rw [← handleUdpPayload_icmp hd]
  cases hb with
  | udp h => exact (Option.some.inj hr).symm
  | tun h =>
    obtain ⟨ip, -, rfl⟩ := Option.map_eq_some_iff.mp hr
    unfold tunFrame
    rw [tunAddr_source hx h]

/-! ## the copies -/

theorem src_lt {data : Bytes} {f : IcmpFrame} (h : decodeIcmp data = some f) : f.src < 4294967296 := by
  have h := (Option.ite_none_right_eq_some.mp h).2
  obtain ⟨src, hs, h⟩ := Option.bind_eq_some_iff.mp h
  obtain ⟨dest, -, h⟩ := Option.bind_eq_some_iff.mp h
  obtain ⟨iid, -, h⟩ := Option.bind_eq_some_iff.mp h
  obtain ⟨seq, -, h⟩ := Option.bind_eq_some_iff.mp h
  rw [← Option.some.inj h]
  exact unpackI_lt hs

theorem nodeByUdpAddr_id (hall : ∀ x ∈ s.allLinks, NodeId x.node) {a : Addr} {m : Nat}
    (h : s.nodeByUdpAddr a = some m) : NodeId m := by
  rcases nodeByUdpAddr_some h with ⟨x, hx, rfl, -⟩ | ⟨-, x, hx, rfl, -⟩
  · exact hall x hx
  · exact hall x hx

/-- the source can be read in a copy -/
theorem encodeIcmp_src {f : IcmpFrame} {m n : Nat} (hm : m < 4294967296) (hn : n < 4294967296)
    (h : encodeIcmp { f with src := m } = encodeIcmp { f with src := n }) : m = n := by
  have hread : ∀ {k}, k < 4294967296 → dtGet32 (encodeIcmp { f with src := k }) 4 = k := by
    intro k hk
    unfold encodeIcmp
    simp only [List.append_assoc]
    exact dtGet32_at hk (UMAGIC ++ [UVER, f.mtype]) _
  rw [← hread hm, h, hread hn]

/-- the copies of a ping that is taken to be from `m` -/
theorem truthful_sent {n m : Nat} {f : IcmpFrame} {a : Addr} (hm : m < 4294967296)
    (hn : n < 4294967296) (h0 : f.dest ≠ 0) (hne : f.dest ≠ m) :
    Truthful n f (s.sendAll (encodeIcmp { f with src := m }) (s.targetsOf f.dest a)) ↔
      m = n ∨ s.Unreached f.dest a := by
  constructor
  · intro ht
    by_contra hno
    rw [not_or] at hno
    obtain ⟨hmn, hreach⟩ := hno
    unfold Unreached at hreach
    push Not at hreach
    obtain ⟨d, hd, hres⟩ := hreach
    obtain ⟨o, ho⟩ := List.exists_mem_of_ne_nil _
      fun hnil : s.udpSendto (encodeIcmp { f with src := m }) d = [] =>
        hres (udpSendto_eq_nil.mp hnil)
    have hmem : o ∈ s.sendAll (encodeIcmp { f with src := m }) (s.targetsOf f.dest a) :=
      List.mem_flatMap.mpr ⟨d, hd, ho⟩
    exact hmn (encodeIcmp_src hm hn ((data_of_sendAll hmem).symm.trans (ht.1 h0 o hmem)))
  · rintro (rfl | hun)
    · exact ⟨fun _ o ho => data_of_sendAll ho, fun e => absurd e hne⟩
    · have hnil : s.sendAll (encodeIcmp { f with src := m }) (s.targetsOf f.dest a) = [] :=
        List.flatMap_eq_nil_iff.mpr fun d hd => udpSendto_eq_nil.mpr (hun d hd)
      rw [hnil]
      exact ⟨fun _ o ho => absurd ho List.not_mem_nil, fun _ => rfl⟩

theorem truthful_nil (n : Nat) (f : IcmpFrame) : Truthful n f [] :=
  ⟨fun _ _ ho => absurd ho List.not_mem_nil, fun _ => rfl⟩

/-- a ping whose source node the relay settles as `m` -/
theorem truthful_icmp {n m : Nat} (hm : m < 4294967296) (hn : NodeId n) {data : Bytes} {f : IcmpFrame}
    {a : Addr} (hd : decodeIcmp data = some f) (hsrc : s.icmpSource a f.src = some m) :
    Truthful n f (s.handleIcmp data a).2 ↔
      m = n ∨ f.dest = 0 ∨ f.dest = m ∨ s.Unreached f.dest a := by
  rw [handleIcmp_out, hd]
  dsimp only
  rw [hsrc]
  dsimp only
  by_cases h0 : f.dest = 0
  · rw [if_pos h0]
    exact iff_of_true ⟨fun h => absurd h0 h, fun e => absurd (e.symm.trans h0) hn.1⟩ (Or.inr (Or.inl h0))
  · rw [if_neg h0]
    by_cases hself : f.dest = m
    · rw [if_pos hself]
      exact iff_of_true (truthful_nil n f) (Or.inr (Or.inr (Or.inl hself)))
    · rw [if_neg hself, truthful_sent hm hn.2 h0 hself, or_iff_right h0, or_iff_right hself]

/-- **When the pings of a link are truthfully attributed.**  A link of node `n` brings a ping, over UDP
or through its control connection; exactly when the relay's look-up of the address gives `n`, or gives
no node and the ping itself claims `n`, or the ping goes nowhere, do all copies carry `n`, and is a
ping to `n` dropped.  In every run the nodes of the links are such that this applies. -/
theorem ping_iff (s : Relay) :
    (∀ token allowed subnet clock tr, Path next (init token allowed subnet clock) tr s →
      ∀ x ∈ s.allLinks, NodeId x.node) ∧
    ((∀ x ∈ s.allLinks, NodeId x.node) →
      ∀ x ∈ s.allLinks, ∀ data act a, s.Brings x data act a → ∀ f, decodeIcmp data = some f →
        ∀ r, s.step act = some r → (Truthful x.node f r.2 ↔ s.Attributed x.node a f)) := by
  refine ⟨fun token allowed subnet clock tr h => nodeId_run h, ?_⟩
  intro hall x hx data act a hb f hd r hr
  have hn := hall x hx
  rw [step_ping hx hb hd hr]
  unfold Attributed
  cases hnode : s.nodeByUdpAddr a with
  | some m =>
    have hsrc : s.icmpSource a f.src = some m := by
      unfold icmpSource
      rw [hnode]
      rfl
    exact truthful_icmp (nodeByUdpAddr_id hall hnode).2 hn hd hsrc
  | none =>
    dsimp only
    by_cases hsrc0 : f.src = 0
    · have hsrc : s.icmpSource a f.src = none := by
        unfold icmpSource
        rw [hnode, hsrc0]
        rfl
      rw [handleIcmp_out, hd]
      dsimp only
      rw [hsrc]
      exact iff_of_true (truthful_nil _ f) (Or.inr (Or.inl hsrc0))
    · have hsrc : s.icmpSource a f.src = some f.src := by
        unfold icmpSource
        rw [hnode, if_neg hsrc0]
        rfl
      rw [truthful_icmp (src_lt hd) hn hd hsrc, or_iff_right hsrc0]

/-- node 1 without an endpoint, node 2 with one -/
def portless : List RelayAct :=
  [.accept 1 "10.0.0.9", .node 1 [3, 0, 0, 0, 0, 0, 1, 0, 0, 0], .udpMode 1,
    .accept 2 "10.0.0.8", .node 2 [3, 0, 0, 0, 0, 0, 2, 0x1E, 0x61, 0]]

/-- node 2 claims to be node 9, over UDP -/
def spoofed : Bytes := [0x56, 0x4E, 3, 5, 0, 0, 0, 9, 0, 0, 0, 1, 0, 1, 0, 1, 65]

theorem ping_spoofed : ∃ s r, run next (init [] [] 0 0) portless = some s ∧
    s.step (.datagram spoofed "10.0.0.8" 7777) = some r ∧
    Truthful 2 ⟨U_ICMP_REQ, 9, 1, 1, 1, [65]⟩ r.2 := by
  have hrun : (run next (init [] [] 0 0) portless).isSome = true := by decide
  obtain ⟨s, hs⟩ := Option.isSome_iff_exists.mp hrun
  have hend : ∀ s ∈ run next (init [] [] 0 0) portless,
      (∃ x ∈ s.allLinks, x.node = 2 ∧ named x (.udp "10.0.0.8" 7777)) ∧
      s.nodeByUdpAddr (.udp "10.0.0.8" 7777) = some 2 := by
    decide
  obtain ⟨⟨x, hx, hnode, hnamed⟩, hlook⟩ := hend s hs
  have hattr : s.Attributed x.node (.udp "10.0.0.8" 7777) ⟨U_ICMP_REQ, 9, 1, 1, 1, [65]⟩ := by
    unfold Attributed
    rw [hlook]
    exact Or.inl hnode.symm
  have hall := (ping_iff s).1 _ _ _ _ _ (path_run hs)
  have ht := ((ping_iff s).2 hall x hx spoofed (.datagram spoofed "10.0.0.8" 7777) _ (.udp hnamed)
    ⟨U_ICMP_REQ, 9, 1, 1, 1, [65]⟩ rfl _ rfl).mpr hattr
  exact ⟨s, _, hs, rfl, hnode ▸ ht⟩

/-- node 1 claims to be node 7, in a ping to node 2 -/
def forged : Bytes := [0x56, 0x4E, 3, 5, 0, 0, 0, 7, 0, 0, 0, 2, 0, 1, 0, 1, 65]

/-- through its control connection it is believed -/
theorem ping_forged : ∃ s, run next (init [] [] 0 0) portless = some s ∧
    ∃ x ∈ s.allLinks, s.Brings x forged (.tun x.writer forged) x.source ∧
      decodeIcmp forged = some ⟨U_ICMP_REQ, 7, 2, 1, 1, [65]⟩ ∧
      ∃ r, s.step (.tun x.writer forged) = some r ∧
        ¬ Truthful x.node ⟨U_ICMP_REQ, 7, 2, 1, 1, [65]⟩ r.2 := by
  have hrun : (run next (init [] [] 0 0) portless).isSome = true := by decide
  obtain ⟨s, hs⟩ := Option.isSome_iff_exists.mp hrun
  have hend : ∀ s ∈ run next (init [] [] 0 0) portless,
      ∃ x ∈ s.allLinks, x.node = 1 ∧ s.writer_node.get? x.writer = some x.node ∧
        ∃ r ∈ s.step (.tun x.writer forged), ∃ o ∈ r.2,
          o.data ≠ encodeIcmp ⟨U_ICMP_REQ, 1, 2, 1, 1, [65]⟩ := by
    decide
  obtain ⟨x, hx, hnode, hw, r, hr, o, ho, hdata⟩ := hend s hs
  refine ⟨s, hs, x, hx, .tun hw, rfl, r, hr, fun ht => hdata ?_⟩
  have h := ht.1 (by decide) o ho
  rw [hnode] at h
  exact h

end Relay

end ShadowLan
