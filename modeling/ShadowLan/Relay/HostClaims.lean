import ShadowLan.Relay.Links

/-!
# Host claims

`NODE_F_HOST` in an accepted `T_NODE` or `U_NODE` says that the game behind the link hosts now.  The
relay stamps the link, and asks the node with the latest stamp first.

* `announced`       the link that an accepted announcement of a host is for;
* `heard`           when a link announced last, read off the run;
* `hostScore`       the latest stamp of the links of a node;
* `Unflagged`       the condition on a step: the flag does not come in a repeated `T_NODE`;
* `recorded_run`    a run of such steps has every stamp that was announced, and no other.

A link that is taken out of the tables forgets what it announced.
-/

namespace ShadowLan
namespace Relay
variable (s : Relay)

/-- the stamp of a link -/
def claim? (n : Nat) (w : Writer) : Option Nat := (s.link? n w).map Link.host_claim

/-- `max` over the links of the node, 0 without one -/
def hostScore (n : Nat) : Nat := ((s.nodeLinks n).map fun x => x.2.host_claim).foldl max 0

/-! ## announcements -/

/-- the link that an accepted `U_NODE` with `NODE_F_HOST` is for -/
def hostDatagram (data : Bytes) (addr : Addr) : Option (Nat × Writer) :=
  if udpHeaderOk data 4 && udpOp data == U_NODE then
    match decodeUdpNode data with
    | none => none
    | some f =>
      if s.tokenOk f.token && isHostFlag f.flags then
        (s.bestLink f.node addr).map fun x => (f.node, x.1)
      else none
  else none

/-- the link that an accepted `T_NODE` with `NODE_F_HOST` is for -/
def hostFrame (w : Writer) (payload : Bytes) : Option (Nat × Writer) :=
  if ctlVer payload = PVER then
    match decodeCtlNode payload with
    | none => none
    | some f =>
      if f.node ≠ 0 ∧ s.letsIn f = true ∧ isHostFlag f.flags = true then some (f.node, w) else none
  else none

def announced : RelayAct → Option (Nat × Writer)
  | .node w payload => s.hostFrame w payload
  | .tun w payload => (s.tunAddr w).bind (s.hostDatagram payload)
  | .datagram data ip port => s.hostDatagram data (.udp ip port)
  | _ => none

/-- what a step does to the time at which link `w` of node `n` announced last -/
def hear (n : Nat) (w : Writer) (c : Nat) (x : Relay × RelayAct) : Nat :=
  match x.1.next x.2 with
  | none => c
  | some t =>
    if t.holds n w then if x.1.announced x.2 = some (n, w) then x.1.clock else c else 0

def heard (n : Nat) (w : Writer) (tr : List (Relay × RelayAct)) : Nat := tr.foldl (hear n w) 0

/-- the stamps say when the links of each node announced last -/
def Recorded (tr : List (Relay × RelayAct)) : Prop :=
  ∀ n, s.hostScore n = ((s.nodeLinks n).map fun x => heard n x.1 tr).foldl max 0

/-- the condition on a step -/
def Unflagged (a : RelayAct) : Prop :=
  match a with
  | .node w payload => ∀ n ∈ (s.hostFrame w payload).map Prod.fst, ¬ s.holds n w
  | _ => True

instance : (a : RelayAct) → Decidable (s.Unflagged a)
  | .node w payload =>
    inferInstanceAs (Decidable (∀ n ∈ (s.hostFrame w payload).map Prod.fst, ¬ s.holds n w))
  | .accept .. | .close _ | .udpMode _ | .tun .. | .gone _ | .datagram .. | .tick _ => isTrue trivial

variable {s} {t : Relay}

/-! ## what the operations do to the stamps -/

theorem claim?_isSome {n : Nat} {w : Writer} : (s.claim? n w).isSome = true ↔ s.holds n w := by
  unfold claim? holds
  rw [Option.isSome_map]

theorem claim?_eq_none {n : Nat} {w : Writer} (h : ¬ s.holds n w) : s.claim? n w = none := by
  rw [← claim?_isSome, Bool.not_eq_true, Option.isSome_eq_false_iff, Option.isNone_iff_eq_none] at h
  exact h

def SameClaims (s t : Relay) : Prop := ∀ n w, t.claim? n w = s.claim? n w

theorem SameClaims.trans {u : Relay} (h : SameClaims s t) (h' : SameClaims t u) : SameClaims s u :=
  fun n w => (h' n w).trans (h n w)

theorem sameClaims_of_nodes (h : t.nodes = s.nodes) : SameClaims s t := fun n w => by
  unfold claim? link?
  rw [h]

theorem link?_updateLink (s : Relay) (nid : Nat) (w : Writer) (f : Link → Link) (n : Nat)
    (v : Writer) : (s.updateLink nid w f).link? n v =
      if n = nid ∧ v = w then (s.link? n v).map f else s.link? n v := by
  unfold link? updateLink
  dsimp only
  rw [Dict.get?_modify]
  by_cases hn : n = nid
  · rw [if_pos hn, hn]
    cases s.nodes.get? nid with
    | none => simp
    | some ent =>
      show (ent.links.modify w f).get? v = if nid = nid ∧ v = w then (ent.links.get? v).map f
        else ent.links.get? v
      rw [Dict.get?_modify]
      by_cases hv : v = w
      · rw [if_pos hv, if_pos ⟨rfl, hv⟩, hv]
      · rw [if_neg hv, if_neg fun h => hv h.2]
  · rw [if_neg hn, if_neg fun h => hn h.1]

theorem sameClaims_updateLink (s : Relay) (nid : Nat) (w : Writer) {f : Link → Link}
    (hf : ∀ l, (f l).host_claim = l.host_claim) : SameClaims s (s.updateLink nid w f) := by
  intro n v
  unfold claim?
  rw [link?_updateLink]
  split
  · rw [Option.map_map]
    exact congrArg (fun g => (s.link? n v).map g) (funext hf)
  · rfl

theorem sameClaims_attach (s : Relay) (nid : Nat) (w : Writer) (a : Addr) :
    SameClaims s (s.attach nid w a) := sameClaims_updateLink s nid w fun _ => rfl

theorem sameClaims_recordUdpProof (s : Relay) (a : Addr) : SameClaims s (s.recordUdpProof a) := by
  have hnote : ∀ u : Relay, SameClaims u (u.noteUdp a) := fun u => sameClaims_of_nodes rfl
  unfold recordUdpProof
  split
  · exact fun _ _ => rfl
  · rename_i node _
    dsimp only
    split
    · exact hnote s
    · split
      · exact hnote s
      · rename_i x _
        exact (sameClaims_attach s node x.1 a).trans (hnote _)

/-! ### datagrams -/

theorem sameClaims_handleP2p (s : Relay) (data : Bytes) (addr : Addr) :
    SameClaims s (s.handleP2p data addr).1 := by
  have hrec := sameClaims_recordUdpProof s addr
  rw [handleP2p_eq]
  cases decodePdat data with
  | none => exact fun _ _ => rfl
  | some p =>
    obtain ⟨dest, g⟩ := p
    dsimp only
    split
    · exact fun _ _ => rfl
    · split
      · exact hrec
      · exact sameClaims_of_nodes (SameLinks.trimFlows _).nodes

/-- only `U_NODE` stamps a link -/
theorem sameClaims_handleUdpPayload {data : Bytes} (h : udpOp data ≠ U_NODE) (addr : Addr) :
    SameClaims s (s.handleUdpPayload data addr).1 := by
  have hrec := sameClaims_recordUdpProof s addr
  unfold handleUdpPayload
  split
  · exact fun _ _ => rfl
  split
  · exact sameClaims_handleP2p s data addr
  split
  · exact sameClaims_of_nodes (handleIcmp_links s data addr).nodes
  split
  · exact hrec.trans (sameClaims_of_nodes (handleS2c_links _ data addr).nodes)
  split
  · exact hrec.trans (sameClaims_of_nodes (handleC2s_links _ data addr).nodes)
  · exact fun _ _ => rfl

theorem bestLink_mem {n : Nat} {a : Addr} {y : Writer × Link} (h : s.bestLink n a = some y) :
    y ∈ s.nodeLinks n := by
  unfold bestLink at h
  rcases Option.or_eq_some_iff.mp h with h | ⟨-, h⟩
  · exact List.mem_of_find?_eq_some h
  rcases Option.or_eq_some_iff.mp h with h | ⟨-, h⟩
  · exact List.mem_of_find?_eq_some h
  rcases Option.or_eq_some_iff.mp h with h | ⟨-, h⟩
  · exact (List.mem_filter.mp (stalest_mem h)).1
  · exact List.mem_of_mem_head? h

/-- a stamped link announces now -/
theorem claim?_stamp (s : Relay) (nid : Nat) (w : Writer) (n : Nat) (v : Writer) :
    (s.updateLink nid w fun l => { l with host_claim := s.clock }).claim? n v =
      if n = nid ∧ v = w then (s.claim? n v).map fun _ => s.clock else s.claim? n v := by
  unfold claim?
  rw [link?_updateLink]
  split
  · rw [Option.map_map, Option.map_map]
    rfl
  · rfl

theorem claim?_handleNode (s : Relay) {data : Bytes} (addr : Addr) (n : Nat) (w : Writer)
    (hh : (udpHeaderOk data 4 && udpOp data == U_NODE) = true) :
    (s.handleNode data addr).claim? n w =
      if s.hostDatagram data addr = some (n, w) then (s.claim? n w).map fun _ => s.clock
      else s.claim? n w := by
  unfold handleNode hostDatagram
  rw [if_pos hh]
  cases decodeUdpNode data with
  | none => rw [if_neg nofun]
  | some f =>
    dsimp only
    by_cases htok : s.tokenOk f.token = true
    · rw [if_neg (by simp [htok])]
      rcases Option.eq_none_or_eq_some (s.bestLink f.node addr) with hb | ⟨x, hb⟩
      · simp [hb]
      · have hnote : ∀ u : Relay, (u.noteUdp addr).claim? n w = u.claim? n w :=
          fun u => sameClaims_of_nodes (t := u.noteUdp addr) rfl n w
        have hatt := sameClaims_attach s f.node x.1 addr n w
        simp only [hb]
        rw [hnote]
        by_cases hf : isHostFlag f.flags = true
        · simp only [htok, hf, Bool.and_self, if_true, Option.map_some, Option.some.injEq,
            Prod.mk.injEq]
          refine (claim?_stamp (s.attach f.node x.1 addr) f.node x.1 n w).trans ?_
          rw [hatt]
          exact if_congr (by simp [eq_comm]) rfl rfl
        · simp only [hf, Bool.and_false, Bool.false_eq_true, if_false, reduceCtorEq]
          exact hatt
    · simp [htok]

theorem claim?_handleUdpPayload (s : Relay) (data : Bytes) (addr : Addr) (n : Nat) (w : Writer) :
    (s.handleUdpPayload data addr).1.claim? n w =
      if s.hostDatagram data addr = some (n, w) then (s.claim? n w).map fun _ => s.clock
      else s.claim? n w := by
  by_cases hh : (udpHeaderOk data 4 && udpOp data == U_NODE) = true
  · rw [← claim?_handleNode s addr n w hh]
    simp only [Bool.and_eq_true, beq_iff_eq] at hh
    unfold handleUdpPayload
    rw [if_neg (by simp [hh.1]), if_pos hh.2]
  · have hno : s.hostDatagram data addr = none := by
      unfold hostDatagram
      rw [if_neg hh]
    rw [hno, if_neg nofun]
    by_cases hop : udpOp data = U_NODE
    · have hbad : udpHeaderOk data 4 = false := by
        simpa [hop] using hh
      unfold handleUdpPayload
      rw [hbad]
      rfl
    · exact sameClaims_handleUdpPayload hop addr n w

/-! ### registrations -/

theorem claim?_prune {n : Nat} {w : Writer} {c : Nat} (h : s.pruneNodes.claim? n w = some c) :
    s.claim? n w = some c := by
  unfold claim? link? at h ⊢
  obtain ⟨l, hl, rfl⟩ := Option.map_eq_some_iff.mp h
  obtain ⟨ent, he, hw⟩ := Option.bind_eq_some_iff.mp hl
  obtain ⟨old, ho, rfl⟩ := pruneNodes_some he
  have hmem := (mem_keptLinks.mp (Dict.get?_eq_some.mp hw)).1
  rw [ho]
  exact Option.map_eq_some_iff.mpr ⟨l, Dict.get?_eq_some.mpr hmem, rfl⟩

theorem claim?_drop {n m : Nat} {w : Writer} {c : Nat} (h : (s.dropNode m).claim? n w = some c) :
    s.claim? n w = some c := by
  unfold claim? link? at h ⊢
  obtain ⟨l, hl, rfl⟩ := Option.map_eq_some_iff.mp h
  obtain ⟨ent, he, hw⟩ := Option.bind_eq_some_iff.mp hl
  rw [(Dict.get?_filter.mp he).1]
  exact Option.map_eq_some_iff.mpr ⟨l, hw, rfl⟩

theorem claim?_add {n m v : Nat} {w : Writer} {c : Nat} (h : (s.addNode m v).claim? n w = some c) :
    s.claim? n w = some c := by
  unfold addNode at h
  unfold claim? link? at h ⊢
  by_cases hn : n = m
  · rw [hn] at h
    dsimp only at h
    rw [Dict.get?_set_self] at h
    cases h
  · dsimp only at h
    rw [Dict.get?_set_of_ne _ _ hn] at h
    exact h

/-- pruning and eviction take links out, stamps and all -/
theorem claim?_newNode {n m : Nat} {w : Writer} {c : Nat} (h : (s.newNode m).1.claim? n w = some c) :
    s.claim? n w = some c := by
  rcases newNode_cases s m with ⟨v, -, heq⟩ | ⟨-, heq, -⟩ | ⟨a, ent, -, -, heq⟩
  · rw [heq] at h
    exact claim?_prune (claim?_add h)
  · rw [heq] at h
    exact claim?_prune h
  · rw [heq] at h
    exact claim?_prune (claim?_drop (claim?_add h))

theorem claim?_teardown {n : Nat} {v w : Writer} {c : Nat} (h : (s.teardown w).claim? n v = some c) :
    s.claim? n v = some c := by
  rcases teardown_nodes s w with ⟨-, heq⟩ | ⟨m, -, heq⟩
  · rw [← sameClaims_of_nodes heq n v]
    exact h
  · unfold claim? link? at h ⊢
    rw [heq, Dict.get?_modify] at h
    by_cases hn : n = m
    · rw [if_pos hn] at h
      rw [hn]
      obtain ⟨l, hl, rfl⟩ := Option.map_eq_some_iff.mp h
      obtain ⟨ent, he, hw⟩ := Option.bind_eq_some_iff.mp hl
      obtain ⟨old, ho, rfl⟩ := Option.map_eq_some_iff.mp he
      have hmem := (Dict.mem_pop.mp (Dict.get?_eq_some.mp hw)).1
      rw [ho]
      exact Option.map_eq_some_iff.mpr ⟨l, Dict.get?_eq_some.mpr hmem, rfl⟩
    · rw [if_neg hn] at h
      exact h

/-- a new link is stamped by its own flag; another registration of the link stamps nothing -/
theorem claim?_join {w : Writer} {ip : String} {f : NodeFrame} {ent : Node}
    (he : s.nodes.get? f.node = some ent) (n : Nat) (v : Writer) :
    (s.join w ip f).claim? n v =
      if n = f.node ∧ v = w ∧ s.claim? n v = none then
        some (if isHostFlag f.flags then s.clock else 0)
      else s.claim? n v := by
  have hjoin : (s.join w ip f).nodes.get? n =
      if n = f.node then some { ent with seen_tcp := s.clock, links := s.newLink w ip f.flags ent.links }
      else s.nodes.get? n := by
    rw [join_nodes, Dict.get?_modify, he]
    rfl
  unfold claim? link?
  rw [hjoin]
  by_cases hn : n = f.node
  · rw [if_pos hn, hn, he]
    show ((s.newLink w ip f.flags ent.links).get? v).map Link.host_claim =
      if f.node = f.node ∧ v = w ∧ (ent.links.get? v).map Link.host_claim = none then _
      else (ent.links.get? v).map Link.host_claim
    unfold newLink
    cases hw : ent.links.get? w with
    | some l =>
      refine (if_neg ?_).symm
      rintro ⟨-, rfl, hnone⟩
      rw [hw] at hnone
      cases hnone
    | none =>
      dsimp only
      by_cases hv : v = w
      · rw [hv, Dict.get?_set_self]
        exact (if_pos ⟨rfl, rfl, by rw [hw]; rfl⟩).symm
      · rw [Dict.get?_set_of_ne _ _ hv]
        exact (if_neg fun h => hv h.2.1).symm
  · rw [if_neg hn, if_neg fun h => hn h.1]

theorem sameClaims_declare (s : Relay) (node : Nat) (w : Writer) (ip : String) (port : Nat) :
    SameClaims s (s.declare node w ip port) := by
  have hip : SameClaims s (s.updateLink node w fun l => { l with tcp_ip := ip }) :=
    sameClaims_updateLink s node w fun _ => rfl
  unfold declare
  dsimp only
  split
  · exact hip
  · split
    · refine hip.trans ?_
      generalize (s.updateLink node w fun l => { l with tcp_ip := ip }) = u
      have hport : SameClaims u (u.updateLink node w fun l => { l with udp_port := port }) :=
        sameClaims_updateLink u node w fun _ => rfl
      exact (hport.trans (sameClaims_attach _ node w _)).trans (sameClaims_of_nodes rfl)
    · exact hip

theorem sameClaims_enter (s : Relay) (w : Writer) (ip : String) (f : NodeFrame) :
    SameClaims (s.join w ip f) (s.enter w ip f) := by
  unfold enter join
  dsimp only
  generalize hu : ({ s with
    nodes := s.nodes.modify f.node fun ent =>
      { ent with seen_tcp := s.clock, links := s.newLink w ip f.flags ent.links } } : Relay) = u
  have hd := sameClaims_declare u f.node w ip f.udpPort
  have hj : SameClaims { u with writer_node := u.writer_node.set w f.node }
      { u.declare f.node w ip f.udpPort with
        writer_node := (u.declare f.node w ip f.udpPort).writer_node.set w f.node } := hd
  rw [← hu] at hj ⊢
  split
  · refine hj.trans ?_
    exact fun n v => sameClaims_updateLink _ f.node w (f := fun l => { l with udp_tcp := true })
      (fun _ => rfl) n v
  · exact hj

/-- an accepted registration, with the tables `u` that it finds when it joins -/
theorem claim?_registered {w : Writer} {ip : String} {f : NodeFrame} (hin : s.letsIn f = true) :
    ∃ u : Relay, (∀ n v c, u.claim? n v = some c → s.claim? n v = some c) ∧
      (s.holds f.node w → u = s) ∧ ∀ n v, (s.registerNode w ip f).1.claim? n v =
        if n = f.node ∧ v = w ∧ u.claim? n v = none then
          some (if isHostFlag f.flags then s.clock else 0)
        else u.claim? n v := by
  obtain ⟨u, ent, hu, he, heq, -⟩ := holds_registered w w ip f.node hin
  have hclock : u.clock = s.clock := by
    rcases hu with rfl | ⟨-, rfl⟩
    · rfl
    · exact (base_newNode s f.node).clock
  refine ⟨u, ?_, ?_, ?_⟩
  · rcases hu with rfl | ⟨-, rfl⟩
    · exact fun _ _ _ h => h
    · exact fun _ _ _ h => claim?_newNode h
  · intro hw
    rcases hu with rfl | ⟨hnone, -⟩
    · rfl
    · obtain ⟨ent, he, -⟩ := holds_iff.mp hw
      rw [hnone] at he
      cases he
  · intro n v
    rw [heq, ← hclock]
    exact (sameClaims_enter u w ip f n v).trans (claim?_join he n v)

/-! ## one step -/

/-- what a step leaves of a stamp: the time, if the link announces; else what it was; 0, if the link
is new -/
def Stamped (s t : Relay) (who : Option (Nat × Writer)) : Prop :=
  ∀ n w c, t.claim? n w = some c →
    if who = some (n, w) then c = s.clock else s.claim? n w = some c ∨ s.claim? n w = none ∧ c = 0

theorem stamped_of_sub (h : ∀ n w c, t.claim? n w = some c → s.claim? n w = some c) :
    Stamped s t none := fun n w c hc => by
  rw [if_neg nofun]
  exact Or.inl (h n w c hc)

theorem stamped_datagram (s : Relay) (data : Bytes) (addr : Addr) :
    Stamped s (s.handleUdpPayload data addr).1 (s.hostDatagram data addr) := by
  intro n w c hc
  rw [claim?_handleUdpPayload] at hc
  split at hc
  next h =>
    rw [if_pos h]
    obtain ⟨_, -, hc⟩ := Option.map_eq_some_iff.mp hc
    exact hc.symm
  next h =>
    rw [if_neg h]
    exact Or.inl hc

theorem stamped_registered {w : Writer} {ip : String} {payload : Bytes} {f : NodeFrame}
    (hv : ctlVer payload = PVER) (hf : decodeCtlNode payload = some f) (h0 : f.node ≠ 0)
    (hin : s.letsIn f = true) (hok : s.Unflagged (.node w payload)) :
    Stamped s (s.registerNode w ip f).1 (s.hostFrame w payload) := by
  have hwho : s.hostFrame w payload = if isHostFlag f.flags then some (f.node, w) else none := by
    unfold hostFrame
    rw [if_pos hv, hf]
    dsimp only
    exact if_congr ⟨fun h => h.2.2, fun h => ⟨h0, hin, h⟩⟩ rfl rfl
  obtain ⟨u, hsub, hsame, hclaim⟩ := claim?_registered hin
  intro n v c hc
  rw [hclaim] at hc
  rw [hwho]
  by_cases hflag : isHostFlag f.flags = true
  · rw [if_pos hflag] at hc ⊢
    -- the flag is there: the link is new, and this is its stamp
    have hnew : ¬ s.holds f.node w := by
      have hx : f.node ∈ (s.hostFrame w payload).map Prod.fst := by
        rw [hwho, if_pos hflag]
        rfl
      exact hok f.node hx
    by_cases hme : n = f.node ∧ v = w
    · obtain ⟨rfl, rfl⟩ := hme
      have hu : u.claim? f.node v = none := by
        rw [Option.eq_none_iff_forall_ne_some]
        intro c' hc'
        exact hnew (claim?_isSome.mp (by rw [hsub _ _ _ hc']; rfl))
      rw [if_pos ⟨rfl, rfl, hu⟩] at hc
      rw [if_pos rfl]
      exact (Option.some.inj hc).symm
    · rw [if_neg fun h => hme ⟨h.1, h.2.1⟩] at hc
      rw [if_neg (by simpa [eq_comm] using fun h1 h2 => hme ⟨h1, h2⟩)]
      exact Or.inl (hsub n v c hc)
  · rw [if_neg hflag] at hc ⊢
    rw [if_neg nofun]
    split at hc
    next h =>
      obtain ⟨rfl, rfl, hnone⟩ := h
      by_cases hold : s.holds f.node v
      · rw [hsame hold] at hnone
        rw [← claim?_isSome, hnone] at hold
        cases hold
      · exact Or.inr ⟨claim?_eq_none hold, (Option.some.inj hc).symm⟩
    next => exact Or.inl (hsub n v c hc)

theorem stamped_nodeFrame {w : Writer} {ip : String} {payload : Bytes}
    (hok : s.Unflagged (.node w payload)) :
    Stamped s (s.nodeFrame w ip payload) (s.hostFrame w payload) := by
  have hgone : ∀ u : Relay, (∀ n v c, u.claim? n v = some c → s.claim? n v = some c) →
      Stamped s (u.teardown w) none :=
    fun u hu => stamped_of_sub fun n v c hc => hu n v c (claim?_teardown hc)
  rcases nodeFrame_cases s w ip payload with ⟨hv, heq⟩ | ⟨hv, hf, heq⟩ | ⟨f, hv, hf, h0, heq⟩
  · have hwho : s.hostFrame w payload = none := if_neg hv
    rw [heq, hwho]
    exact hgone s fun _ _ _ h => h
  · have hwho : s.hostFrame w payload = none := by
      unfold hostFrame
      rw [if_pos hv]
      cases hd : decodeCtlNode payload with
      | none => rfl
      | some f => exact if_neg fun h => h.1 (hf f hd)
    rw [heq, hwho]
    exact stamped_of_sub fun _ _ _ h => h
  · rw [heq, registerNode_ok]
    cases hin : s.letsIn f with
    | true => exact stamped_registered hv hf h0 hin hok
    | false =>
      have hwho : s.hostFrame w payload = none := by
        unfold hostFrame
        rw [if_pos hv, hf]
        exact if_neg (by simp [hin])
      rw [hwho]
      refine hgone _ ?_
      have hno := (registerNode_ok s w ip f).trans hin
      rcases registerNode_cases s w ip f with ⟨-, hr⟩ | ⟨-, -, hr⟩ | ⟨-, -, hr⟩
      · rw [hr]
        exact fun _ _ _ h => h
      · rw [hr] at hno
        cases hno
      · rw [hr] at hno ⊢
        by_cases hn : (s.newNode f.node).2 = true
        · rw [if_pos hn] at hno
          cases hno
        · rw [if_neg hn]
          exact fun _ _ _ h => claim?_newNode h

/-- **A step stamps the link that announces, and no other.** -/
theorem stamped_next {a : RelayAct} (hok : s.Unflagged a) (hst : s.next a = some t) :
    Stamped s t (s.announced a) := by
  unfold next at hst
  obtain ⟨r, hr, rfl⟩ := Option.map_eq_some_iff.mp hst
  cases a with
  | accept w ip =>
    obtain ⟨-, hr⟩ := Option.ite_none_right_eq_some.mp hr
    rw [← Option.some.inj hr]
    exact stamped_of_sub fun _ _ _ h => h
  | close w =>
    obtain ⟨ip, -, rfl⟩ := Option.map_eq_some_iff.mp hr
    exact stamped_of_sub fun _ _ _ h => h
  | node w payload =>
    obtain ⟨ip, -, rfl⟩ := Option.map_eq_some_iff.mp hr
    exact stamped_nodeFrame hok
  | udpMode w =>
    obtain ⟨ip, -, rfl⟩ := Option.map_eq_some_iff.mp hr
    refine stamped_of_sub fun n v c hc => ?_
    unfold udpMode at hc
    dsimp only at hc
    split at hc
    · exact hc
    · rename_i node _
      rw [← hc]
      exact (sameClaims_updateLink { s with
        udp_tcp := if w ∈ s.udp_tcp then s.udp_tcp else s.udp_tcp ++ [w] } node w
        (f := fun l => { l with udp_tcp := true }) (fun _ => rfl) n v).symm
  | tun w payload =>
    obtain ⟨ip, -, rfl⟩ := Option.map_eq_some_iff.mp hr
    show Stamped s (s.tunFrame w payload).1 ((s.tunAddr w).bind (s.hostDatagram payload))
    unfold tunFrame
    cases s.tunAddr w with
    | none => exact stamped_of_sub fun _ _ _ h => h
    | some addr => exact stamped_datagram s payload addr
  | gone w =>
    obtain ⟨ip, -, rfl⟩ := Option.map_eq_some_iff.mp hr
    exact stamped_of_sub fun _ _ _ hc => claim?_teardown hc
  | datagram data ip port =>
    rw [← Option.some.inj hr]
    exact stamped_datagram s data (.udp ip port)
  | tick d =>
    rw [← Option.some.inj hr]
    exact stamped_of_sub fun _ _ _ h => h

/-! ## every run -/

theorem heard_snoc (n : Nat) (w : Writer) (tr : List (Relay × RelayAct)) (u : Relay) (a : RelayAct) :
    heard n w (tr ++ [(u, a)]) = hear n w (heard n w tr) (u, a) := by
  unfold heard
  rw [List.foldl_append]
  rfl

/-- each link has the stamp of its own latest announcement -/
theorem claim?_run {token : Bytes} {allowed : List Nat} {subnet clock : Nat}
    {tr : List (Relay × RelayAct)} {s : Relay}
    (h : Path next (init token allowed subnet clock) tr s) (hok : ∀ x ∈ tr, x.1.Unflagged x.2)
    (n : Nat) (w : Writer) : (s.claim? n w).getD 0 = heard n w tr := by
  induction h generalizing n w with
  | nil => rfl
  | @snoc tr u t a hp hl ih =>
    have ih' := ih (fun x hx => hok x (List.mem_append_left _ hx)) n w
    have hstep := stamped_next (hok _ (List.mem_append_right _ List.mem_cons_self)) hl n w
    rw [heard_snoc, ← ih']
    unfold hear
    dsimp only
    rw [hl]
    dsimp only
    by_cases hw : t.holds n w
    · obtain ⟨c, hc⟩ := Option.isSome_iff_exists.mp (claim?_isSome.mpr hw)
      have hx := hstep c hc
      rw [if_pos hw, hc]
      split at hx
      next h => rw [if_pos h]; exact hx
      next h =>
        rw [if_neg h]
        rcases hx with hx | ⟨hx, rfl⟩
        · rw [hx]
        · rw [hx]
          rfl
    · rw [if_neg hw, claim?_eq_none hw]
      rfl

theorem claim?_of_mem {n : Nat} {x : Writer × Link} (h : x ∈ s.nodeLinks n) :
    s.claim? n x.1 = some x.2.host_claim := by
  unfold nodeLinks at h
  unfold claim? link?
  cases hn : s.nodes.get? n with
  | none =>
    rw [hn] at h
    cases h
  | some ent =>
    rw [hn] at h
    show (ent.links.get? x.1).map Link.host_claim = _
    rw [Dict.get?_eq_some.mpr h]
    rfl

/-- **Host claims are recorded.**  When no repeated `T_NODE` carries the flag, the latest stamp of a
node's links is the time of the latest announcement on a link that is still there. -/
theorem recorded_run {token : Bytes} {allowed : List Nat} {subnet clock : Nat}
    {tr : List (Relay × RelayAct)} {s : Relay}
    (h : Path next (init token allowed subnet clock) tr s) (hok : ∀ x ∈ tr, x.1.Unflagged x.2) :
    s.Recorded tr := by
  intro n
  unfold hostScore
  congr 1
  apply List.map_congr_left
  intro x hx
  rw [← claim?_run h hok n x.1, claim?_of_mem hx]
  rfl

/-- a node joins and hosts from the first frame on; later its `U_NODE` says so again -/
def hostsEarly : List RelayAct :=
  [.tick 5, .accept 1 "10.0.0.9", .node 1 [3, 0, 0, 0, 0, 0, 1, 0x13, 0x88, 1], .tick 7,
    .datagram [0x56, 0x4E, 3, 4, 0, 0, 0, 0, 0, 1, 0x13, 0x88, 1] "10.0.0.9" 5000]

theorem recorded_hostsEarly : ∃ s, run next (init [] [] 0 0) hostsEarly = some s ∧
    s.hostScore 1 = 12 ∧ s.Recorded (trace next (init [] [] 0 0) hostsEarly) := by
  have hrun : (run next (init [] [] 0 0) hostsEarly).isSome = true := by decide
  obtain ⟨s, hs⟩ := Option.isSome_iff_exists.mp hrun
  have hok : ∀ x ∈ trace next (init [] [] 0 0) hostsEarly, x.1.Unflagged x.2 := by decide
  have hend : ∀ s ∈ run next (init [] [] 0 0) hostsEarly, s.hostScore 1 = 12 := by decide
  exact ⟨s, hs, hend s hs, recorded_run (path_run hs) hok⟩

/-- a node joins, and its game calls `listen` later -/
def hostsLate : List RelayAct :=
  [.tick 5, .accept 1 "10.0.0.9", .node 1 [3, 0, 0, 0, 0, 0, 1, 0x13, 0x88, 0], .tick 7,
    .node 1 [3, 0, 0, 0, 0, 0, 1, 0x13, 0x88, 1]]

/-- the link is registered already, and its flag is lost -/
theorem hostsLate_unstamped : ∃ s, run next (init [] [] 0 0) hostsLate = some s ∧
    s.hostScore 1 = 0 ∧ heard 1 1 (trace next (init [] [] 0 0) hostsLate) = 12 ∧
    ¬ s.Recorded (trace next (init [] [] 0 0) hostsLate) := by
  have hrun : (run next (init [] [] 0 0) hostsLate).isSome = true := by decide
  obtain ⟨s, hs⟩ := Option.isSome_iff_exists.mp hrun
  have hend : ∀ s ∈ run next (init [] [] 0 0) hostsLate, s.hostScore 1 = 0 ∧
      heard 1 1 (trace next (init [] [] 0 0) hostsLate) = 12 ∧
      ((s.nodeLinks 1).map fun x => heard 1 x.1 (trace next (init [] [] 0 0) hostsLate)).foldl max 0
        = 12 := by
    decide
  obtain ⟨h1, h2, h3⟩ := hend s hs
  refine ⟨s, hs, h1, h2, fun h => ?_⟩
  have hx := h 1
  rw [h1, h3] at hx
  cases hx

end Relay

end ShadowLan
