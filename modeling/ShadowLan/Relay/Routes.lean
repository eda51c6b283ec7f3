import ShadowLan.Relay.Datagram

/-!
# Where names lead

A link has up to three names: the endpoint recorded for it, the endpoint it declared, and
`("tcp", id(writer))`.  `leads s ep d x` says that `udpSendto` transmits to the link `x` when it is
given the name `d`, by a plain send to an endpoint of the link or by a frame on its control
connection.  Which UDP addresses count as endpoints of a link is left open: `ep x a`, for example
`recorded` (the one heard from last) or `named` (also the one it declared).

* `reached_iff`            the transmission for `d` reaches `x` iff `d` leads to `x`;
* `SameLinks`              what keeps all lookups: the same nodes, writers and clock;
* `recordUdpProof_keeps`   a datagram from a recorded endpoint changes no link;
* `mem_fanOut`, `mem_targetsOf`   the destinations of a branch, by membership;
* `handleC2s_out`, ...     what a branch transmits, in terms of the tables before it.
-/

namespace ShadowLan

/-- the UDP address last heard from is the link's endpoint -/
def recorded (x : LinkRef) (a : Addr) : Prop := x.link.udp_addr = some a

/-- so is the one that it declared -/
def named (x : LinkRef) (a : Addr) : Prop := x.link.udp_addr = some a ∨ x.link.declared = some a

instance (x : LinkRef) (a : Addr) : Decidable (recorded x a) :=
  inferInstanceAs (Decidable (_ = _))

instance (x : LinkRef) (a : Addr) : Decidable (named x a) :=
  inferInstanceAs (Decidable (_ ∨ _))

/-- a transmission that arrives at the link: on its control connection, or at an endpoint of it -/
def Out.reaches (ep : LinkRef → Addr → Prop) (x : LinkRef) : Out → Prop
  | .tun w _ => w = x.writer
  | .sendto _ a => ep x a

instance (ep : LinkRef → Addr → Prop) [∀ x a, Decidable (ep x a)] (x : LinkRef) :
    DecidablePred (Out.reaches ep x)
  | .tun w _ => inferInstanceAs (Decidable (w = x.writer))
  | .sendto _ a => inferInstanceAs (Decidable (ep x a))

/-- the name under which the relay handles what comes from the link -/
def LinkRef.source (x : LinkRef) : Addr := x.link.udp_addr.getD (.tcp x.writer)

theorem Link.declared_ne_tcp (l : Link) (w : Writer) : l.declared ≠ some (.tcp w) := by
  unfold Link.declared
  split <;> simp

namespace Relay
variable {s t : Relay} {ep : LinkRef → Addr → Prop}

def leads (s : Relay) (ep : LinkRef → Addr → Prop) (d : Addr) (x : LinkRef) : Prop :=
  match d with
  | .tcp w => w = x.writer ∧ s.isClosing w = false
  | .udp _ _ =>
    match s.carrier d with
    | some w => w = x.writer
    | none => ep x d

/-! ## lookups -/

theorem mem_allLinks {x : LinkRef} : x ∈ s.allLinks ↔ (x.writer, x.link) ∈ s.nodeLinks x.node := by
  unfold allLinks nodeLinks
  rw [List.mem_flatMap]
  constructor
  · rintro ⟨e, he, hx⟩
    obtain ⟨y, hy, rfl⟩ := List.mem_map.mp hx
    rw [Dict.get?_eq_some.mpr he]
    exact hy
  · intro h
    cases hg : s.nodes.get? x.node with
    | none => rw [hg] at h; cases h
    | some ent =>
      rw [hg] at h
      exact ⟨(x.node, ent), Dict.get?_eq_some.mp hg, List.mem_map.mpr ⟨_, h, rfl⟩⟩

theorem isLink_of_mem {x : LinkRef} (hx : x ∈ s.allLinks) : s.isLink x.writer = true :=
  List.any_eq_true.mpr ⟨x, hx, by simp⟩

/-- the node of an endpoint has a link with it; the declared endpoints count only when no link has
it recorded -/
theorem nodeByUdpAddr_some {addr : Addr} {nid : Nat} (h : s.nodeByUdpAddr addr = some nid) :
    (∃ x ∈ s.allLinks, x.node = nid ∧ x.link.udp_addr = some addr) ∨
    ((∀ x ∈ s.allLinks, x.link.udp_addr ≠ some addr) ∧
      ∃ x ∈ s.allLinks, x.node = nid ∧ x.link.declared = some addr) := by
  unfold nodeByUdpAddr at h
  split at h
  next x hx =>
    obtain ⟨hm, hp, _⟩ := freshest_some hx
    exact Or.inl ⟨x, hm, Option.some.inj h, by simpa using hp⟩
  next hn =>
    obtain ⟨x, hx, hnid⟩ := Option.map_eq_some_iff.mp h
    have hdecl := List.find?_some hx
    refine Or.inr ⟨?_, x, List.mem_of_find?_eq_some hx, hnid, by simpa using hdecl⟩
    intro y hy
    have hno := freshest_eq_none.mp hn y hy
    simpa using hno

/-! ## what a name leads to -/

theorem reached_iff (data : Bytes) (d : Addr) {x : LinkRef} (hx : x ∈ s.allLinks) :
    (∃ o ∈ s.udpSendto data d, o.reaches ep x) ↔ s.leads ep d x := by
  cases d with
  | tcp w =>
    show (∃ o ∈ if (s.isLink w && !s.isClosing w) = true then [Out.tun w data] else [],
      o.reaches ep x) ↔ w = x.writer ∧ s.isClosing w = false
    by_cases hw : w = x.writer
    · rw [hw, isLink_of_mem hx]
      cases s.isClosing x.writer <;> simp [Out.reaches]
    · cases s.isLink w <;> cases s.isClosing w <;> simp [Out.reaches, hw]
  | udp ip port =>
    unfold udpSendto leads
    cases s.carrier (.udp ip port) <;> simp [Out.reaches]

theorem sendAll_reached_iff (data : Bytes) (addrs : List Addr) {x : LinkRef}
    (hx : x ∈ s.allLinks) :
    (∃ o ∈ s.sendAll data addrs, o.reaches ep x) ↔ ∃ d ∈ addrs, s.leads ep d x := by
  unfold sendAll
  constructor
  · rintro ⟨o, ho, hr⟩
    obtain ⟨d, hd, ho⟩ := List.mem_flatMap.mp ho
    exact ⟨d, hd, (reached_iff data d hx).mp ⟨o, ho, hr⟩⟩
  · rintro ⟨d, hd, hl⟩
    obtain ⟨o, ho, hr⟩ := (reached_iff data d hx).mpr hl
    exact ⟨o, List.mem_flatMap.mpr ⟨d, hd, ho⟩, hr⟩

/-! ## frames -/

/-- the tables that the lookups of nodes and links read are the same -/
structure SameLinks (s t : Relay) : Prop where
  nodes : t.nodes = s.nodes
  closing : t.closing = s.closing
  clock : t.clock = s.clock

namespace SameLinks

theorem refl (s : Relay) : SameLinks s s := ⟨rfl, rfl, rfl⟩

theorem trans {u : Relay} (h : SameLinks s t) (h' : SameLinks t u) : SameLinks s u :=
  ⟨h'.nodes.trans h.nodes, h'.closing.trans h.closing, h'.clock.trans h.clock⟩

theorem noteUdp (s : Relay) (a : Addr) : SameLinks s (s.noteUdp a) := ⟨rfl, rfl, rfl⟩

theorem setFlow (s : Relay) (tag : DestTag) (k : Triple) (p : Addr) :
    SameLinks s (s.setFlow tag k p) := ⟨rfl, rfl, rfl⟩

theorem setFlows (k : Triple) (p : Addr) (dests : List Addr) (s : Relay) :
    SameLinks s (dests.foldl (fun s dst => s.setFlow (.a dst) k p) s) := by
  induction dests generalizing s with
  | nil => exact refl s
  | cons d ds ih => exact (setFlow s (.a d) k p).trans (ih _)

theorem touchFlow (s : Relay) (k : DestTag × Triple) (p : Addr) : SameLinks s (s.touchFlow k p) :=
  ⟨rfl, rfl, rfl⟩

theorem trimFlows (s : Relay) : SameLinks s s.trimFlows := by
  unfold Relay.trimFlows
  split
  · exact ⟨rfl, rfl, rfl⟩
  · exact refl s

theorem learn (s : Relay) (p : Addr) (gport : Nat) (r : Addr) : SameLinks s (s.learn p gport r) :=
  ⟨rfl, rfl, rfl⟩

theorem udpTargets (s : Relay) (gport : Nat) (src : Addr) :
    SameLinks s (s.udpTargets gport src).1 := by
  unfold Relay.udpTargets
  split
  · exact refl s
  · exact ⟨rfl, rfl, rfl⟩

variable (h : SameLinks s t)
include h

theorem allLinks : t.allLinks = s.allLinks := by unfold Relay.allLinks; rw [h.nodes]

theorem nodeLinks : t.nodeLinks = s.nodeLinks := by
  funext nid
  unfold Relay.nodeLinks
  rw [h.nodes]

theorem isClosing : t.isClosing = s.isClosing := by
  funext w
  unfold Relay.isClosing
  rw [h.closing]

theorem nodeByUdpAddr : t.nodeByUdpAddr = s.nodeByUdpAddr := by
  funext a
  unfold Relay.nodeByUdpAddr
  rw [h.allLinks]

theorem carrier : t.carrier = s.carrier := by
  funext a
  unfold Relay.carrier Relay.linkWriterForAddr
  rw [h.nodeByUdpAddr, h.nodeLinks, h.isClosing]

theorem udpSendto : t.udpSendto = s.udpSendto := by
  funext data a
  unfold Relay.udpSendto Relay.isLink
  rw [h.allLinks, h.isClosing, h.carrier]

theorem sendAll : t.sendAll = s.sendAll := by
  funext data l
  unfold Relay.sendAll
  rw [h.udpSendto]

theorem leads : t.leads = s.leads := by
  funext ep d x
  unfold Relay.leads
  rw [h.isClosing, h.carrier]

theorem targetsOf : t.targetsOf = s.targetsOf := by
  funext nid src
  unfold Relay.targetsOf Relay.nodeUdpAddrs Relay.linkEndpoint Relay.isFresh
  rw [h.nodeLinks, h.clock]

end SameLinks

/-! ## noting the source -/

/-- the tables differ in the time at which `a` was last heard from, and in nothing else -/
structure Noted (a : Addr) (s t : Relay) : Prop where
  same : SameLinks s t
  known : ∀ d, d ≠ a → t.known_udp.get? d = s.known_udp.get? d
  learned : t.learned = s.learned
  flows : t.udp_flows = s.udp_flows
  allowed : t.allowed_udp = s.allowed_udp

theorem Noted.refl (a : Addr) (s : Relay) : Noted a s s :=
  ⟨.refl s, fun _ _ => rfl, rfl, rfl, rfl⟩

theorem noted_noteUdp (a : Addr) (s : Relay) : Noted a s (s.noteUdp a) :=
  ⟨.noteUdp s a, fun _ hd => Dict.get?_set_of_ne _ _ hd, rfl, rfl, rfl⟩

theorem Noted.trans {u : Relay} {a : Addr} (h : Noted a s t) (h' : Noted a t u) : Noted a s u :=
  ⟨h.same.trans h'.same, fun d hd => (h'.known d hd).trans (h.known d hd),
    h'.learned.trans h.learned, h'.flows.trans h.flows, h'.allowed.trans h.allowed⟩

/-- **A recorded endpoint stays where it is.**  A proof of life from an address that some link has
recorded, or from a link without an endpoint, changes no link. -/
theorem recordUdpProof_keeps {a : Addr}
    (h : (∃ x ∈ s.allLinks, x.link.udp_addr = some a) ∨ ∃ w, a = .tcp w) :
    Noted a s (s.recordUdpProof a) := by
  unfold recordUdpProof
  cases hn : s.nodeByUdpAddr a with
  | none => exact .refl a s
  | some nid =>
    have hrec : ∃ x ∈ s.nodeLinks nid, x.2.udp_addr = some a := by
      rcases nodeByUdpAddr_some hn with ⟨x, hx, rfl, ha⟩ | ⟨hno, x, _, _, hd⟩
      · exact ⟨(x.writer, x.link), mem_allLinks.mp hx, ha⟩
      · rcases h with ⟨y, hy, ha⟩ | ⟨w, rfl⟩
        · exact absurd ha (hno y hy)
        · exact absurd hd (x.link.declared_ne_tcp w)
    have hany : ((s.nodeLinks nid).any fun x => decide (x.2.udp_addr = some a)) = true := by
      obtain ⟨x, hx, ha⟩ := hrec
      exact List.any_eq_true.mpr ⟨x, hx, by simpa using ha⟩
    show Noted a s (if ((s.nodeLinks nid).any fun x => decide (x.2.udp_addr = some a)) = true then
      s.noteUdp a else _)
    rw [if_pos hany]
    exact noted_noteUdp a s

theorem recordUdpProof_source {x : LinkRef} (hx : x ∈ s.allLinks) :
    Noted x.source s (s.recordUdpProof x.source) := by
  apply recordUdpProof_keeps
  unfold LinkRef.source
  cases ha : x.link.udp_addr with
  | none => exact Or.inr ⟨x.writer, rfl⟩
  | some a => exact Or.inl ⟨x, hx, ha⟩

/-! ## destinations -/

theorem mem_targetsOf {nid : Nat} {src d : Addr} :
    d ∈ s.targetsOf nid src ↔
      d ≠ src ∧ ∃ x ∈ s.nodeLinks nid, s.linkEndpoint x.1 x.2 = some d := by
  unfold targetsOf nodeUdpAddrs
  rw [List.mem_filter, mem_collect, List.mem_filterMap, decide_eq_true_iff]
  simp [and_comm]

/-- heard from within `KNOWN_TTL` -/
def knownFresh (s : Relay) (d : Addr) : Prop :=
  ∃ seen, s.known_udp.get? d = some seen ∧ s.isFresh seen KNOWN_TTL = true

/-- the connection is in UDP-over-TCP mode -/
def tcpMode (s : Relay) (w : Writer) : Prop :=
  ∃ x ∈ s.allLinks, x.writer = w ∧ x.link.udp_tcp = true

theorem mem_fanOut {src d : Addr} :
    d ∈ s.fanOut src ↔ d ≠ src ∧ (s.knownFresh d ∨ ∃ w, d = .tcp w ∧ s.tcpMode w) := by
  unfold fanOut knownFresh tcpMode
  rw [mem_collect]
  constructor
  · rintro (h | h)
    · obtain ⟨e, he, rfl⟩ := List.mem_map.mp h
      obtain ⟨hm, hp⟩ := List.mem_filter.mp he
      rw [Bool.and_eq_true, decide_eq_true_iff] at hp
      exact ⟨hp.1, Or.inl ⟨e.2, Dict.get?_eq_some.mpr hm, hp.2⟩⟩
    · obtain ⟨x, hx, rfl⟩ := List.mem_map.mp h
      obtain ⟨hm, hp⟩ := List.mem_filter.mp hx
      rw [Bool.and_eq_true, decide_eq_true_iff] at hp
      exact ⟨hp.2, Or.inr ⟨x.writer, rfl, x, hm, rfl, hp.1⟩⟩
  · rintro ⟨hne, ⟨seen, hs, hf⟩ | ⟨w, rfl, x, hx, rfl, ht⟩⟩
    · refine Or.inl (List.mem_map.mpr ⟨(d, seen), List.mem_filter.mpr ⟨?_, ?_⟩, rfl⟩)
      · exact Dict.get?_eq_some.mp hs
      · rw [Bool.and_eq_true, decide_eq_true_iff]
        exact ⟨hne, hf⟩
    · refine Or.inr (List.mem_map.mpr ⟨x, List.mem_filter.mpr ⟨hx, ?_⟩, rfl⟩)
      rw [Bool.and_eq_true, decide_eq_true_iff]
      exact ⟨ht, hne⟩

theorem Noted.flowFor {a : Addr} (h : Noted a s t) : t.flowFor = s.flowFor := by
  funext addr k
  unfold Relay.flowFor isFresh
  rw [h.flows, h.same.clock, h.same.nodeByUdpAddr]

/-! ## one link changes -/

theorem nodeLinks_updateLink (s : Relay) (nid : Nat) (w : Writer) (f : Link → Link) {n : Nat}
    {x : Writer × Link} : x ∈ (s.updateLink nid w f).nodeLinks n ↔
      (n = nid ∧ ∃ l, (w, l) ∈ s.nodeLinks nid ∧ x = (w, f l)) ∨
        ((n = nid → x.1 ≠ w) ∧ x ∈ s.nodeLinks n) := by
  unfold nodeLinks updateLink
  dsimp only
  rw [Dict.get?_modify]
  by_cases hn : n = nid
  · rw [if_pos hn, hn]
    cases s.nodes.get? nid with
    | none => simp
    | some ent =>
      show x ∈ (ent.links.modify w f).items ↔ _
      rw [Dict.mem_modify]
      simp [and_comm]
  · rw [if_neg hn]
    simp [hn]

/-- the destinations that a proof of life of the source could add are the source itself -/
theorem targetsOf_recordUdpProof {nid : Nat} {a d : Addr}
    (h : d ∈ (s.recordUdpProof a).targetsOf nid a) : d ∈ s.targetsOf nid a := by
  have hnote : ∀ t : Relay, (t.noteUdp a).targetsOf nid a = t.targetsOf nid a := fun t => by
    rw [(SameLinks.noteUdp t a).targetsOf]
  unfold recordUdpProof at h
  split at h
  next => exact h
  next node _ =>
    dsimp only at h
    split at h
    next => rw [hnote] at h; exact h
    next =>
      split at h
      next => rw [hnote] at h; exact h
      next x _ =>
        rw [hnote] at h
        obtain ⟨hd, y, hy, he⟩ := mem_targetsOf.mp h
        refine mem_targetsOf.mpr ⟨hd, ?_⟩
        rcases (nodeLinks_updateLink s node x.1 _).mp hy with ⟨hn, l, hl, rfl⟩ | ⟨_, hy⟩
        · -- the link that got the endpoint: its new name is the source, or it is a tunnel
          refine ⟨(x.1, l), by rw [hn]; exact hl, ?_⟩
          unfold linkEndpoint at he ⊢
          dsimp only at he ⊢
          by_cases ht : l.udp_tcp = true
          · rw [if_pos ht] at he ⊢
            exact he
          · have hfresh : (s.attach node x.1 a).isFresh s.clock KNOWN_TTL = true := by
              simp [isFresh, attach, updateLink, KNOWN_TTL]
            rw [if_neg ht, hfresh] at he
            exact absurd (Option.some.inj he).symm hd
        · exact ⟨y, hy, he⟩

/-- which connections are in UDP-over-TCP mode is no matter of endpoints -/
theorem tcpMode_attach (s : Relay) (nid : Nat) (w v : Writer) (a : Addr) :
    (s.attach nid w a).tcpMode v ↔ s.tcpMode v := by
  unfold tcpMode attach
  constructor
  · rintro ⟨y, hy, hv, ht⟩
    rcases (nodeLinks_updateLink s nid w _).mp (mem_allLinks.mp hy) with ⟨hn, l, hl, he⟩ | ⟨_, hy⟩
    · obtain ⟨hw, hlink⟩ := Prod.mk.inj he
      exact ⟨⟨nid, w, l⟩, mem_allLinks.mpr hl, hw ▸ hv, by rw [hlink] at ht; exact ht⟩
    · exact ⟨y, mem_allLinks.mpr hy, hv, ht⟩
  · rintro ⟨y, hy, hv, ht⟩
    by_cases hown : y.node = nid ∧ y.writer = w
    · obtain ⟨hn, hw⟩ := hown
      have hl := mem_allLinks.mp hy
      rw [hn, hw] at hl
      refine ⟨⟨nid, w, { y.link with udp_addr := some a, seen_udp := s.clock }⟩, ?_, hw ▸ hv, ht⟩
      exact mem_allLinks.mpr ((nodeLinks_updateLink s nid w _).mpr (Or.inl ⟨rfl, y.link, hl, rfl⟩))
    · refine ⟨y, mem_allLinks.mpr ((nodeLinks_updateLink s nid w _).mpr (Or.inr ⟨?_, ?_⟩)), hv, ht⟩
      · exact fun hn hw => hown ⟨hn, hw⟩
      · exact mem_allLinks.mp hy

/-- what a proof of life leaves as it is, whatever link gets the endpoint -/
structure Heard (a : Addr) (s t : Relay) : Prop where
  clock : t.clock = s.clock
  closing : t.closing = s.closing
  known : ∀ d, d ≠ a → t.known_udp.get? d = s.known_udp.get? d
  learned : t.learned = s.learned
  flows : t.udp_flows = s.udp_flows
  allowed : t.allowed_udp = s.allowed_udp
  tcpMode : ∀ w, t.tcpMode w ↔ s.tcpMode w

theorem Noted.heard {a : Addr} (h : Noted a s t) : Heard a s t :=
  ⟨h.same.clock, h.same.closing, h.known, h.learned, h.flows, h.allowed, fun w => by
    unfold Relay.tcpMode
    rw [h.same.allLinks]⟩

theorem Heard.trans {u : Relay} {a : Addr} (h : Heard a s t) (h' : Heard a t u) : Heard a s u :=
  ⟨h'.clock.trans h.clock, h'.closing.trans h.closing,
    fun d hd => (h'.known d hd).trans (h.known d hd), h'.learned.trans h.learned,
    h'.flows.trans h.flows, h'.allowed.trans h.allowed,
    fun w => (h'.tcpMode w).trans (h.tcpMode w)⟩

theorem heard_attach (s : Relay) (nid : Nat) (w : Writer) (a : Addr) :
    Heard a s (s.attach nid w a) :=
  ⟨rfl, rfl, fun _ _ => rfl, rfl, rfl, rfl, fun v => tcpMode_attach s nid w v a⟩

theorem heard_recordUdpProof (s : Relay) (a : Addr) : Heard a s (s.recordUdpProof a) := by
  have hnote : Heard a s (s.noteUdp a) := (noted_noteUdp a s).heard
  unfold recordUdpProof
  split
  · exact (Noted.refl a s).heard
  · dsimp only
    split
    · exact hnote
    · split
      · exact hnote
      · exact (heard_attach s _ _ a).trans (noted_noteUdp a _).heard

theorem Heard.sticky {a : Addr} (h : Heard a s t) : t.sticky = s.sticky := by
  funext gport src
  unfold Relay.sticky isFresh
  rw [h.learned, h.clock]

theorem Heard.portAllowed {a : Addr} (h : Heard a s t) : t.portAllowed = s.portAllowed := by
  funext gport
  unfold Relay.portAllowed
  rw [h.allowed]

theorem Heard.knownFresh {a d : Addr} (h : Heard a s t) (hd : d ≠ a) :
    t.knownFresh d ↔ s.knownFresh d := by
  unfold Relay.knownFresh isFresh
  rw [h.known d hd, h.clock]

theorem Heard.mem_fanOut {a d : Addr} (h : Heard a s t) : d ∈ t.fanOut a ↔ d ∈ s.fanOut a := by
  rw [Relay.mem_fanOut, Relay.mem_fanOut]
  refine and_congr_right fun hd => ?_
  rw [h.knownFresh hd]
  simp only [h.tcpMode]

/-! ## what each branch transmits -/

theorem handleC2s_out (s : Relay) (data : Bytes) (src : Addr) :
    (s.handleC2s data src).2 =
      match decodeUdpGame data with
      | none => []
      | some g =>
        if s.portAllowed g.triple.gport then
          s.sendAll data ((s.noteUdp src).udpTargets g.triple.gport src).2
        else [] := by
  unfold handleC2s
  cases decodeUdpGame data with
  | none => rfl
  | some g =>
    dsimp only
    by_cases hp : s.portAllowed g.triple.gport = true
    · rw [if_neg (by simp [hp]), if_pos hp]
      split
      next hd => rw [hd]; rfl
      next =>
        have hsame := (((SameLinks.noteUdp s src).trans
          (SameLinks.udpTargets (s.noteUdp src) g.triple.gport src)).trans
          (SameLinks.setFlows g.triple src ((s.noteUdp src).udpTargets g.triple.gport src).2 _)).trans
          (SameLinks.trimFlows _)
        exact congrFun (congrFun hsame.sendAll _) _
    · rw [if_pos (by simp [hp]), if_neg hp]

/-- the second look at the destinations, after the proof of life, never finds one -/
theorem handleP2p_eq (s : Relay) (data : Bytes) (src : Addr) :
    s.handleP2p data src =
      match decodePdat data with
      | none => (s, [])
      | some (dest, g) =>
        if !s.portAllowed g.triple.gport then (s, [])
        else if s.targetsOf dest src = [] then (s.recordUdpProof src, [])
        else
          let t := ((s.noteUdp src).setFlow (.n dest) g.triple src).trimFlows
          (t, t.sendAll (encodeUdpGame U_GAME_C2S g) (s.targetsOf dest src)) := by
  unfold handleP2p
  cases decodePdat data with
  | none => rfl
  | some p =>
    obtain ⟨dest, g⟩ := p
    dsimp only
    by_cases hp : (!s.portAllowed g.triple.gport) = true
    · rw [if_pos hp, if_pos hp]
    · rw [if_neg hp, if_neg hp]
      by_cases hf : s.targetsOf dest src = []
      · have hretry : (s.recordUdpProof src).targetsOf dest src = [] := by
          rw [List.eq_nil_iff_forall_not_mem] at hf ⊢
          exact fun d hd => hf d (targetsOf_recordUdpProof hd)
        simp only [if_pos hf, if_pos hretry]
      · simp only [if_neg hf]

theorem handleP2p_out (s : Relay) (data : Bytes) (src : Addr) :
    (s.handleP2p data src).2 =
      match decodePdat data with
      | none => []
      | some (dest, g) =>
        if s.portAllowed g.triple.gport then
          s.sendAll (encodeUdpGame U_GAME_C2S g) (s.targetsOf dest src)
        else [] := by
  rw [handleP2p_eq]
  cases decodePdat data with
  | none => rfl
  | some p =>
    obtain ⟨dest, g⟩ := p
    dsimp only
    by_cases hp : s.portAllowed g.triple.gport = true
    · rw [if_neg (by simp [hp]), if_pos hp]
      by_cases hf : s.targetsOf dest src = []
      · rw [if_pos hf, hf]
        rfl
      · rw [if_neg hf]
        have hsame := ((SameLinks.noteUdp s src).trans
          (SameLinks.setFlow _ (.n dest) g.triple src)).trans (SameLinks.trimFlows _)
        exact congrFun (congrFun hsame.sendAll _) _
    · rw [if_pos (by simp [hp]), if_neg hp]

theorem handleIcmp_out (s : Relay) (data : Bytes) (src : Addr) :
    (s.handleIcmp data src).2 =
      match decodeIcmp data with
      | none => []
      | some f =>
        match s.icmpSource src f.src with
        | none => []
        | some node =>
          if f.dest = 0 then
            if f.mtype ≠ U_ICMP_REQ then []
            else s.udpSendto (encodeIcmp { f with mtype := U_ICMP_REP, src := 0, dest := node }) src
          else if f.dest = node then []
          else s.sendAll (encodeIcmp { f with src := node }) (s.targetsOf f.dest src) := by
  have hsame := SameLinks.noteUdp s src
  unfold handleIcmp
  cases decodeIcmp data with
  | none => rfl
  | some f =>
    dsimp only
    cases s.icmpSource src f.src with
    | none => rfl
    | some node =>
      dsimp only
      by_cases h0 : f.dest = 0
      · rw [if_pos h0, if_pos h0]
        by_cases hq : f.mtype ≠ U_ICMP_REQ
        · rw [if_pos hq, if_pos hq]
        · rw [if_neg hq, if_neg hq, hsame.udpSendto]
      · rw [if_neg h0, if_neg h0]
        by_cases hn : f.dest = node
        · rw [if_pos hn, if_pos hn]
        · rw [if_neg hn, if_neg hn]
          by_cases ht : s.targetsOf f.dest src = []
          · rw [if_pos ht, ht]; rfl
          · rw [if_neg ht, hsame.sendAll]

theorem handleS2c_out (s : Relay) (data : Bytes) (src : Addr) :
    (s.handleS2c data src).2 =
      match decodeUdpGame data with
      | none => []
      | some g =>
        match s.flowFor src g.triple with
        | none => []
        | some (_, fl) =>
          if s.clock - fl.seen > FLOW_TTL ∨ fl.player = src then []
          else s.udpSendto data fl.player := by
  unfold handleS2c
  cases decodeUdpGame data with
  | none => rfl
  | some g =>
    dsimp only
    cases s.flowFor src g.triple with
    | none => rfl
    | some e =>
      dsimp only
      by_cases ho : s.clock - e.2.seen > FLOW_TTL
      · rw [if_pos ho, if_pos (Or.inl ho)]
      · by_cases hp : e.2.player = src
        · rw [if_neg ho, if_pos hp, if_pos (Or.inr hp)]
        · rw [if_neg ho, if_neg hp, if_neg (not_or.mpr ⟨ho, hp⟩)]
          have hsame := (SameLinks.touchFlow s e.1 e.2.player).trans
            (SameLinks.learn _ e.2.player g.triple.gport src)
          exact congrFun (congrFun hsame.udpSendto _) _

/-! ## the links after a datagram -/

theorem handleC2s_links (s : Relay) (data : Bytes) (src : Addr) :
    SameLinks s (s.handleC2s data src).1 := by
  unfold handleC2s
  split
  · exact .refl s
  next g _ =>
    have htargets := (SameLinks.noteUdp s src).trans
      (SameLinks.udpTargets (s.noteUdp src) g.triple.gport src)
    split
    · exact .refl s
    · dsimp only
      split
      · exact htargets
      · exact (htargets.trans (SameLinks.setFlows g.triple src _ _)).trans (SameLinks.trimFlows _)

theorem handleIcmp_links (s : Relay) (data : Bytes) (src : Addr) :
    SameLinks s (s.handleIcmp data src).1 := by
  have hnote := SameLinks.noteUdp s src
  unfold handleIcmp
  repeat' split
  all_goals first | exact .refl s | exact hnote | skip
  dsimp only
  split
  · exact .refl s
  · exact hnote

/-- what a P2P that goes out leaves -/
theorem handleP2p_sent {s : Relay} {data : Bytes} {src : Addr} (h : (s.handleP2p data src).2 ≠ []) :
    ∃ dest g, decodePdat data = some (dest, g) ∧
      (s.handleP2p data src).1 = ((s.noteUdp src).setFlow (.n dest) g.triple src).trimFlows := by
  rw [handleP2p_eq] at h ⊢
  revert h
  cases decodePdat data with
  | none => exact fun h => absurd rfl h
  | some p =>
    obtain ⟨dest, g⟩ := p
    dsimp only
    intro h
    refine ⟨dest, g, rfl, ?_⟩
    by_cases hp : (!s.portAllowed g.triple.gport) = true
    · rw [if_pos hp] at h
      exact absurd rfl h
    · rw [if_neg hp] at h ⊢
      by_cases hf : s.targetsOf dest src = []
      · rw [if_pos hf] at h
        exact absurd rfl h
      · rw [if_neg hf]

theorem handleP2p_links (s : Relay) (data : Bytes) (src : Addr)
    (h : (s.handleP2p data src).2 ≠ []) : SameLinks s (s.handleP2p data src).1 := by
  obtain ⟨dest, g, _, hs⟩ := handleP2p_sent h
  rw [hs]
  exact ((SameLinks.noteUdp s src).trans (SameLinks.setFlow _ (.n dest) g.triple src)).trans
    (SameLinks.trimFlows _)

/-- an S2C changes no link beyond the proof of life of its source -/
theorem handleS2c_links (s : Relay) (data : Bytes) (src : Addr) :
    SameLinks s (s.handleS2c data src).1 := by
  unfold handleS2c
  split
  · exact .refl s
  · split
    · exact .refl s
    · split
      · exact .refl s
      · split
        · exact .refl s
        · exact (SameLinks.touchFlow s _ _).trans (SameLinks.learn _ _ _ src)

/-! ## the ops -/

theorem udpHeaderOk_mono {data : Bytes} {m n : Nat} (h : udpHeaderOk data n = true) (hm : m ≤ n) :
    udpHeaderOk data m = true := by
  unfold udpHeaderOk at h ⊢
  simp only [Bool.and_eq_true, decide_eq_true_eq] at h ⊢
  exact ⟨⟨by omega, h.1.2⟩, h.2⟩

theorem udpHeaderOk_of_game {data : Bytes} {g : UdpGame} (h : decodeUdpGame data = some g) :
    udpHeaderOk data 4 = true := by
  unfold decodeUdpGame at h
  split at h
  next hh => exact udpHeaderOk_mono hh (by omega)
  next => cases h

theorem op_of_pdat {data : Bytes} {p : Nat × UdpGame} (h : decodePdat data = some p) :
    udpHeaderOk data 4 = true ∧ udpOp data = U_GAME_P2P := by
  unfold decodePdat at h
  split at h
  next hh =>
    rw [Bool.and_eq_true, beq_iff_eq] at hh
    exact ⟨udpHeaderOk_mono hh.1 (by omega), hh.2⟩
  next => cases h

theorem op_of_icmp {data : Bytes} {f : IcmpFrame} (h : decodeIcmp data = some f) :
    udpHeaderOk data 4 = true ∧ (udpOp data = U_ICMP_REQ ∨ udpOp data = U_ICMP_REP) := by
  unfold decodeIcmp at h
  split at h
  next hh =>
    rw [Bool.and_eq_true, Bool.or_eq_true, beq_iff_eq, beq_iff_eq] at hh
    exact ⟨udpHeaderOk_mono hh.1 (by omega), hh.2⟩
  next => cases h

/-- the tables and the transmissions after a datagram, by its op -/
theorem handleUdpPayload_op (s : Relay) (data : Bytes) (src : Addr) (P : Relay × List Out → Prop)
    (hnil : ∀ t, P (t, [])) :
    P (s.handleUdpPayload data src) ↔
      (udpHeaderOk data 4 = true →
        (udpOp data = U_GAME_P2P → P (s.handleP2p data src)) ∧
        (udpOp data = U_ICMP_REQ ∨ udpOp data = U_ICMP_REP → P (s.handleIcmp data src)) ∧
        (udpOp data = U_GAME_S2C → P ((s.recordUdpProof src).handleS2c data src)) ∧
        (udpOp data = U_GAME_C2S → P ((s.recordUdpProof src).handleC2s data src))) := by
  unfold handleUdpPayload
  cases hh : udpHeaderOk data 4 with
  | false => simp [hnil]
  | true =>
    simp only [Bool.not_true, Bool.false_eq_true, if_false, true_implies]
    by_cases hn : udpOp data = U_NODE
    · rw [if_pos hn, hn]
      simp [hnil, U_NODE, U_GAME_P2P, U_ICMP_REQ, U_ICMP_REP, U_GAME_S2C, U_GAME_C2S]
    · rw [if_neg hn]
      by_cases h1 : udpOp data = U_GAME_P2P
      · rw [if_pos h1, h1]
        simp [U_GAME_P2P, U_ICMP_REQ, U_ICMP_REP, U_GAME_S2C, U_GAME_C2S]
      · rw [if_neg h1]
        by_cases h2 : udpOp data = U_ICMP_REQ ∨ udpOp data = U_ICMP_REP
        · rw [if_pos h2]
          have h3 : udpOp data ≠ U_GAME_S2C ∧ udpOp data ≠ U_GAME_C2S := by
            rcases h2 with e | e <;> rw [e] <;> decide
          simp [h1, h2, h3.1, h3.2]
        · rw [if_neg h2]
          by_cases h3 : udpOp data = U_GAME_S2C
          · rw [if_pos h3, h3]
            simp [U_GAME_P2P, U_ICMP_REQ, U_ICMP_REP, U_GAME_S2C, U_GAME_C2S]
          · rw [if_neg h3]
            by_cases h4 : udpOp data = U_GAME_C2S
            · rw [if_pos h4, h4]
              simp [U_GAME_P2P, U_ICMP_REQ, U_ICMP_REP, U_GAME_S2C, U_GAME_C2S]
            · rw [if_neg h4]
              simp [h1, h2, h3, h4, hnil]

end Relay

end ShadowLan
