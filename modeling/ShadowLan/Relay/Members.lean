import ShadowLan.Relay.Routes
import Mathlib.Data.Nat.Bitwise

/-!
# Members of the virtual LAN

Which nodes the relay knows, with which addresses and control links.  The datagrams change none of
this (`SameMembers`); a registration, the pruning in front of it and the end of a connection do.

* `roster`               the nodes with their addresses and the writers of their links;
* `pruneNodes_get?`      what pruning leaves of a node, `newNode_ok` what a new node changes,
                         `enter_get?` and `teardown_get?` what a link does.
-/

namespace ShadowLan
namespace Relay
variable {s t : Relay}

/-! ## what the members know of each other -/

/-- every node with its address and the writers of its links -/
def roster (s : Relay) : List (Nat × Nat × List Writer) :=
  s.nodes.items.map fun e => (e.1, e.2.virt, e.2.links.keys)

/-- the link of `w` is registered for the node -/
def holds (s : Relay) (n : Nat) (w : Writer) : Prop := (s.link? n w).isSome = true

instance (s : Relay) (n : Nat) (w : Writer) : Decidable (s.holds n w) :=
  inferInstanceAs (Decidable (_ = _))

/-- the node has a link whose writer is not closing -/
def hasOpenLink (s : Relay) (n : Nat) : Prop := ∃ w, s.holds n w ∧ s.isClosing w = false

theorem holds_iff {n : Nat} {w : Writer} :
    s.holds n w ↔ ∃ ent, s.nodes.get? n = some ent ∧ w ∈ ent.links.keys := by
  unfold holds link?
  cases hn : s.nodes.get? n with
  | none => simp
  | some ent => simp [Dict.mem_keys_get?, Option.isSome_iff_exists]

theorem mem_roster {n v : Nat} {ks : List Writer} :
    (n, v, ks) ∈ s.roster ↔ ∃ ent, s.nodes.get? n = some ent ∧ ent.virt = v ∧
      ent.links.keys = ks := by
  unfold roster
  rw [List.mem_map]
  constructor
  · rintro ⟨e, he, heq⟩
    obtain ⟨h1, h2⟩ := Prod.mk.inj heq
    obtain ⟨h2, h3⟩ := Prod.mk.inj h2
    exact ⟨e.2, Dict.get?_eq_some.mpr (h1 ▸ he), h2, h3⟩
  · rintro ⟨ent, he, rfl, rfl⟩
    exact ⟨(n, ent), Dict.get?_eq_some.mp he, rfl⟩

/-- the same connections, settings and time -/
structure SameBase (s t : Relay) : Prop where
  players : t.players = s.players
  closing : t.closing = s.closing
  subnet : t.subnet_net = s.subnet_net
  token : t.token = s.token
  clock : t.clock = s.clock

namespace SameBase

theorem refl (s : Relay) : SameBase s s := ⟨rfl, rfl, rfl, rfl, rfl⟩

theorem symm (h : SameBase s t) : SameBase t s :=
  ⟨h.players.symm, h.closing.symm, h.subnet.symm, h.token.symm, h.clock.symm⟩

theorem trans {u : Relay} (h : SameBase s t) (h' : SameBase t u) : SameBase s u :=
  ⟨h'.players.trans h.players, h'.closing.trans h.closing, h'.subnet.trans h.subnet,
    h'.token.trans h.token, h'.clock.trans h.clock⟩

theorem isClosing (h : SameBase s t) : t.isClosing = s.isClosing := by
  funext w
  unfold Relay.isClosing
  rw [h.closing]

end SameBase

/-- nothing that the members know has changed -/
structure SameMembers (s t : Relay) : Prop extends SameBase s t where
  roster : t.roster = s.roster
  writer_node : t.writer_node = s.writer_node

namespace SameMembers

theorem refl (s : Relay) : SameMembers s s := ⟨.refl s, rfl, rfl⟩

theorem symm (h : SameMembers s t) : SameMembers t s :=
  ⟨h.toSameBase.symm, h.roster.symm, h.writer_node.symm⟩

theorem trans {u : Relay} (h : SameMembers s t) (h' : SameMembers t u) : SameMembers s u :=
  ⟨h.toSameBase.trans h'.toSameBase, h'.roster.trans h.roster,
    h'.writer_node.trans h.writer_node⟩

theorem get? (h : SameMembers s t) {n : Nat} {ent : Node} (he : t.nodes.get? n = some ent) :
    ∃ old, s.nodes.get? n = some old ∧ old.virt = ent.virt ∧ old.links.keys = ent.links.keys := by
  have hm : (n, ent.virt, ent.links.keys) ∈ t.roster := mem_roster.mpr ⟨ent, he, rfl, rfl⟩
  rw [h.roster] at hm
  exact mem_roster.mp hm

theorem holds (h : SameMembers s t) {n : Nat} {w : Writer} : t.holds n w ↔ s.holds n w := by
  have key : ∀ {s t : Relay}, SameMembers s t → t.holds n w → s.holds n w := by
    intro s t h hw
    obtain ⟨ent, he, hw⟩ := holds_iff.mp hw
    obtain ⟨old, ho, _, hk⟩ := h.get? he
    exact holds_iff.mpr ⟨old, ho, hk ▸ hw⟩
  exact ⟨key h, key h.symm⟩

theorem hasOpenLink (h : SameMembers s t) {n : Nat} : t.hasOpenLink n ↔ s.hasOpenLink n := by
  unfold Relay.hasOpenLink
  rw [h.isClosing]
  exact exists_congr fun w => and_congr_left' h.holds

end SameMembers

/-! ## datagrams change no membership -/

theorem same_updateLink (s : Relay) (nid : Nat) (w : Writer) (f : Link → Link) :
    SameMembers s (s.updateLink nid w f) := by
  refine ⟨⟨rfl, rfl, rfl, rfl, rfl⟩, ?_, rfl⟩
  show (s.nodes.items.map _).map _ = s.nodes.items.map _
  rw [List.map_map]
  apply List.map_congr_left
  intro e _
  by_cases he : e.1 = nid
  · simp [he, Dict.keys_modify]
  · simp [he]

theorem same_noteUdp (s : Relay) (a : Addr) : SameMembers s (s.noteUdp a) :=
  ⟨⟨rfl, rfl, rfl, rfl, rfl⟩, rfl, rfl⟩

theorem same_attach (s : Relay) (nid : Nat) (w : Writer) (a : Addr) :
    SameMembers s (s.attach nid w a) := same_updateLink s nid w _

theorem same_recordUdpProof (s : Relay) (a : Addr) : SameMembers s (s.recordUdpProof a) := by
  unfold recordUdpProof
  cases s.nodeByUdpAddr a with
  | none => exact .refl s
  | some node =>
    show SameMembers s (if _ then _ else _)
    split
    · exact same_noteUdp s a
    · split
      · exact same_noteUdp s a
      · exact (same_attach s _ _ a).trans (same_noteUdp _ a)

theorem same_setFlows (k : Triple) (p : Addr) (dests : List Addr) (s : Relay) :
    SameMembers s (dests.foldl (fun s dst => s.setFlow (.a dst) k p) s) := by
  induction dests generalizing s with
  | nil => exact .refl s
  | cons d ds ih =>
    have hd : SameMembers s (s.setFlow (.a d) k p) := ⟨⟨rfl, rfl, rfl, rfl, rfl⟩, rfl, rfl⟩
    exact hd.trans (ih _)

theorem same_trimFlows (s : Relay) : SameMembers s s.trimFlows := by
  unfold trimFlows
  split
  · exact ⟨⟨rfl, rfl, rfl, rfl, rfl⟩, rfl, rfl⟩
  · exact .refl s

theorem same_udpTargets (s : Relay) (gport : Nat) (src : Addr) :
    SameMembers s (s.udpTargets gport src).1 := by
  unfold udpTargets
  cases s.sticky gport src with
  | some a => exact .refl s
  | none => exact ⟨⟨rfl, rfl, rfl, rfl, rfl⟩, rfl, rfl⟩

theorem same_handleNode (s : Relay) (data : Bytes) (addr : Addr) :
    SameMembers s (s.handleNode data addr) := by
  unfold handleNode
  cases decodeUdpNode data with
  | none => exact .refl s
  | some f =>
    show SameMembers s (if _ then _ else _)
    split
    · exact .refl s
    · cases s.bestLink f.node addr with
      | none => exact .refl s
      | some x =>
        have ha := same_attach s f.node x.1 addr
        show SameMembers s (noteUdp (if _ then _ else _) addr)
        split
        · exact (ha.trans (same_updateLink _ _ _ _)).trans (same_noteUdp _ addr)
        · exact ha.trans (same_noteUdp _ addr)

theorem same_handleP2p (s : Relay) (data : Bytes) (addr : Addr) :
    SameMembers s (s.handleP2p data addr).1 := by
  unfold handleP2p
  cases decodePdat data with
  | none => exact .refl s
  | some p =>
    obtain ⟨dest, g⟩ := p
    have hr : SameMembers s (if s.targetsOf dest addr = [] then s.recordUdpProof addr else s) := by
      split
      · exact same_recordUdpProof s addr
      · exact .refl s
    have hf : ∀ u : Relay, SameMembers u ((u.noteUdp addr).setFlow (.n dest) g.triple addr) :=
      fun _ => ⟨⟨rfl, rfl, rfl, rfl, rfl⟩, rfl, rfl⟩
    dsimp only
    generalize (if s.targetsOf dest addr = [] then s.recordUdpProof addr else s) = u at hr ⊢
    generalize (if s.targetsOf dest addr = [] then u.targetsOf dest addr
      else s.targetsOf dest addr) = taddrs
    split
    · exact .refl s
    · split
      · exact hr
      · exact (hr.trans (hf u)).trans (same_trimFlows _)

theorem same_handleIcmp (s : Relay) (data : Bytes) (addr : Addr) :
    SameMembers s (s.handleIcmp data addr).1 := by
  unfold handleIcmp
  cases decodeIcmp data with
  | none => exact .refl s
  | some f =>
    dsimp only
    cases s.icmpSource addr f.src with
    | none => exact .refl s
    | some src =>
      show SameMembers s (Prod.fst (if _ then _ else _))
      split
      · split
        · exact .refl s
        · exact same_noteUdp s addr
      · split
        · exact .refl s
        · show SameMembers s (Prod.fst (if _ then _ else _))
          split
          · exact .refl s
          · exact same_noteUdp s addr

theorem same_handleS2c (s : Relay) (data : Bytes) (addr : Addr) :
    SameMembers s (s.handleS2c data addr).1 := by
  unfold handleS2c
  cases decodeUdpGame data with
  | none => exact .refl s
  | some g =>
    dsimp only
    cases s.flowFor addr g.triple with
    | none => exact .refl s
    | some x =>
      dsimp only
      split
      · exact .refl s
      · split
        · exact .refl s
        · exact ⟨⟨rfl, rfl, rfl, rfl, rfl⟩, rfl, rfl⟩

theorem same_handleC2s (s : Relay) (data : Bytes) (addr : Addr) :
    SameMembers s (s.handleC2s data addr).1 := by
  unfold handleC2s
  cases decodeUdpGame data with
  | none => exact .refl s
  | some g =>
    have ht := (same_noteUdp s addr).trans (same_udpTargets (s.noteUdp addr) g.triple.gport addr)
    dsimp only
    generalize (s.noteUdp addr).udpTargets g.triple.gport addr = r at ht ⊢
    obtain ⟨u, dests⟩ := r
    split
    · exact .refl s
    · dsimp only
      split
      · exact ht
      · exact (ht.trans (same_setFlows _ _ _ _)).trans (same_trimFlows _)

/-- **A datagram changes no membership**, whatever it is. -/
theorem same_handleUdpPayload (s : Relay) (data : Bytes) (addr : Addr) :
    SameMembers s (s.handleUdpPayload data addr).1 := by
  have hp := same_recordUdpProof s addr
  unfold handleUdpPayload
  split
  · exact .refl s
  · split
    · exact same_handleNode s data addr
    · split
      · exact same_handleP2p s data addr
      · split
        · exact same_handleIcmp s data addr
        · split
          · exact hp.trans (same_handleS2c _ data addr)
          · split
            · exact hp.trans (same_handleC2s _ data addr)
            · exact .refl s

theorem same_tunFrame (s : Relay) (w : Writer) (payload : Bytes) :
    SameMembers s (s.tunFrame w payload).1 := by
  unfold tunFrame
  cases s.tunAddr w with
  | none => exact .refl s
  | some addr => exact same_handleUdpPayload s payload addr

theorem same_udpMode (s : Relay) (w : Writer) : SameMembers s (s.udpMode w) := by
  unfold udpMode
  dsimp only
  cases h : s.writer_node.get? w with
  | none =>
    exact ⟨⟨rfl, rfl, rfl, rfl, rfl⟩, rfl, rfl⟩
  | some node =>
    have hm : SameMembers s
        { s with udp_tcp := if w ∈ s.udp_tcp then s.udp_tcp else s.udp_tcp ++ [w] } :=
      ⟨⟨rfl, rfl, rfl, rfl, rfl⟩, rfl, rfl⟩
    exact hm.trans (same_updateLink _ node w _)

/-! ## pruning -/

/-- the links of an entry whose writers are not closing -/
def keptLinks (s : Relay) (ent : Node) : Dict Writer Link :=
  (ent.links.keys.filter s.isClosing).foldl Dict.pop ent.links

theorem mem_keptLinks {ent : Node} {e : Writer × Link} :
    e ∈ (s.keptLinks ent).items ↔ e ∈ ent.links.items ∧ s.isClosing e.1 = false := by
  unfold keptLinks
  rw [Dict.mem_foldl_pop, List.mem_filter, not_and]
  constructor
  · intro h
    exact ⟨h.1, by simpa using h.2 (Dict.mem_keys.mpr ⟨e.2, h.1⟩)⟩
  · intro h
    exact ⟨h.1, fun _ => by simp [h.2]⟩

theorem mem_keptLinks_keys {ent : Node} {w : Writer} :
    w ∈ (s.keptLinks ent).keys ↔ w ∈ ent.links.keys ∧ s.isClosing w = false := by
  rw [Dict.mem_keys, Dict.mem_keys, ← exists_and_right]
  exact exists_congr fun l => mem_keptLinks

theorem base_pruneNode (s : Relay) (n : Nat) (ent : Node) : SameBase s (s.pruneNode n ent) := by
  unfold pruneNode
  dsimp only
  split
  · exact ⟨rfl, rfl, rfl, rfl, rfl⟩
  · split
    · exact ⟨rfl, rfl, rfl, rfl, rfl⟩
    · exact ⟨rfl, rfl, rfl, rfl, rfl⟩

theorem base_pruneFold (l : List (Nat × Node)) (s : Relay) :
    SameBase s (l.foldl (fun s e => s.pruneNode e.1 e.2) s) := by
  induction l generalizing s with
  | nil => exact .refl s
  | cons e l ih => exact (base_pruneNode s e.1 e.2).trans (ih _)

theorem base_pruneNodes (s : Relay) : SameBase s s.pruneNodes := base_pruneFold _ s

theorem pruneNode_get?_of_ne {n m : Nat} (ent : Node) (h : m ≠ n) :
    (s.pruneNode n ent).nodes.get? m = s.nodes.get? m := by
  unfold pruneNode
  dsimp only
  split
  · exact Dict.get?_set_of_ne _ _ h
  · split
    · exact (Dict.get?_pop_of_ne _ h).trans (Dict.get?_set_of_ne _ _ h)
    · exact Dict.get?_set_of_ne _ _ h

/-- a node is forgotten only when no open link is left -/
theorem pruneNode_get?_self (n : Nat) (ent : Node) :
    (s.pruneNode n ent).nodes.get? n = some { ent with links := s.keptLinks ent } ∨
    ((s.pruneNode n ent).nodes.get? n = none ∧ (s.keptLinks ent).items = []) := by
  unfold pruneNode
  dsimp only
  by_cases hk : (s.keptLinks ent).items = []
  · rw [if_neg (by simpa [keptLinks] using hk)]
    split
    · exact Or.inr ⟨Dict.get?_pop_self _ _, hk⟩
    · exact Or.inl (Dict.get?_set_self _ _ _)
  · rw [if_pos (by simpa [keptLinks] using hk)]
    exact Or.inl (Dict.get?_set_self _ _ _)

/-- the entries that the loop has not come to yet are as before, the others are pruned -/
theorem pruneFold_get? (l : List (Nat × Node)) (hl : (l.map Prod.fst).Nodup) (s : Relay) :
    (∀ n, n ∉ l.map Prod.fst →
      (l.foldl (fun s e => s.pruneNode e.1 e.2) s).nodes.get? n = s.nodes.get? n) ∧
    ∀ e ∈ l, (l.foldl (fun s e => s.pruneNode e.1 e.2) s).nodes.get? e.1
        = some { e.2 with links := s.keptLinks e.2 } ∨
      ((l.foldl (fun s e => s.pruneNode e.1 e.2) s).nodes.get? e.1 = none ∧
        (s.keptLinks e.2).items = []) := by
  induction l generalizing s with
  | nil => exact ⟨fun _ _ => rfl, nofun⟩
  | cons x l ih =>
    rw [List.map_cons, List.nodup_cons] at hl
    obtain ⟨ih1, ih2⟩ := ih hl.2 (s.pruneNode x.1 x.2)
    rw [List.foldl_cons]
    have hkept : ∀ e, (s.pruneNode x.1 x.2).keptLinks e = s.keptLinks e := by
      intro e
      unfold keptLinks
      rw [(base_pruneNode s x.1 x.2).isClosing]
    constructor
    · intro n hn
      rw [List.map_cons, List.mem_cons, not_or] at hn
      rw [ih1 n hn.2, pruneNode_get?_of_ne x.2 hn.1]
    · intro e he
      rcases List.mem_cons.mp he with rfl | he
      · rw [ih1 e.1 hl.1]
        exact pruneNode_get?_self e.1 e.2
      · rw [← hkept]
        exact ih2 e he

theorem pruneNodes_none {n : Nat} (h : s.nodes.get? n = none) :
    s.pruneNodes.nodes.get? n = none := by
  have hn : n ∉ s.nodes.items.map Prod.fst := by
    intro hn
    obtain ⟨v, hv⟩ := Dict.mem_keys_get?.mp hn
    rw [h] at hv
    cases hv
  exact ((pruneFold_get? _ s.nodes.nodup s).1 n hn).trans h

/-- **Pruning** detaches the closing writers, and forgets a node only when none is left -/
theorem pruneNodes_get? {n : Nat} {ent : Node} (h : s.nodes.get? n = some ent) :
    s.pruneNodes.nodes.get? n = some { ent with links := s.keptLinks ent } ∨
    (s.pruneNodes.nodes.get? n = none ∧ (s.keptLinks ent).items = []) :=
  (pruneFold_get? _ s.nodes.nodup s).2 _ (Dict.get?_eq_some.mp h)

theorem pruneNodes_some {n : Nat} {ent : Node} (h : s.pruneNodes.nodes.get? n = some ent) :
    ∃ old, s.nodes.get? n = some old ∧ ent = { old with links := s.keptLinks old } := by
  cases hs : s.nodes.get? n with
  | none => rw [pruneNodes_none hs] at h; cases h
  | some old =>
    rcases pruneNodes_get? hs with hp | ⟨hp, _⟩
    · exact ⟨old, rfl, Option.some.inj (h.symm.trans hp)⟩
    · rw [hp] at h; cases h

/-! ## a new node -/

def addNode (s : Relay) (n v : Nat) : Relay := { s with nodes := s.nodes.set n ⟨v, 0, .empty⟩ }

/-- all that `newNode` can do: take a free address, refuse, or take the address of a node without
links -/
theorem newNode_cases (s : Relay) (n : Nat) :
    (∃ v, s.pruneNodes.freeVirt = some v ∧ s.newNode n = (s.pruneNodes.addNode n v, true)) ∨
    (s.pruneNodes.freeVirt = none ∧ s.newNode n = (s.pruneNodes, false) ∧
      ∀ m ent, s.pruneNodes.nodes.get? m = some ent → ent.links.items ≠ []) ∨
    (∃ m ent, s.pruneNodes.nodes.get? m = some ent ∧ ent.links.items = [] ∧
      s.newNode n = ((s.pruneNodes.dropNode m).addNode n ent.virt, true)) := by
  unfold newNode
  dsimp only
  cases hv : s.pruneNodes.freeVirt with
  | some v => exact Or.inl ⟨v, rfl, rfl⟩
  | none =>
    refine Or.inr ?_
    cases hc : stalest (fun e => e.2.seen_tcp)
        (s.pruneNodes.nodes.items.filter fun e => e.2.links.items = []) with
    | none =>
      refine Or.inl ⟨rfl, rfl, ?_⟩
      intro m ent hm hno
      have hmem : (m, ent) ∈ s.pruneNodes.nodes.items.filter fun e => e.2.links.items = [] :=
        List.mem_filter.mpr ⟨Dict.get?_eq_some.mp hm, by simpa using hno⟩
      rw [stalest_eq_none hc] at hmem
      cases hmem
    | some cand =>
      have hmem := List.mem_filter.mp (stalest_mem hc)
      exact Or.inr ⟨cand.1, cand.2, Dict.get?_eq_some.mpr hmem.1, by simpa using hmem.2, rfl⟩

/-! ## a link comes and goes -/

theorem mem_keys_newLink {w v : Writer} {ip : String} {flags : Nat} {links : Dict Writer Link} :
    v ∈ (s.newLink w ip flags links).keys ↔ v = w ∨ v ∈ links.keys := by
  unfold newLink
  cases hw : links.get? w with
  | some l =>
    have hmem : w ∈ links.keys := Dict.mem_keys_get?.mpr ⟨l, hw⟩
    constructor
    · exact Or.inr
    · rintro (rfl | hv)
      · exact hmem
      · exact hv
  | none =>
    dsimp only
    rw [Dict.mem_keys, Dict.mem_keys]
    constructor
    · rintro ⟨l, hl⟩
      rcases Dict.mem_set.mp hl with h | ⟨h, _⟩
      · exact Or.inl (congrArg Prod.fst h)
      · exact Or.inr ⟨l, h⟩
    · rintro (rfl | ⟨l, hl⟩)
      · exact ⟨_, Dict.mem_set.mpr (Or.inl rfl)⟩
      · by_cases hv : v = w
        · exact ⟨_, Dict.mem_set.mpr (Or.inl (by rw [hv]))⟩
        · exact ⟨l, Dict.mem_set.mpr (Or.inr ⟨hl, hv⟩)⟩

/-- what the members learn of a node that is let in: its link, and whose writer it is -/
def join (s : Relay) (w : Writer) (ip : String) (f : NodeFrame) : Relay :=
  { s with
    nodes := s.nodes.modify f.node fun ent =>
      { ent with seen_tcp := s.clock, links := s.newLink w ip f.flags ent.links }
    writer_node := s.writer_node.set w f.node }

theorem join_nodes (s : Relay) (w : Writer) (ip : String) (f : NodeFrame) :
    (s.join w ip f).nodes = s.nodes.modify f.node fun ent =>
      { ent with seen_tcp := s.clock, links := s.newLink w ip f.flags ent.links } := rfl

theorem same_declare (s : Relay) (node : Nat) (w : Writer) (ip : String) (port : Nat) :
    SameMembers s (s.declare node w ip port) := by
  unfold declare
  have h1 : ∀ f, SameMembers s (s.updateLink node w f) := same_updateLink s node w
  dsimp only
  split
  · exact h1 _
  · split
    · exact (((h1 _).trans (same_updateLink _ _ _ _)).trans (same_attach _ _ _ _)).trans
        (same_noteUdp _ _)
    · exact h1 _

theorem same_modeTaken (s : Relay) (node : Nat) (w : Writer) (rest : List Writer) :
    SameMembers s { s.setUdpTcp node w with udp_tcp := rest } := by
  have hl := same_updateLink s node w fun l => { l with udp_tcp := true }
  exact ⟨⟨hl.players, hl.closing, hl.subnet, hl.token, hl.clock⟩, hl.roster, hl.writer_node⟩

theorem same_enter (s : Relay) (w : Writer) (ip : String) (f : NodeFrame) :
    SameMembers (s.join w ip f) (s.enter w ip f) := by
  unfold enter join
  dsimp only
  generalize hu : ({ s with
    nodes := s.nodes.modify f.node fun ent =>
      { ent with seen_tcp := s.clock, links := s.newLink w ip f.flags ent.links } } : Relay) = u
  have hd := same_declare u f.node w ip f.udpPort
  have hset : SameMembers { u with writer_node := u.writer_node.set w f.node }
      { u.declare f.node w ip f.udpPort with
        writer_node := (u.declare f.node w ip f.udpPort).writer_node.set w f.node } :=
    ⟨⟨hd.players, hd.closing, hd.subnet, hd.token, hd.clock⟩, hd.roster,
      congrArg (fun d => d.set w f.node) hd.writer_node⟩
  rw [← hu] at hset ⊢
  split
  · exact hset.trans (same_modeTaken _ f.node w _)
  · exact hset

/-- all that `registerNode` can do -/
theorem registerNode_cases (s : Relay) (w : Writer) (ip : String) (f : NodeFrame) :
    (s.tokenOk f.token = false ∧ s.registerNode w ip f = (s, false)) ∨
    (s.tokenOk f.token = true ∧ (∃ ent, s.nodes.get? f.node = some ent) ∧
      s.registerNode w ip f = (s.enter w ip f, true)) ∨
    (s.tokenOk f.token = true ∧ s.nodes.get? f.node = none ∧
      s.registerNode w ip f =
        if (s.newNode f.node).2 then ((s.newNode f.node).1.enter w ip f, true)
        else ((s.newNode f.node).1, false)) := by
  unfold registerNode
  cases ht : s.tokenOk f.token with
  | false => exact Or.inl ⟨rfl, rfl⟩
  | true =>
    refine Or.inr ?_
    cases hn : s.nodes.get? f.node with
    | some ent => exact Or.inl ⟨rfl, ⟨ent, rfl⟩, rfl⟩
    | none => exact Or.inr ⟨rfl, rfl, rfl⟩

/-! ## the end of a connection -/

theorem teardown_nodes (s : Relay) (w : Writer) :
    (s.writer_node.get? w = none ∧ (s.teardown w).nodes = s.nodes) ∨
    ∃ n, s.writer_node.get? w = some n ∧ (s.teardown w).nodes = s.nodes.modify n fun ent =>
      { ent with links := ent.links.pop w, seen_tcp := s.clock } := by
  unfold teardown
  cases s.writer_node.get? w with
  | none => exact Or.inl ⟨rfl, rfl⟩
  | some n => exact Or.inr ⟨n, rfl, rfl⟩

@[simp] theorem teardown_players (s : Relay) (w : Writer) :
    (s.teardown w).players = s.players.pop w := by
  unfold teardown
  cases s.writer_node.get? w <;> rfl

@[simp] theorem teardown_closing (s : Relay) (w : Writer) :
    (s.teardown w).closing = if w ∈ s.closing then s.closing else s.closing ++ [w] := by
  unfold teardown
  cases s.writer_node.get? w <;> rfl

@[simp] theorem teardown_writer_node (s : Relay) (w : Writer) :
    (s.teardown w).writer_node = s.writer_node.pop w := by
  unfold teardown
  cases s.writer_node.get? w <;> rfl

@[simp] theorem teardown_subnet (s : Relay) (w : Writer) :
    (s.teardown w).subnet_net = s.subnet_net := by
  unfold teardown
  cases s.writer_node.get? w <;> rfl

/-! ## one event -/

/-- all that a frame `T_NODE` can do -/
theorem nodeFrame_cases (s : Relay) (w : Writer) (ip : String) (payload : Bytes) :
    (ctlVer payload ≠ PVER ∧ s.nodeFrame w ip payload = s.teardown w) ∨
    (ctlVer payload = PVER ∧ (∀ f, decodeCtlNode payload = some f → f.node = 0) ∧
      s.nodeFrame w ip payload = s) ∨
    (∃ f, ctlVer payload = PVER ∧ decodeCtlNode payload = some f ∧ f.node ≠ 0 ∧
      s.nodeFrame w ip payload =
        if (s.registerNode w ip f).2 then (s.registerNode w ip f).1
        else (s.registerNode w ip f).1.teardown w) := by
  unfold nodeFrame
  by_cases hver : ctlVer payload ≠ PVER
  · rw [if_pos hver]
    exact Or.inl ⟨hver, rfl⟩
  · rw [if_neg hver]
    refine Or.inr ?_
    have hv := Decidable.not_not.mp hver
    cases decodeCtlNode payload with
    | none => exact Or.inl ⟨hv, nofun, rfl⟩
    | some f =>
      by_cases h0 : f.node = 0
      · refine Or.inl ⟨hv, ?_, if_pos h0⟩
        intro g hg
        rw [← Option.some.inj hg]
        exact h0
      · exact Or.inr ⟨f, hv, rfl, h0, if_neg h0⟩

/-- all that an event can do to the membership -/
theorem next_cases {a : RelayAct} (h : s.next a = some t) :
    (∃ w ip, a = .accept w ip ∧ s.players.get? w = none ∧ s.isLink w = false ∧
      t = { s with players := s.players.set w ip, closing := s.closing.filter (· ≠ w) }) ∨
    (∃ w ip, a = .close w ∧ s.players.get? w = some ip ∧
      t = { s with closing := w :: s.closing }) ∨
    (∃ w ip payload, a = .node w payload ∧ s.players.get? w = some ip ∧
      t = s.nodeFrame w ip payload) ∨
    (∃ w ip, a = .gone w ∧ s.players.get? w = some ip ∧ t = s.teardown w) ∨
    (∃ d, a = .tick d ∧ t = { s with clock := s.clock + d }) ∨
    (((∃ w, a = .udpMode w) ∨ (∃ w p, a = .tun w p) ∨ ∃ d ip p, a = .datagram d ip p) ∧
      SameMembers s t) := by
  unfold next at h
  obtain ⟨r, hr, rfl⟩ := Option.map_eq_some_iff.mp h
  cases a with
  | accept w ip =>
    have hr : (if (s.players.get? w).isNone && !s.isLink w then
      some ({ s with players := s.players.set w ip, closing := s.closing.filter (· ≠ w) }, [])
      else none) = some r := hr
    by_cases hc : ((s.players.get? w).isNone && !s.isLink w) = true
    · rw [if_pos hc] at hr
      rw [Bool.and_eq_true, Option.isNone_iff_eq_none, Bool.not_eq_true'] at hc
      rw [← Option.some.inj hr]
      exact Or.inl ⟨w, ip, rfl, hc.1, hc.2, rfl⟩
    · rw [if_neg hc] at hr
      cases hr
  | close w =>
    obtain ⟨ip, hip, rfl⟩ := Option.map_eq_some_iff.mp hr
    exact Or.inr (Or.inl ⟨w, ip, rfl, hip, rfl⟩)
  | node w payload =>
    obtain ⟨ip, hip, rfl⟩ := Option.map_eq_some_iff.mp hr
    exact Or.inr (Or.inr (Or.inl ⟨w, ip, payload, rfl, hip, rfl⟩))
  | gone w =>
    obtain ⟨ip, hip, rfl⟩ := Option.map_eq_some_iff.mp hr
    exact Or.inr (Or.inr (Or.inr (Or.inl ⟨w, ip, rfl, hip, rfl⟩)))
  | tick d =>
    rw [← Option.some.inj hr]
    exact Or.inr (Or.inr (Or.inr (Or.inr (Or.inl ⟨d, rfl, rfl⟩))))
  | udpMode w =>
    obtain ⟨ip, hip, rfl⟩ := Option.map_eq_some_iff.mp hr
    exact Or.inr (Or.inr (Or.inr (Or.inr (Or.inr ⟨Or.inl ⟨w, rfl⟩, same_udpMode s w⟩))))
  | tun w payload =>
    obtain ⟨ip, hip, rfl⟩ := Option.map_eq_some_iff.mp hr
    exact Or.inr (Or.inr (Or.inr (Or.inr (Or.inr
      ⟨Or.inr (Or.inl ⟨w, payload, rfl⟩), same_tunFrame s w payload⟩))))
  | datagram data ip port =>
    rw [← Option.some.inj hr]
    exact Or.inr (Or.inr (Or.inr (Or.inr (Or.inr
      ⟨Or.inr (Or.inr ⟨data, ip, port, rfl⟩), same_handleUdpPayload s data _⟩))))

/-! ## a property of every node -/

/-- every entry is a node with `P` -/
def AllNodes (P : Nat → Prop) (s : Relay) : Prop := ∀ n e, s.nodes.get? n = some e → P n

section
variable {P : Nat → Prop}

theorem AllNodes.of_sub (h : AllNodes P s)
    (hsub : ∀ n e, t.nodes.get? n = some e → ∃ e', s.nodes.get? n = some e') : AllNodes P t := by
  intro n e hn
  obtain ⟨e', he'⟩ := hsub n e hn
  exact h n e' he'

theorem AllNodes.same (h : AllNodes P s) (hst : SameMembers s t) : AllNodes P t := by
  apply h.of_sub
  intro n e he
  obtain ⟨e', he', -⟩ := hst.get? he
  exact ⟨e', he'⟩

theorem AllNodes.modify (h : AllNodes P s) {n : Nat} {f : Node → Node}
    (ht : t.nodes = s.nodes.modify n f) : AllNodes P t := by
  apply h.of_sub
  intro m e he
  rw [ht, Dict.get?_modify] at he
  by_cases hm : m = n
  · rw [if_pos hm] at he
    obtain ⟨old, ho, -⟩ := Option.map_eq_some_iff.mp he
    exact ⟨old, hm ▸ ho⟩
  · rw [if_neg hm] at he
    exact ⟨e, he⟩

theorem AllNodes.prune (h : AllNodes P s) : AllNodes P s.pruneNodes := by
  apply h.of_sub
  intro n e he
  obtain ⟨old, ho, -⟩ := pruneNodes_some he
  exact ⟨old, ho⟩

theorem AllNodes.drop (h : AllNodes P s) (n : Nat) : AllNodes P (s.dropNode n) := by
  apply h.of_sub
  intro m e he
  have hm := Dict.mem_pop.mp (Dict.get?_eq_some.mp he)
  exact ⟨e, Dict.get?_eq_some.mpr hm.1⟩

theorem AllNodes.add (h : AllNodes P s) {n : Nat} (hn : P n) (v : Nat) : AllNodes P (s.addNode n v) := by
  intro m e he
  by_cases hm : m = n
  · rw [hm]
    exact hn
  · have hne : (s.addNode n v).nodes.get? m = s.nodes.get? m := Dict.get?_set_of_ne _ _ hm
    exact h m e (hne ▸ he)

theorem AllNodes.newNode (h : AllNodes P s) {n : Nat} (hn : P n) : AllNodes P (s.newNode n).1 := by
  rcases newNode_cases s n with ⟨v, -, heq⟩ | ⟨-, heq, -⟩ | ⟨m, ent, -, -, heq⟩
  · rw [heq]
    exact h.prune.add hn v
  · rw [heq]
    exact h.prune
  · rw [heq]
    exact (h.prune.drop m).add hn ent.virt

theorem AllNodes.enter (h : AllNodes P s) (w : Writer) (ip : String) (f : NodeFrame) :
    AllNodes P (s.enter w ip f) := by
  have hj : AllNodes P (s.join w ip f) := h.modify (join_nodes s w ip f)
  exact hj.same (same_enter s w ip f)

theorem AllNodes.teardown (h : AllNodes P s) (w : Writer) : AllNodes P (s.teardown w) := by
  rcases teardown_nodes s w with ⟨-, heq⟩ | ⟨n, -, heq⟩
  · exact h.of_sub fun n e he => ⟨e, heq ▸ he⟩
  · exact h.modify heq

theorem AllNodes.registerNode (h : AllNodes P s) (w : Writer) (ip : String) {f : NodeFrame}
    (hf : P f.node) : AllNodes P (s.registerNode w ip f).1 := by
  rcases registerNode_cases s w ip f with ⟨-, heq⟩ | ⟨-, -, heq⟩ | ⟨-, -, heq⟩
  · rw [heq]
    exact h
  · rw [heq]
    exact h.enter w ip f
  · rw [heq]
    split
    · dsimp only
      exact (h.newNode hf).enter w ip f
    · exact h.newNode hf

/-- the nodes that a `T_NODE` can bring have the property -/
theorem AllNodes.next (h : AllNodes P s) {a : RelayAct} (hst : s.next a = some t)
    (hP : ∀ payload f, decodeCtlNode payload = some f → f.node ≠ 0 → P f.node) : AllNodes P t := by
  rcases next_cases hst with ⟨w, ip, -, -, -, rfl⟩ | ⟨w, ip, -, -, rfl⟩ | ⟨w, ip, p, -, -, rfl⟩ |
    ⟨w, ip, -, -, rfl⟩ | ⟨d, -, rfl⟩ | ⟨-, hs⟩
  · exact h
  · exact h
  · rcases nodeFrame_cases s w ip p with ⟨-, heq⟩ | ⟨-, -, heq⟩ | ⟨f, -, hdec, h0, heq⟩
    · rw [heq]
      exact h.teardown w
    · rw [heq]
      exact h
    · rw [heq]
      split
      · exact h.registerNode w ip (hP p f hdec h0)
      · exact (h.registerNode w ip (hP p f hdec h0)).teardown w
  · exact h.teardown w
  · exact h
  · exact h.same hs

end

end Relay

end ShadowLan
