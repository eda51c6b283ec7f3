import ShadowLan.Relay.Members

/-!
# One node for each control link

Two tables say where a control connection belongs: the links of the nodes, and `writer_node`.  A
registration writes both, pruning and eviction edit both, and the end of a connection looks the
link up by the second one only.

* `holds_prune`, `holds_join`, `holds_teardown`, ...   what an operation does to the links;
* `Tied`             the two tables agree on every open connection;
* `LinkStep`         the steps that keep them in step;
* `one_node_iff`     in a run, every open link belongs to the one node that `writer_node` names, and
                     no link outlives its handler, exactly when every step is one of these.
-/

namespace ShadowLan
namespace Relay
variable {s t : Relay}

/-! ## what the operations do to the links -/

theorem holds_prune {n : Nat} {w : Writer} :
    s.pruneNodes.holds n w ↔ s.holds n w ∧ s.isClosing w = false := by
  rw [holds_iff, holds_iff]
  constructor
  · rintro ⟨ent, he, hw⟩
    obtain ⟨old, ho, rfl⟩ := pruneNodes_some he
    obtain ⟨hk, hc⟩ := mem_keptLinks_keys.mp hw
    exact ⟨⟨old, ho, hk⟩, hc⟩
  · rintro ⟨⟨ent, he, hw⟩, hc⟩
    have hk := mem_keptLinks_keys.mpr ⟨hw, hc⟩
    rcases pruneNodes_get? he with hp | ⟨_, hno⟩
    · exact ⟨_, hp, hk⟩
    · obtain ⟨l, hl⟩ := Dict.mem_keys.mp hk
      rw [hno] at hl
      cases hl

theorem holds_drop {n m : Nat} {w : Writer} : (s.dropNode m).holds n w ↔ s.holds n w ∧ n ≠ m := by
  rw [holds_iff, holds_iff]
  have hget : ∀ ent, (s.dropNode m).nodes.get? n = some ent ↔ s.nodes.get? n = some ent ∧ n ≠ m := by
    intro ent
    exact Dict.get?_filter.trans (and_congr_right fun _ => decide_eq_true_iff)
  constructor
  · rintro ⟨ent, he, hw⟩
    obtain ⟨he, hne⟩ := (hget ent).mp he
    exact ⟨⟨ent, he, hw⟩, hne⟩
  · rintro ⟨⟨ent, he, hw⟩, hne⟩
    exact ⟨ent, (hget ent).mpr ⟨he, hne⟩, hw⟩

/-- a new entry has no links -/
theorem holds_add {n m v : Nat} {w : Writer} (hm : s.nodes.get? m = none) :
    (s.addNode m v).holds n w ↔ s.holds n w := by
  rw [holds_iff, holds_iff]
  by_cases hn : n = m
  · have hself : (s.addNode m v).nodes.get? m = some ⟨v, 0, .empty⟩ := Dict.get?_set_self _ _ _
    rw [hn, hself, hm]
    constructor
    · rintro ⟨ent, he, hw⟩
      rw [← Option.some.inj he] at hw
      cases hw
    · rintro ⟨ent, he, _⟩
      cases he
  · have hne : (s.addNode m v).nodes.get? n = s.nodes.get? n := Dict.get?_set_of_ne _ _ hn
    rw [hne]

theorem holds_modify {n m : Nat} {f : Node → Node} {v : Writer}
    (ht : t.nodes = s.nodes.modify m f) :
    t.holds n v ↔ if n = m then ∃ ent, s.nodes.get? m = some ent ∧ v ∈ (f ent).links.keys
      else s.holds n v := by
  rw [holds_iff, holds_iff, ht, Dict.get?_modify]
  by_cases hn : n = m
  · rw [if_pos hn, if_pos hn]
    constructor
    · rintro ⟨ent, he, hw⟩
      obtain ⟨old, ho, rfl⟩ := Option.map_eq_some_iff.mp he
      exact ⟨old, ho, hw⟩
    · rintro ⟨old, ho, hw⟩
      exact ⟨f old, Option.map_eq_some_iff.mpr ⟨old, ho, rfl⟩, hw⟩
  · rw [if_neg hn, if_neg hn]

/-- **A registration** adds the one link -/
theorem holds_join {w v : Writer} {ip : String} {f : NodeFrame} {n : Nat} {ent : Node}
    (he : s.nodes.get? f.node = some ent) :
    (s.join w ip f).holds n v ↔ s.holds n v ∨ (v = w ∧ n = f.node) := by
  rw [holds_modify (join_nodes s w ip f)]
  by_cases hn : n = f.node
  · rw [if_pos hn, holds_iff, hn, he]
    simp only [Option.some.injEq, exists_eq_left', mem_keys_newLink]
    tauto
  · rw [if_neg hn]
    simp [hn]

theorem holds_enter {w v : Writer} {ip : String} {f : NodeFrame} {n : Nat} {ent : Node}
    (he : s.nodes.get? f.node = some ent) :
    (s.enter w ip f).holds n v ↔ s.holds n v ∨ (v = w ∧ n = f.node) :=
  (same_enter s w ip f).holds.trans (holds_join he)

/-- **The end of a connection** takes out the link of the node that `writer_node` names -/
theorem holds_teardown {w v : Writer} {n : Nat} :
    (s.teardown w).holds n v ↔ s.holds n v ∧ ¬ (v = w ∧ s.writer_node.get? w = some n) := by
  rcases teardown_nodes s w with ⟨hnone, heq⟩ | ⟨m, hm, heq⟩
  · rw [holds_iff, holds_iff, heq, hnone]
    simp
  · rw [holds_modify heq, hm]
    by_cases hn : n = m
    · rw [if_pos hn, holds_iff, hn]
      simp only [Dict.mem_keys, Dict.mem_pop]
      constructor
      · rintro ⟨ent, he, l, hl, hv⟩
        exact ⟨⟨ent, he, l, hl⟩, fun h => hv h.1⟩
      · rintro ⟨⟨ent, he, l, hl⟩, hv⟩
        exact ⟨ent, he, l, hl, fun h => hv ⟨h, trivial⟩⟩
    · rw [if_neg hn]
      have hne : m ≠ n := fun h => hn h.symm
      simp [hne]

/-! ## what they do to `writer_node` -/

theorem writerNode_pruneNode {n m : Nat} {ent : Node} {w : Writer}
    (h : (s.pruneNode m ent).writer_node.get? w = some n) : s.writer_node.get? w = some n := by
  have hpop : ∀ {ks : List Writer},
      (ks.foldl Dict.pop s.writer_node).get? w = some n → s.writer_node.get? w = some n := by
    intro ks hk
    exact Dict.get?_eq_some.mpr ((Dict.mem_foldl_pop _ _).mp (Dict.get?_eq_some.mp hk)).1
  unfold pruneNode at h
  dsimp only at h
  split at h
  · exact hpop h
  · split at h
    · exact hpop (Dict.get?_filter.mp h).1
    · exact hpop h

theorem writerNode_pruneNodes {n : Nat} {w : Writer}
    (h : s.pruneNodes.writer_node.get? w = some n) : s.writer_node.get? w = some n := by
  have key : ∀ (l : List (Nat × Node)) (s : Relay),
      (l.foldl (fun s e => s.pruneNode e.1 e.2) s).writer_node.get? w = some n →
      s.writer_node.get? w = some n := by
    intro l
    induction l with
    | nil => exact fun _ h => h
    | cons e l ih =>
      intro s h
      exact writerNode_pruneNode (ih _ h)
  exact key _ s h

/-- an open connection keeps its entry unless its node is forgotten -/
theorem pruneNode_writerNode {n m : Nat} {ent : Node} {w : Writer}
    (h : s.writer_node.get? w = some n) (hc : s.isClosing w = false)
    (hk : m = n → (s.keptLinks ent).items ≠ []) :
    (s.pruneNode m ent).writer_node.get? w = some n := by
  have hpop : (((ent.links.keys.filter s.isClosing).foldl Dict.pop s.writer_node).get? w)
      = some n := by
    apply Dict.get?_eq_some.mpr
    apply (Dict.mem_foldl_pop _ _).mpr
    refine ⟨Dict.get?_eq_some.mp h, ?_⟩
    intro hw
    have hclosing := (List.mem_filter.mp hw).2
    rw [hc] at hclosing
    cases hclosing
  unfold pruneNode
  dsimp only
  split
  · exact hpop
  · next hempty =>
    have hne : m ≠ n := fun h => hempty (hk h)
    split
    · exact Dict.get?_filter.mpr ⟨hpop, by simpa using fun h => hne h.symm⟩
    · exact hpop

theorem pruneNodes_writerNode {n : Nat} {w : Writer} (h : s.writer_node.get? w = some n)
    (hc : s.isClosing w = false) (ho : s.holds n w) :
    s.pruneNodes.writer_node.get? w = some n := by
  have key : ∀ (l : List (Nat × Node)) (u : Relay), SameBase s u →
      (∀ ent, (n, ent) ∈ l → (s.keptLinks ent).items ≠ []) → u.writer_node.get? w = some n →
      (l.foldl (fun s e => s.pruneNode e.1 e.2) u).writer_node.get? w = some n := by
    intro l
    induction l with
    | nil => exact fun _ _ _ h => h
    | cons e l ih =>
      intro u hu hl h
      have hkept : ∀ ent, u.keptLinks ent = s.keptLinks ent := by
        intro ent
        unfold keptLinks
        rw [hu.isClosing]
      apply ih _ (hu.trans (base_pruneNode u e.1 e.2))
        fun ent hent => hl ent (List.mem_cons_of_mem _ hent)
      apply pruneNode_writerNode h (by rw [hu.isClosing]; exact hc)
      rintro rfl
      rw [hkept]
      exact hl e.2 List.mem_cons_self
  apply key _ s (.refl s) _ h
  intro ent hent
  obtain ⟨old, hold, hw⟩ := holds_iff.mp ho
  cases Option.some.inj (hold.symm.trans (Dict.get?_eq_some.mpr hent))
  obtain ⟨l, hl⟩ := Dict.mem_keys.mp (mem_keptLinks_keys.mpr ⟨hw, hc⟩)
  exact List.ne_nil_of_mem hl

theorem writerNode_drop {n m : Nat} {w : Writer} :
    (s.dropNode m).writer_node.get? w = some n ↔ s.writer_node.get? w = some n ∧ n ≠ m :=
  Dict.get?_filter.trans (and_congr_right fun _ => decide_eq_true_iff)

/-! ## a new node -/

/-- no free address, and no entry to evict -/
def full (s : Relay) : Bool :=
  s.freeVirt.isNone && s.nodes.values.all fun ent => ent.links.items ≠ []

/-- a registration of this node is accepted -/
def letsIn (s : Relay) (f : NodeFrame) : Bool :=
  s.tokenOk f.token && ((s.nodes.get? f.node).isSome || !s.pruneNodes.full)

theorem newNode_ok (s : Relay) (n : Nat) : (s.newNode n).2 = !s.pruneNodes.full := by
  unfold full
  rcases newNode_cases s n with ⟨v, hv, heq⟩ | ⟨hv, heq, hall⟩ | ⟨m, ent, hm, hno, heq⟩
  · rw [heq, hv]
    rfl
  · rw [heq, hv]
    have hlinks : (s.pruneNodes.nodes.values.all fun ent => decide (ent.links.items ≠ [])) = true := by
      apply List.all_eq_true.mpr
      intro ent hent
      obtain ⟨m, hm⟩ := Dict.mem_values.mp hent
      exact decide_eq_true (hall m ent (Dict.get?_eq_some.mpr hm))
    rw [hlinks]
    rfl
  · rw [heq]
    have hlinks : (s.pruneNodes.nodes.values.all fun ent => decide (ent.links.items ≠ [])) = false := by
      apply List.all_eq_false.mpr
      refine ⟨ent, Dict.mem_values.mpr ⟨m, Dict.get?_eq_some.mp hm⟩, ?_⟩
      simp [hno]
    rw [hlinks, Bool.and_false]
    rfl

theorem registerNode_ok (s : Relay) (w : Writer) (ip : String) (f : NodeFrame) :
    (s.registerNode w ip f).2 = s.letsIn f := by
  unfold letsIn
  rcases registerNode_cases s w ip f with ⟨htok, heq⟩ | ⟨htok, ⟨ent, he⟩, heq⟩ | ⟨htok, hnew, heq⟩
  · rw [heq, htok]
    rfl
  · rw [heq, htok, he]
    rfl
  · rw [heq, htok, hnew, newNode_ok]
    cases s.pruneNodes.full <;> rfl

theorem base_newNode (s : Relay) (n : Nat) : SameBase s (s.newNode n).1 := by
  have hp := base_pruneNodes s
  rcases newNode_cases s n with ⟨v, _, heq⟩ | ⟨_, heq, _⟩ | ⟨m, ent, _, _, heq⟩
  · rw [heq]
    exact ⟨hp.players, hp.closing, hp.subnet, hp.token, hp.clock⟩
  · rw [heq]
    exact hp
  · rw [heq]
    exact ⟨hp.players, hp.closing, hp.subnet, hp.token, hp.clock⟩

theorem base_enter (s : Relay) (w : Writer) (ip : String) (f : NodeFrame) :
    SameBase s (s.enter w ip f) := by
  have he := same_enter s w ip f
  exact ⟨he.players, he.closing, he.subnet, he.token, he.clock⟩

theorem base_registerNode (s : Relay) (w : Writer) (ip : String) (f : NodeFrame) :
    SameBase s (s.registerNode w ip f).1 := by
  rcases registerNode_cases s w ip f with ⟨_, heq⟩ | ⟨_, _, heq⟩ | ⟨_, _, heq⟩
  · rw [heq]
    exact .refl s
  · rw [heq]
    exact base_enter s w ip f
  · rw [heq]
    split
    · dsimp only
      exact (base_newNode s f.node).trans (base_enter _ w ip f)
    · exact base_newNode s f.node

/-- the open links stay, the others are gone: also of an entry that is evicted -/
theorem holds_newNode {n m : Nat} {w : Writer} (hm : s.nodes.get? m = none) :
    (s.newNode m).1.holds n w ↔ s.holds n w ∧ s.isClosing w = false := by
  have hm' : s.pruneNodes.nodes.get? m = none := pruneNodes_none hm
  rcases newNode_cases s m with ⟨v, _, heq⟩ | ⟨_, heq, _⟩ | ⟨a, ent, ha, hno, heq⟩
  · rw [heq]
    exact (holds_add hm').trans holds_prune
  · rw [heq]
    exact holds_prune
  · rw [heq]
    have hdrop : (s.pruneNodes.dropNode a).nodes.get? m = none := by
      cases hd : (s.pruneNodes.dropNode a).nodes.get? m with
      | none => rfl
      | some e =>
        have hsome := (Dict.get?_filter.mp hd).1
        rw [hm'] at hsome
        cases hsome
    refine (holds_add hdrop).trans (holds_drop.trans ?_)
    rw [holds_prune]
    refine and_iff_left_of_imp ?_
    intro hw hna
    -- the evicted entry has no link
    rw [hna] at hw
    obtain ⟨e, he, hk⟩ := holds_iff.mp (holds_prune.mpr hw)
    cases Option.some.inj (he.symm.trans ha)
    obtain ⟨l, hl⟩ := Dict.mem_keys.mp hk
    rw [hno] at hl
    cases hl

theorem newNode_known {n : Nat} (h : (s.newNode n).2 = true) :
    ∃ ent, (s.newNode n).1.nodes.get? n = some ent := by
  rcases newNode_cases s n with ⟨v, _, heq⟩ | ⟨_, heq, _⟩ | ⟨m, ent, _, _, heq⟩
  · rw [heq]
    exact ⟨_, Dict.get?_set_self _ _ _⟩
  · rw [heq] at h
    cases h
  · rw [heq]
    exact ⟨_, Dict.get?_set_self _ _ _⟩

theorem writerNode_newNode {n m : Nat} {w : Writer}
    (h : (s.newNode m).1.writer_node.get? w = some n) : s.writer_node.get? w = some n := by
  rcases newNode_cases s m with ⟨v, _, heq⟩ | ⟨_, heq, _⟩ | ⟨a, ent, _, _, heq⟩
  · rw [heq] at h
    exact writerNode_pruneNodes h
  · rw [heq] at h
    exact writerNode_pruneNodes h
  · rw [heq] at h
    exact writerNode_pruneNodes (writerNode_drop.mp h).1

theorem newNode_writerNode {n m : Nat} {w : Writer} (h : s.writer_node.get? w = some n)
    (hc : s.isClosing w = false) (ho : s.holds n w) :
    (s.newNode m).1.writer_node.get? w = some n := by
  have hp := pruneNodes_writerNode h hc ho
  rcases newNode_cases s m with ⟨v, _, heq⟩ | ⟨_, heq, _⟩ | ⟨a, ent, ha, hno, heq⟩
  · rw [heq]
    exact hp
  · rw [heq]
    exact hp
  · rw [heq]
    refine writerNode_drop.mpr ⟨hp, ?_⟩
    rintro rfl
    obtain ⟨e, he, hk⟩ := holds_iff.mp (holds_prune.mpr ⟨ho, hc⟩)
    cases Option.some.inj (he.symm.trans ha)
    obtain ⟨l, hl⟩ := Dict.mem_keys.mp hk
    rw [hno] at hl
    cases hl

/-! ## the two tables in step -/

/-- **A control link belongs to one node.**  An open connection that is registered occurs in the
links of the node that `writer_node` names and of no other, and a connection whose handler has
finished occurs in no node's links. -/
def OneNode (s : Relay) : Prop :=
  (∀ w ip m, s.players.get? w = some ip → s.isClosing w = false →
    s.writer_node.get? w = some m → ∀ n, s.holds n w ↔ n = m) ∧
  ∀ w, s.players.get? w = none → ∀ n, ¬ s.holds n w

/-- the tables agree on every open connection -/
structure OpenTied (s : Relay) : Prop where
  named : ∀ n w, s.writer_node.get? w = some n → ∃ ip, s.players.get? w = some ip
  one : ∀ w, s.isClosing w = false → ∀ n, s.holds n w ↔ s.writer_node.get? w = some n

/-- and every link has a handler -/
structure Tied (s : Relay) : Prop extends OpenTied s where
  served : ∀ n w, s.holds n w → ∃ ip, s.players.get? w = some ip

/-- every link of the connection is at the node that `writer_node` names -/
def OwnOnly (s : Relay) (w : Writer) : Prop :=
  ∀ n, s.holds n w → s.writer_node.get? w = some n

/-- a step that keeps the tables in step.  An open connection that registers has no link at another
node; a connection whose handler ends has none but the one that `writer_node` names. -/
def LinkStep (s : Relay) : RelayAct → Prop
  | .node w payload =>
    (ctlVer payload ≠ PVER → s.OwnOnly w) ∧
    ∀ f, decodeCtlNode payload = some f → f.node ≠ 0 →
      (s.tokenOk f.token = false → s.OwnOnly w) ∧
      (s.letsIn f = true → s.isClosing w = false → ∀ n, s.holds n w → n = f.node)
  | .gone w => s.OwnOnly w
  | _ => True

theorem holds_iff_allLinks {n : Nat} {w : Writer} :
    s.holds n w ↔ ∃ x ∈ s.allLinks, x.node = n ∧ x.writer = w := by
  rw [holds_iff]
  constructor
  · rintro ⟨ent, he, hk⟩
    obtain ⟨l, hl⟩ := Dict.mem_keys.mp hk
    refine ⟨⟨n, w, l⟩, mem_allLinks.mpr ?_, rfl, rfl⟩
    unfold nodeLinks
    rw [he]
    exact hl
  · rintro ⟨x, hx, rfl, rfl⟩
    have hx := mem_allLinks.mp hx
    unfold nodeLinks at hx
    cases he : s.nodes.get? x.node with
    | none => rw [he] at hx; cases hx
    | some ent =>
      rw [he] at hx
      exact ⟨ent, rfl, Dict.mem_keys.mpr ⟨_, hx⟩⟩

/-- a statement about the nodes of a connection is one about the list of links -/
theorem holds_forall {w : Writer} {P : Nat → Prop} :
    (∀ n, s.holds n w → P n) ↔ ∀ x ∈ s.allLinks, x.writer = w → P x.node := by
  constructor
  · intro h x hx hw
    exact h x.node (holds_iff_allLinks.mpr ⟨x, hx, rfl, hw⟩)
  · intro h n hn
    obtain ⟨x, hx, rfl, hw⟩ := holds_iff_allLinks.mp hn
    exact h x hx hw

instance (s : Relay) (w : Writer) : Decidable (s.OwnOnly w) :=
  decidable_of_iff' _ holds_forall

instance (s : Relay) (w : Writer) (m : Nat) : Decidable (∀ n, s.holds n w → n = m) :=
  decidable_of_iff' _ holds_forall

instance (payload : Bytes) (P : NodeFrame → Prop) [DecidablePred P] :
    Decidable (∀ f, decodeCtlNode payload = some f → P f) :=
  decidable_of_iff (∀ f ∈ decodeCtlNode payload, P f) Iff.rfl

instance (s : Relay) : DecidablePred s.LinkStep
  | .node w payload => by unfold LinkStep; infer_instance
  | .gone w => inferInstanceAs (Decidable (s.OwnOnly w))
  | .accept .. | .close _ | .udpMode _ | .tun .. | .datagram .. | .tick _ => isTrue trivial

theorem Tied.oneNode (h : Tied s) : s.OneNode := by
  constructor
  · intro w ip m _ hc hm n
    rw [h.one w hc n, hm, Option.some.injEq]
    exact eq_comm
  · intro w hw n hn
    obtain ⟨ip, hip⟩ := h.served n w hn
    rw [hw] at hip
    cases hip

theorem OpenTied.same (h : OpenTied s) (hs : SameMembers s t) : OpenTied t := by
  refine ⟨?_, ?_⟩
  · intro n w hn
    rw [hs.players]
    rw [hs.writer_node] at hn
    exact h.named n w hn
  · intro w hc n
    rw [hs.isClosing] at hc
    rw [hs.holds, hs.writer_node]
    exact h.one w hc n

theorem Tied.same (h : Tied s) (hs : SameMembers s t) : Tied t := by
  refine ⟨h.toOpenTied.same hs, ?_⟩
  intro n w hn
  rw [hs.players]
  exact h.served n w (hs.holds.mp hn)

theorem isClosing_teardown {v w : Writer} :
    (s.teardown w).isClosing v = false ↔ v ≠ w ∧ s.isClosing v = false := by
  unfold isClosing
  rw [teardown_closing, decide_eq_false_iff_not, decide_eq_false_iff_not]
  split
  next hw =>
    refine ⟨fun h => ⟨?_, h⟩, fun h => h.2⟩
    rintro rfl
    exact h hw
  · rw [List.mem_append, List.mem_singleton, not_or]
    exact and_comm

theorem OpenTied.teardown (h : OpenTied s) (w : Writer) : OpenTied (s.teardown w) := by
  refine ⟨?_, ?_⟩
  · intro n v hn
    rw [teardown_writer_node] at hn
    have hmem := Dict.mem_pop.mp (Dict.get?_eq_some.mp hn)
    rw [teardown_players, Dict.get?_pop_of_ne _ hmem.2]
    exact h.named n v (Dict.get?_eq_some.mpr hmem.1)
  · intro v hc n
    obtain ⟨hne, hc⟩ := isClosing_teardown.mp hc
    rw [holds_teardown, teardown_writer_node, Dict.get?_pop_of_ne _ hne, ← h.one v hc n]
    exact and_iff_left fun hv => hne hv.1

theorem Tied.teardown (h : Tied s) {w : Writer} (ho : s.OwnOnly w) : Tied (s.teardown w) := by
  refine ⟨h.toOpenTied.teardown w, ?_⟩
  intro n v hn
  obtain ⟨hs, hno⟩ := holds_teardown.mp hn
  have hne : v ≠ w := by
    rintro rfl
    exact hno ⟨rfl, ho n hs⟩
  rw [teardown_players, Dict.get?_pop_of_ne _ hne]
  exact h.served n v hs

theorem OpenTied.newNode (h : OpenTied s) {m : Nat} (hm : s.nodes.get? m = none) :
    OpenTied (s.newNode m).1 := by
  have hb := base_newNode s m
  refine ⟨?_, ?_⟩
  · intro n w hn
    rw [hb.players]
    exact h.named n w (writerNode_newNode hn)
  · intro w hc n
    rw [hb.isClosing] at hc
    rw [holds_newNode hm, h.one w hc n]
    constructor
    · intro hn
      exact newNode_writerNode hn.1 hc ((h.one w hc n).mpr hn.1)
    · intro hn
      exact ⟨writerNode_newNode hn, hc⟩

theorem Tied.newNode (h : Tied s) {m : Nat} (hm : s.nodes.get? m = none) :
    Tied (s.newNode m).1 := by
  refine ⟨h.toOpenTied.newNode hm, ?_⟩
  intro n w hn
  rw [(base_newNode s m).players]
  exact h.served n w ((holds_newNode hm).mp hn).1

section
variable {w : Writer} {ip ip' : String} {f : NodeFrame} {ent : Node}

theorem OpenTied.enter (h : OpenTied s) (hw : s.players.get? w = some ip)
    (he : s.nodes.get? f.node = some ent)
    (hone : s.isClosing w = false → ∀ n, s.holds n w → n = f.node) :
    OpenTied (s.enter w ip' f) := by
  have hb := base_enter s w ip' f
  have hwn : (s.enter w ip' f).writer_node = s.writer_node.set w f.node :=
    (same_enter s w ip' f).writer_node
  refine ⟨?_, ?_⟩
  · intro n v hn
    rw [hb.players]
    by_cases hv : v = w
    · exact ⟨ip, hv ▸ hw⟩
    · rw [hwn, Dict.get?_set_of_ne _ _ hv] at hn
      exact h.named n v hn
  · intro v hc n
    rw [hb.isClosing] at hc
    rw [holds_enter he, hwn]
    by_cases hv : v = w
    · rw [hv, Dict.get?_set_self, Option.some.injEq]
      rw [hv] at hc
      constructor
      · rintro (hn | ⟨_, rfl⟩)
        · exact (hone hc n hn).symm
        · rfl
      · rintro rfl
        exact Or.inr ⟨rfl, rfl⟩
    · rw [Dict.get?_set_of_ne _ _ hv, h.one v hc n]
      simp [hv]

theorem Tied.enter (h : Tied s) (hw : s.players.get? w = some ip)
    (he : s.nodes.get? f.node = some ent)
    (hone : s.isClosing w = false → ∀ n, s.holds n w → n = f.node) :
    Tied (s.enter w ip' f) := by
  refine ⟨h.toOpenTied.enter hw he hone, ?_⟩
  intro n v hn
  rw [(base_enter s w ip' f).players]
  rcases (holds_enter he).mp hn with hn | ⟨rfl, _⟩
  · exact h.served n v hn
  · exact ⟨ip, hw⟩

end

/-- what a registration that is let in does to the links -/
theorem holds_registered (w v : Writer) (ip : String) (n : Nat) {f : NodeFrame}
    (hin : s.letsIn f = true) :
    ∃ u ent, (u = s ∨ (s.nodes.get? f.node = none ∧ u = (s.newNode f.node).1)) ∧
      u.nodes.get? f.node = some ent ∧ s.registerNode w ip f = (u.enter w ip f, true) ∧
      ((s.registerNode w ip f).1.holds n v ↔ u.holds n v ∨ (v = w ∧ n = f.node)) := by
  have hok := (registerNode_ok s w ip f).trans hin
  rcases registerNode_cases s w ip f with ⟨_, heq⟩ | ⟨_, ⟨ent, he⟩, heq⟩ | ⟨_, hnew, heq⟩
  · rw [heq] at hok
    cases hok
  · refine ⟨s, ent, Or.inl rfl, he, heq, ?_⟩
    rw [heq]
    exact holds_enter he
  · by_cases hn : (s.newNode f.node).2 = true
    · rw [if_pos hn] at heq
      obtain ⟨ent, he⟩ := newNode_known hn
      refine ⟨_, ent, Or.inr ⟨hnew, rfl⟩, he, heq, ?_⟩
      rw [heq]
      exact holds_enter he
    · rw [if_neg hn] at heq
      rw [heq] at hok
      cases hok

section
variable {w : Writer} {ip : String} {f : NodeFrame}

theorem OpenTied.accepted (h : OpenTied s) (hw : s.players.get? w = some ip)
    (hin : s.letsIn f = true) (hone : s.isClosing w = false → ∀ n, s.holds n w → n = f.node) :
    OpenTied (s.registerNode w ip f).1 := by
  obtain ⟨u, ent, hu, he, heq, _⟩ := holds_registered w w ip 0 hin
  rw [heq]
  rcases hu with rfl | ⟨hnew, rfl⟩
  · exact h.enter hw he hone
  · have hb := base_newNode s f.node
    apply (h.newNode hnew).enter (hb.players ▸ hw) he
    intro hc n hn
    rw [hb.isClosing] at hc
    exact hone hc n ((holds_newNode hnew).mp hn).1

theorem Tied.accepted (h : Tied s) (hw : s.players.get? w = some ip)
    (hin : s.letsIn f = true) (hone : s.isClosing w = false → ∀ n, s.holds n w → n = f.node) :
    Tied (s.registerNode w ip f).1 := by
  refine ⟨h.toOpenTied.accepted hw hin hone, ?_⟩
  obtain ⟨u, ent, hu, he, heq, _⟩ := holds_registered w w ip 0 hin
  intro n v hn
  rw [heq] at hn ⊢
  rw [(base_enter u w ip f).players]
  have hup : u.players = s.players := by
    rcases hu with rfl | ⟨_, rfl⟩
    · rfl
    · exact (base_newNode s f.node).players
  rw [hup]
  rcases (holds_enter he).mp hn with hn | ⟨rfl, _⟩
  · rcases hu with rfl | ⟨hnew, rfl⟩
    · exact h.served n v hn
    · exact h.served n v ((holds_newNode hnew).mp hn).1
  · exact ⟨ip, hw⟩

end

/-- a registration that is refused for a bad token changes nothing, and one that is refused because
the subnet is full has pruned the links of the closing connections -/
theorem Tied.refused (h : Tied s) {w : Writer} {ip : String} {f : NodeFrame}
    (hout : s.letsIn f = false) (hown : s.tokenOk f.token = false → s.OwnOnly w) :
    Tied ((s.registerNode w ip f).1.teardown w) := by
  have hok := (registerNode_ok s w ip f).trans hout
  rcases registerNode_cases s w ip f with ⟨htok, heq⟩ | ⟨_, _, heq⟩ | ⟨_, hnew, heq⟩
  · rw [heq]
    exact h.teardown (hown htok)
  · rw [heq] at hok
    cases hok
  · by_cases hn : (s.newNode f.node).2 = true
    · rw [heq, if_pos hn] at hok
      cases hok
    · rw [heq, if_neg hn]
      apply (h.newNode hnew).teardown
      intro n hold
      obtain ⟨hold, hc⟩ := (holds_newNode hnew).mp hold
      exact newNode_writerNode ((h.one w hc n).mp hold) hc hold

theorem Tied.nodeFrame (h : Tied s) {w : Writer} {ip : String} {payload : Bytes}
    (hw : s.players.get? w = some ip) (hok : s.LinkStep (.node w payload)) :
    Tied (s.nodeFrame w ip payload) := by
  obtain ⟨hver, hreg⟩ := hok
  rcases nodeFrame_cases s w ip payload with ⟨hv, heq⟩ | ⟨_, _, heq⟩ | ⟨f, _, hf, h0, heq⟩
  · rw [heq]
    exact h.teardown (hver hv)
  · rw [heq]
    exact h
  · obtain ⟨htok, hone⟩ := hreg f hf h0
    rw [heq, registerNode_ok]
    cases hin : s.letsIn f with
    | true => exact h.accepted hw hin (hone hin)
    | false => exact h.refused hin htok

theorem isLink_of_holds {n : Nat} {w : Writer} (h : s.holds n w) : s.isLink w = true := by
  obtain ⟨x, hx, _, rfl⟩ := holds_iff_allLinks.mp h
  exact isLink_of_mem hx

theorem OpenTied.accept (h : OpenTied s) {w : Writer} (ip : String)
    (hw : s.players.get? w = none) (hl : s.isLink w = false) :
    OpenTied { s with players := s.players.set w ip, closing := s.closing.filter (· ≠ w) } := by
  refine ⟨?_, ?_⟩
  · intro n v hn
    by_cases hvw : v = w
    · exact ⟨ip, by rw [hvw]; exact Dict.get?_set_self _ _ _⟩
    · have hv := h.named n v hn
      show ∃ i, (s.players.set w ip).get? v = some i
      rw [Dict.get?_set_of_ne _ _ hvw]
      exact hv
  · intro v hc n
    by_cases hv : v = w
    · constructor
      · intro hn
        have hlink := isLink_of_holds hn
        rw [hv] at hlink
        exact absurd (hlink.symm.trans hl) nofun
      · intro hn
        obtain ⟨i, hi⟩ := h.named n v hn
        rw [hv, hw] at hi
        cases hi
    · apply h.one v _ n
      unfold isClosing at hc ⊢
      rw [decide_eq_false_iff_not] at hc ⊢
      intro hmem
      exact hc (List.mem_filter.mpr ⟨hmem, by simpa using hv⟩)

theorem Tied.accept (h : Tied s) {w : Writer} {ip : String} (hw : s.players.get? w = none)
    (hl : s.isLink w = false) :
    Tied { s with players := s.players.set w ip, closing := s.closing.filter (· ≠ w) } := by
  refine ⟨h.toOpenTied.accept ip hw hl, ?_⟩
  intro n v hn
  obtain ⟨i, hi⟩ := h.served n v hn
  have hvw : v ≠ w := by
    rintro rfl
    rw [hw] at hi
    cases hi
  show ∃ i, (s.players.set w ip).get? v = some i
  rw [Dict.get?_set_of_ne _ _ hvw]
  exact ⟨i, hi⟩

theorem OpenTied.close (h : OpenTied s) (w : Writer) :
    OpenTied { s with closing := w :: s.closing } := by
  refine ⟨h.named, ?_⟩
  intro v hc n
  apply h.one v _ n
  unfold isClosing at hc ⊢
  rw [decide_eq_false_iff_not] at hc ⊢
  exact fun hmem => hc (List.mem_cons_of_mem _ hmem)

/-- **The steps of the list keep the tables in step.** -/
theorem Tied.next (h : Tied s) {a : RelayAct} (hok : s.LinkStep a) (hst : s.next a = some t) :
    Tied t := by
  rcases next_cases hst with ⟨w, ip, _, hw, hl, rfl⟩ | ⟨w, ip, _, _, rfl⟩ |
    ⟨w, ip, p, rfl, hw, rfl⟩ | ⟨w, ip, rfl, _, rfl⟩ | ⟨d, _, rfl⟩ | ⟨_, hs⟩
  · exact h.accept hw hl
  · exact ⟨h.toOpenTied.close w, h.served⟩
  · exact h.nodeFrame hw hok
  · exact h.teardown hok
  · exact ⟨⟨h.named, h.one⟩, h.served⟩
  · exact h.same hs

/-! ## any other step takes them apart -/

theorem not_oneNode_teardown {w : Writer} (h : ¬ s.OwnOnly w) : ¬ (s.teardown w).OneNode := by
  unfold OwnOnly at h
  push Not at h
  obtain ⟨n, hn, hne⟩ := h
  rintro ⟨_, hgone⟩
  have hw : (s.teardown w).players.get? w = none := by
    rw [teardown_players, Dict.get?_pop_self]
  exact hgone w hw n (holds_teardown.mpr ⟨hn, fun h => hne h.2⟩)

/-- an open link that is registered for a second node stays in the links of the first -/
theorem not_oneNode_accepted {w : Writer} {ip : String} {f : NodeFrame} {n : Nat}
    (hw : s.players.get? w = some ip) (hin : s.letsIn f = true) (hc : s.isClosing w = false)
    (hn : s.holds n w) (hne : n ≠ f.node) : ¬ (s.registerNode w ip f).1.OneNode := by
  rintro ⟨hone, _⟩
  have hb := base_registerNode s w ip f
  obtain ⟨u, ent, hu, he, heq, hiff⟩ := holds_registered w w ip n hin
  have hname : (s.registerNode w ip f).1.writer_node.get? w = some f.node := by
    rw [heq, (same_enter u w ip f).writer_node]
    exact Dict.get?_set_self _ _ _
  have hkeep : u.holds n w := by
    rcases hu with rfl | ⟨hnew, rfl⟩
    · exact hn
    · exact (holds_newNode hnew).mpr ⟨hn, hc⟩
  have hclosing : (s.registerNode w ip f).1.isClosing w = false := by
    rw [hb.isClosing]
    exact hc
  exact hne ((hone w ip f.node (hb.players ▸ hw) hclosing hname n).mp (hiff.mpr (Or.inl hkeep)))

theorem not_oneNode_next {a : RelayAct} (hok : ¬ s.LinkStep a) (hst : s.next a = some t) :
    ¬ t.OneNode := by
  rcases next_cases hst with ⟨w, ip, rfl, _, _, _⟩ | ⟨w, ip, rfl, _, _⟩ |
    ⟨w, ip, p, rfl, hw, rfl⟩ | ⟨w, ip, rfl, _, rfl⟩ | ⟨d, rfl, _⟩ | ⟨hs, _⟩
  · exact absurd trivial hok
  · exact absurd trivial hok
  · unfold LinkStep at hok
    rcases nodeFrame_cases s w ip p with ⟨hv, heq⟩ | ⟨hv, hf, heq⟩ | ⟨f, hv, hf, h0, heq⟩
    · rw [heq]
      apply not_oneNode_teardown
      intro hown
      refine hok ⟨fun _ => hown, ?_⟩
      intro f hf
      unfold decodeCtlNode at hf
      rw [if_neg hv] at hf
      cases hf
    · exact absurd ⟨fun h => absurd hv h, fun f hd h0 => absurd (hf f hd) h0⟩ hok
    · rw [heq, registerNode_ok]
      cases hin : s.letsIn f with
      | true =>
        by_contra hgood
        refine hok ⟨fun h => absurd hv h, ?_⟩
        intro g hg _
        cases Option.some.inj (hf.symm.trans hg)
        constructor
        · intro htok
          unfold letsIn at hin
          rw [htok] at hin
          cases hin
        · intro _ hc n hn
          by_contra hne
          exact not_oneNode_accepted hw hin hc hn hne hgood
      | false =>
        by_contra hgood
        refine hok ⟨fun h => absurd hv h, ?_⟩
        intro g hg _
        cases Option.some.inj (hf.symm.trans hg)
        constructor
        · intro htok
          by_contra hown
          have hreg : s.registerNode w ip f = (s, false) := by
            unfold registerNode
            rw [htok]
            rfl
          rw [hreg] at hgood
          exact not_oneNode_teardown hown hgood
        · intro htrue
          rw [hin] at htrue
          cases htrue
  · exact not_oneNode_teardown hok
  · exact absurd trivial hok
  · rcases hs with ⟨w, rfl⟩ | ⟨w, p, rfl⟩ | ⟨d, ip, p, rfl⟩
    · exact absurd trivial hok
    · exact absurd trivial hok
    · exact absurd trivial hok

/-! ## every run -/

theorem tied_init (token : Bytes) (allowed : List Nat) (subnet clock : Nat) :
    Tied (init token allowed subnet clock) := by
  have hno : ∀ n w, ¬ (init token allowed subnet clock).holds n w := by
    intro n w h
    cases h
  refine ⟨⟨nofun, ?_⟩, fun n w h => absurd h (hno n w)⟩
  intro w _ n
  exact iff_of_false (hno n w) nofun

/-- **When a control link belongs to one node.**  In a run of the relay every state has each open
link at its one node, and none for a handler that has finished, iff no open connection registers
for a second node and no handler ends with a link that `writer_node` does not name. -/
theorem one_node_iff {token : Bytes} {allowed : List Nat} {subnet clock : Nat}
    {tr : List (Relay × RelayAct)} {s : Relay}
    (h : Path next (init token allowed subnet clock) tr s) :
    (∀ u ∈ visited tr s, u.OneNode) ↔ ∀ x ∈ tr, x.1.LinkStep x.2 :=
  h.all_iff_ok (tied_init token allowed subnet clock) (fun _ hu => hu.oneNode)
    (fun _ _ _ hu hok hst => hu.next hok hst) (fun _ _ _ _ hok hst => not_oneNode_next hok hst)

/-- a peer registers as node 1 and then, on the same connection, as node 2 -/
def renamed : List RelayAct :=
  [.accept 1 "10.0.0.9", .node 1 [3, 0, 0, 0, 0, 0, 1, 0x13, 0x88, 0],
    .node 1 [3, 0, 0, 0, 0, 0, 2, 0x13, 0x88, 0]]

/-- node 1 registers, node 2 comes, node 1 says its `T_NODE` again, and node 2 leaves -/
def joinLeave : List RelayAct :=
  [.accept 1 "10.0.0.9", .node 1 [3, 0, 0, 0, 0, 0, 1, 0x13, 0x88, 0], .accept 2 "10.0.0.10",
    .node 2 [3, 0, 0, 0, 0, 0, 2, 0x13, 0x88, 0], .node 1 [3, 0, 0, 0, 0, 0, 1, 0x13, 0x89, 0],
    .gone 2]

theorem one_node_joinLeave : ∃ s, run next (init [] [] 0 0) joinLeave = some s ∧ s.holds 1 1 ∧
    ¬ s.holds 2 2 ∧ ∀ u ∈ visited (trace next (init [] [] 0 0) joinLeave) s, u.OneNode := by
  have hrun : (run next (init [] [] 0 0) joinLeave).isSome = true := by decide +kernel
  have hok : ∀ x ∈ trace next (init [] [] 0 0) joinLeave, x.1.LinkStep x.2 := by decide +kernel
  have hlinks : ∀ s ∈ run next (init [] [] 0 0) joinLeave, s.holds 1 1 ∧ ¬ s.holds 2 2 := by
    decide +kernel
  obtain ⟨s, hs⟩ := Option.isSome_iff_exists.mp hrun
  obtain ⟨h1, h2⟩ := hlinks s hs
  exact ⟨s, hs, h1, h2, (one_node_iff (path_run hs)).mpr hok⟩

/-- the connection is open and registered as node 2, but it is also a link of node 1; when its
handler ends, that link stays -/
theorem two_nodes_renamed : ∃ s, Reachable s ∧ s.players.get? 1 = some "10.0.0.9" ∧
    s.isClosing 1 = false ∧ s.writer_node.get? 1 = some 2 ∧ s.holds 1 1 ∧ s.holds 2 1 ∧
    ¬ s.OneNode ∧ (s.teardown 1).players.get? 1 = none ∧ (s.teardown 1).holds 1 1 := by
  have hrun : (run next (init [] [] 0 0) renamed).isSome = true := by decide
  obtain ⟨s, hs⟩ := Option.isSome_iff_exists.mp hrun
  have h : ∀ s ∈ run next (init [] [] 0 0) renamed, s.players.get? 1 = some "10.0.0.9" ∧
      s.isClosing 1 = false ∧ s.writer_node.get? 1 = some 2 ∧ s.holds 1 1 ∧ s.holds 2 1 ∧
      (s.teardown 1).players.get? 1 = none ∧ (s.teardown 1).holds 1 1 := by
    decide
  obtain ⟨hp, hc, hw, h1, h2, hgone, hleft⟩ := h s hs
  refine ⟨s, ⟨_, _, _, _, _, path_run hs⟩, hp, hc, hw, h1, h2, ?_, hgone, hleft⟩
  rintro ⟨hone, _⟩
  cases (hone 1 _ 2 hp hc hw 1).mp h1

end Relay

end ShadowLan
