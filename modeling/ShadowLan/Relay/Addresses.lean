import ShadowLan.Relay.Members

/-!
# Virtual addresses

The relay gives each node one of the 253 host addresses of its subnet.  Pruning, expiry and
eviction edit the table on the way, but they all spare an entry with an open link.

* `Placed`                the addresses are hosts of the subnet, and no two nodes share one;
* `Keeps`                 a node that was known is known afterwards, with the same address;
* `registerNode_keeps`    a registration keeps every node with an open link;
* `full_of_refused`       a refused registration found 253 nodes with open links.
-/

namespace ShadowLan

/-- the network address of `--subnet` -/
def subnetNet (net : Nat) : Nat := net &&& 0xFFFFFF00

theorem subnetNet_mod (net : Nat) : subnetNet net % 2 ^ 8 = 0 := by
  unfold subnetNet
  rw [Nat.and_mod_two_pow]
  exact Nat.and_zero _

namespace Relay
variable {s t : Relay}

/-- the addresses that the relay gives out -/
def hosts (s : Relay) : List Nat := (List.range 253).map fun i => s.subnet_net ||| (i + 2)

structure Placed (s : Relay) : Prop where
  subnet : s.subnet_net % 2 ^ 8 = 0
  unique : ∀ n m e e', s.nodes.get? n = some e → s.nodes.get? m = some e' → e.virt = e'.virt → n = m
  host : ∀ n e, s.nodes.get? n = some e → e.virt ∈ s.hosts

/-- a node that was known is known afterwards, with the same address -/
def Keeps (s t : Relay) (n : Nat) : Prop :=
  ∀ e, s.nodes.get? n = some e → ∃ e', t.nodes.get? n = some e' ∧ e'.virt = e.virt

theorem Keeps.trans {u : Relay} {n : Nat} (h : Keeps s t n) (h' : Keeps t u n) : Keeps s u n := by
  intro e he
  obtain ⟨e1, h1, hv1⟩ := h e he
  obtain ⟨e2, h2, hv2⟩ := h' e1 h1
  exact ⟨e2, h2, hv2.trans hv1⟩

theorem Keeps.of_eq {n : Nat} (h : t.nodes.get? n = s.nodes.get? n) : Keeps s t n := by
  intro e he
  exact ⟨e, h.trans he, rfl⟩

theorem SameMembers.keeps (h : SameMembers s t) (n : Nat) : Keeps s t n := by
  intro e he
  obtain ⟨e', he', hv, _⟩ := h.symm.get? he
  exact ⟨e', he', hv⟩

/-! ## the addresses stay apart -/

theorem hosts_nodup (h : s.subnet_net % 2 ^ 8 = 0) : s.hosts.Nodup := by
  have hmod : ∀ i, i < 253 → (s.subnet_net ||| (i + 2)) % 2 ^ 8 = i + 2 := by
    intro i hi
    rw [Nat.or_mod_two_pow, h, Nat.zero_or]
    exact Nat.mod_eq_of_lt (by omega)
  apply List.Nodup.map_on _ List.nodup_range
  intro i hi j hj hij
  have hi' := hmod i (List.mem_range.mp hi)
  have hj' := hmod j (List.mem_range.mp hj)
  rw [hij] at hi'
  omega

/-- fewer nodes with the same addresses -/
theorem Placed.of_sub (h : Placed s) (hs : t.subnet_net = s.subnet_net)
    (hsub : ∀ n e, t.nodes.get? n = some e → ∃ e', s.nodes.get? n = some e' ∧ e'.virt = e.virt) :
    Placed t := by
  refine ⟨hs ▸ h.subnet, ?_, ?_⟩
  · intro n m e e' hn hm hv
    obtain ⟨o, ho, hov⟩ := hsub n e hn
    obtain ⟨o', ho', hov'⟩ := hsub m e' hm
    exact h.unique n m o o' ho ho' (hov.trans (hv.trans hov'.symm))
  · intro n e hn
    obtain ⟨o, ho, hov⟩ := hsub n e hn
    have hhosts : t.hosts = s.hosts := by
      unfold hosts
      rw [hs]
    rw [hhosts, ← hov]
    exact h.host n o ho

theorem Placed.same (h : Placed s) (hst : SameMembers s t) : Placed t := by
  apply h.of_sub hst.subnet
  intro n e he
  obtain ⟨e', he', hv, _⟩ := hst.get? he
  exact ⟨e', he', hv⟩

theorem Placed.prune (h : Placed s) : Placed s.pruneNodes := by
  apply h.of_sub (base_pruneNodes s).subnet
  intro n e he
  obtain ⟨old, ho, rfl⟩ := pruneNodes_some he
  exact ⟨old, ho, rfl⟩

theorem Placed.drop (h : Placed s) (n : Nat) : Placed (s.dropNode n) := by
  apply h.of_sub (by rfl)
  intro m e he
  have hm := Dict.mem_pop.mp (Dict.get?_eq_some.mp he)
  exact ⟨e, Dict.get?_eq_some.mpr hm.1, rfl⟩

/-- the nodes of `t` are those of `s`, with one of them changed in its links only -/
theorem Placed.modify (h : Placed s) {n : Nat} {f : Node → Node}
    (ht : t.nodes = s.nodes.modify n f) (hf : ∀ e, (f e).virt = e.virt)
    (hs : t.subnet_net = s.subnet_net) : Placed t := by
  apply h.of_sub hs
  intro m e he
  rw [ht, Dict.get?_modify] at he
  by_cases hm : m = n
  · rw [if_pos hm] at he
    obtain ⟨old, ho, rfl⟩ := Option.map_eq_some_iff.mp he
    exact ⟨old, hm ▸ ho, (hf old).symm⟩
  · rw [if_neg hm] at he
    exact ⟨e, he, rfl⟩

theorem keeps_modify {n m : Nat} {f : Node → Node} (ht : t.nodes = s.nodes.modify n f)
    (hf : ∀ e, (f e).virt = e.virt) : Keeps s t m := by
  intro e he
  rw [ht, Dict.get?_modify]
  by_cases hm : m = n
  · rw [if_pos hm, ← hm, he]
    exact ⟨f e, rfl, hf e⟩
  · rw [if_neg hm]
    exact ⟨e, he, rfl⟩

theorem Placed.add (h : Placed s) {n v : Nat} (hv : v ∈ s.hosts)
    (hfree : ∀ m e, s.nodes.get? m = some e → e.virt ≠ v) : Placed (s.addNode n v) := by
  have hget : ∀ m e, (s.addNode n v).nodes.get? m = some e →
      (m = n ∧ e.virt = v) ∨ (m ≠ n ∧ s.nodes.get? m = some e) := by
    intro m e he
    by_cases hm : m = n
    · have hself : (s.addNode n v).nodes.get? n = some ⟨v, 0, .empty⟩ := Dict.get?_set_self _ _ _
      rw [hm, hself] at he
      exact Or.inl ⟨hm, by rw [← Option.some.inj he]⟩
    · have hne : (s.addNode n v).nodes.get? m = s.nodes.get? m := Dict.get?_set_of_ne _ _ hm
      exact Or.inr ⟨hm, hne ▸ he⟩
  refine ⟨h.subnet, ?_, ?_⟩
  · intro a b e e' ha hb hab
    rcases hget a e ha with ⟨rfl, he⟩ | ⟨hna, ha⟩
    · rcases hget b e' hb with ⟨rfl, _⟩ | ⟨_, hb⟩
      · rfl
      · exact absurd (hab.symm.trans he) (hfree b e' hb)
    · rcases hget b e' hb with ⟨_, he'⟩ | ⟨_, hb⟩
      · exact absurd (hab.trans he') (hfree a e ha)
      · exact h.unique a b e e' ha hb hab
  · intro m e he
    rcases hget m e he with ⟨_, hev⟩ | ⟨_, he⟩
    · rw [hev]
      exact hv
    · exact h.host m e he

theorem freeVirt_some {v : Nat} (h : s.freeVirt = some v) :
    v ∈ s.hosts ∧ ∀ m e, s.nodes.get? m = some e → e.virt ≠ v := by
  unfold freeVirt at h
  refine ⟨List.mem_of_find?_eq_some h, ?_⟩
  intro m e he hev
  have hno : v ∉ s.nodes.values.map Node.virt := by simpa using List.find?_some h
  apply hno
  exact List.mem_map.mpr ⟨e, Dict.mem_values.mpr ⟨m, Dict.get?_eq_some.mp he⟩, hev⟩

theorem Placed.newNode (h : Placed s) (n : Nat) : Placed (s.newNode n).1 := by
  have hp := h.prune
  rcases newNode_cases s n with ⟨v, hv, heq⟩ | ⟨_, heq, _⟩ | ⟨m, ent, hm, _, heq⟩
  · rw [heq]
    exact hp.add (freeVirt_some hv).1 (freeVirt_some hv).2
  · rw [heq]
    exact hp
  · rw [heq]
    apply (hp.drop m).add (hp.host m ent hm)
    intro a e ha hev
    have hmem := Dict.mem_pop.mp (Dict.get?_eq_some.mp ha)
    exact hmem.2 (hp.unique a m e ent (Dict.get?_eq_some.mpr hmem.1) hm hev)

theorem Placed.enter (h : Placed s) (w : Writer) (ip : String) (f : NodeFrame) :
    Placed (s.enter w ip f) := by
  have hj : Placed (s.join w ip f) := h.modify (join_nodes s w ip f) (fun _ => rfl) rfl
  exact hj.same (same_enter s w ip f)

theorem Placed.registerNode (h : Placed s) (w : Writer) (ip : String) (f : NodeFrame) :
    Placed (s.registerNode w ip f).1 := by
  rcases registerNode_cases s w ip f with ⟨_, heq⟩ | ⟨_, _, heq⟩ | ⟨_, _, heq⟩
  · rw [heq]
    exact h
  · rw [heq]
    exact h.enter w ip f
  · rw [heq]
    split
    · dsimp only
      exact (h.newNode f.node).enter w ip f
    · exact h.newNode f.node

theorem Placed.teardown (h : Placed s) (w : Writer) : Placed (s.teardown w) := by
  have hs := teardown_subnet s w
  rcases teardown_nodes s w with ⟨_, heq⟩ | ⟨n, _, heq⟩
  · refine h.of_sub hs ?_
    intro n e he
    exact ⟨e, heq ▸ he, rfl⟩
  · exact h.modify heq (fun _ => rfl) hs

/-! ## a node with an open link stays -/

theorem kept_of_open {n : Nat} {ent : Node} (hn : s.nodes.get? n = some ent)
    (ho : s.hasOpenLink n) : (s.keptLinks ent).items ≠ [] := by
  obtain ⟨w, hw, hc⟩ := ho
  obtain ⟨e, he, hk⟩ := holds_iff.mp hw
  cases Option.some.inj (hn.symm.trans he)
  obtain ⟨l, hl⟩ := Dict.mem_keys.mp (mem_keptLinks_keys.mpr ⟨hk, hc⟩)
  exact List.ne_nil_of_mem hl

theorem pruneNodes_keeps {n : Nat} (ho : s.hasOpenLink n) : Keeps s s.pruneNodes n := by
  intro e he
  rcases pruneNodes_get? he with hp | ⟨_, hno⟩
  · exact ⟨_, hp, rfl⟩
  · exact absurd hno (kept_of_open he ho)

theorem newNode_keeps {n m : Nat} (hm : s.nodes.get? m = none) (ho : s.hasOpenLink n) :
    Keeps s (s.newNode m).1 n := by
  intro e he
  have hnm : n ≠ m := by
    rintro rfl
    rw [hm] at he
    cases he
  have hadd : ∀ (u : Relay) (v : Nat), Keeps u (u.addNode m v) n := fun u v =>
    .of_eq (Dict.get?_set_of_ne _ _ hnm)
  have hprune : s.pruneNodes.nodes.get? n = some { e with links := s.keptLinks e } := by
    rcases pruneNodes_get? he with hp | ⟨_, hno⟩
    · exact hp
    · exact absurd hno (kept_of_open he ho)
  rcases newNode_cases s m with ⟨v, _, heq⟩ | ⟨_, heq, _⟩ | ⟨a, ent, ha, hno, heq⟩
  · rw [heq]
    exact (pruneNodes_keeps ho).trans (hadd _ v) e he
  · rw [heq]
    exact pruneNodes_keeps ho e he
  · rw [heq]
    -- the evicted entry has no link, so it is another one
    have hna : n ≠ a := by
      rintro rfl
      cases Option.some.inj (hprune.symm.trans ha)
      exact kept_of_open he ho hno
    have hdrop : Keeps s.pruneNodes (s.pruneNodes.dropNode a) n :=
      .of_eq (Dict.get?_pop_of_ne _ hna)
    exact ((pruneNodes_keeps ho).trans (hdrop.trans (hadd _ _))) e he

theorem enter_keeps (s : Relay) (w : Writer) (ip : String) (f : NodeFrame) (n : Nat) :
    Keeps s (s.enter w ip f) n := by
  have hj : Keeps s (s.join w ip f) n := keeps_modify (join_nodes s w ip f) fun _ => rfl
  exact hj.trans ((same_enter s w ip f).keeps n)

theorem registerNode_keeps {n : Nat} (ho : s.hasOpenLink n) (w : Writer) (ip : String)
    (f : NodeFrame) : Keeps s (s.registerNode w ip f).1 n := by
  rcases registerNode_cases s w ip f with ⟨_, heq⟩ | ⟨_, _, heq⟩ | ⟨_, hnew, heq⟩
  · rw [heq]
    exact .of_eq rfl
  · rw [heq]
    exact enter_keeps s w ip f n
  · rw [heq]
    split
    · dsimp only
      exact (newNode_keeps hnew ho).trans (enter_keeps _ w ip f n)
    · exact newNode_keeps hnew ho

theorem teardown_keeps (s : Relay) (w : Writer) (n : Nat) : Keeps s (s.teardown w) n := by
  rcases teardown_nodes s w with ⟨_, heq⟩ | ⟨m, _, heq⟩
  · exact .of_eq (congrArg (fun d => d.get? n) heq)
  · exact keeps_modify heq fun _ => rfl

/-! ## one event -/

theorem Placed.nodeFrame (h : Placed s) (w : Writer) (ip : String) (payload : Bytes) :
    Placed (s.nodeFrame w ip payload) := by
  rcases nodeFrame_cases s w ip payload with ⟨_, heq⟩ | ⟨_, _, heq⟩ | ⟨f, _, _, _, heq⟩
  · rw [heq]
    exact h.teardown w
  · rw [heq]
    exact h
  · rw [heq]
    split
    · exact h.registerNode w ip f
    · exact (h.registerNode w ip f).teardown w

theorem nodeFrame_keeps {n : Nat} (ho : s.hasOpenLink n) (w : Writer) (ip : String)
    (payload : Bytes) : Keeps s (s.nodeFrame w ip payload) n := by
  rcases nodeFrame_cases s w ip payload with ⟨_, heq⟩ | ⟨_, _, heq⟩ | ⟨f, _, _, _, heq⟩
  · rw [heq]
    exact teardown_keeps s w n
  · rw [heq]
    exact .of_eq rfl
  · rw [heq]
    split
    · exact registerNode_keeps ho w ip f
    · exact (registerNode_keeps ho w ip f).trans (teardown_keeps _ w n)

theorem next_placed {a : RelayAct} (h : Placed s) (hst : s.next a = some t) : Placed t := by
  rcases next_cases hst with ⟨w, ip, _, _, _, rfl⟩ | ⟨w, ip, _, _, rfl⟩ | ⟨w, ip, p, _, _, rfl⟩ |
    ⟨w, ip, _, _, rfl⟩ | ⟨d, _, rfl⟩ | ⟨_, hs⟩
  · exact ⟨h.subnet, h.unique, h.host⟩
  · exact ⟨h.subnet, h.unique, h.host⟩
  · exact h.nodeFrame w ip p
  · exact h.teardown w
  · exact ⟨h.subnet, h.unique, h.host⟩
  · exact h.same hs

/-- **An entry with an open link survives every event**, and its address does not change. -/
theorem next_keeps_open {a : RelayAct} {n : Nat} (ho : s.hasOpenLink n)
    (hst : s.next a = some t) : Keeps s t n := by
  rcases next_cases hst with ⟨w, ip, _, _, _, rfl⟩ | ⟨w, ip, _, _, rfl⟩ | ⟨w, ip, p, _, _, rfl⟩ |
    ⟨w, ip, _, _, rfl⟩ | ⟨d, _, rfl⟩ | ⟨_, hs⟩
  · exact .of_eq rfl
  · exact .of_eq rfl
  · exact nodeFrame_keeps ho w ip p
  · exact teardown_keeps s w n
  · exact .of_eq rfl
  · exact hs.keeps n

theorem path_keeps_open {tr : List (Relay × RelayAct)} {n : Nat} (h : Path next s tr t)
    (ho : ∀ x ∈ tr, x.1.hasOpenLink n) : Keeps s t n := by
  induction h with
  | nil => exact .of_eq rfl
  | @snoc tr u u' a hp hl ih =>
    have hpre := ih fun x hx => ho x (List.mem_append_left _ hx)
    have hlast : u.hasOpenLink n := ho (u, a) (List.mem_append_right _ List.mem_cons_self)
    exact hpre.trans (next_keeps_open hlast hl)

/-! ## a refused registration -/

theorem freeVirt_none (h : s.freeVirt = none) :
    ∀ v ∈ s.hosts, v ∈ s.nodes.values.map Node.virt := by
  unfold freeVirt at h
  intro v hv
  simpa using List.find?_eq_none.mp h v hv

/-- with all addresses taken, there are as many nodes as addresses -/
theorem Placed.length_of_full (h : Placed s) (hfull : s.freeVirt = none) :
    s.nodes.keys.length = 253 := by
  have hnd : (s.nodes.values.map Node.virt).Nodup := by
    unfold Dict.values
    rw [List.map_map]
    apply List.Nodup.map_on _ (List.Nodup.of_map _ s.nodes.nodup)
    intro e he e' he' hv
    have hk := h.unique e.1 e'.1 e.2 e'.2 (Dict.get?_eq_some.mpr he) (Dict.get?_eq_some.mpr he') hv
    exact List.inj_on_of_nodup_map s.nodes.nodup he he' hk
  have hperm : (s.nodes.values.map Node.virt).Perm s.hosts := by
    apply (List.perm_ext_iff_of_nodup hnd (hosts_nodup h.subnet)).mpr
    intro v
    constructor
    · intro hv
      obtain ⟨e, he, rfl⟩ := List.mem_map.mp hv
      obtain ⟨n, hn⟩ := Dict.mem_values.mp he
      exact h.host n e (Dict.get?_eq_some.mpr hn)
    · exact freeVirt_none hfull v
  have hlen := hperm.length_eq
  simpa [Dict.keys, Dict.values, hosts] using hlen

/-- **Refused only when full.**  253 nodes with an open link each. -/
theorem full_of_refused (h : Placed s) {w : Writer} {ip : String} {f : NodeFrame}
    (htok : s.tokenOk f.token = true) (hnew : s.nodes.get? f.node = none)
    (hno : (s.registerNode w ip f).2 = false) :
    ∃ ns : List Nat, ns.Nodup ∧ ns.length = 253 ∧ ∀ n ∈ ns, s.hasOpenLink n := by
  rcases registerNode_cases s w ip f with ⟨hbad, _⟩ | ⟨_, ⟨ent, he⟩, _⟩ | ⟨_, _, heq⟩
  · rw [htok] at hbad
    cases hbad
  · rw [hnew] at he
    cases he
  · rw [heq] at hno
    have hrefused : (s.newNode f.node).2 = false := by
      by_contra hok
      rw [if_pos (by simpa using hok)] at hno
      cases hno
    rcases newNode_cases s f.node with ⟨v, _, hn⟩ | ⟨hfull, _, hlinks⟩ | ⟨m, ent, _, _, hn⟩
    · rw [hn] at hrefused
      cases hrefused
    · refine ⟨s.pruneNodes.nodes.keys, s.pruneNodes.nodes.nodup, h.prune.length_of_full hfull, ?_⟩
      intro n hn
      obtain ⟨ent, he⟩ := Dict.mem_keys_get?.mp hn
      obtain ⟨old, ho, rfl⟩ := pruneNodes_some he
      obtain ⟨x, hx⟩ := List.exists_mem_of_ne_nil _ (hlinks n _ he)
      obtain ⟨hold, hopen⟩ := mem_keptLinks.mp hx
      exact ⟨x.1, holds_iff.mpr ⟨old, ho, Dict.mem_keys.mpr ⟨x.2, hold⟩⟩, hopen⟩
    · rw [hn] at hrefused
      cases hrefused

/-! ## every run -/

theorem placed_init (token : Bytes) (allowed : List Nat) (net clock : Nat) :
    Placed (init token allowed (subnetNet net) clock) :=
  ⟨subnetNet_mod net, nofun, nofun⟩

/-- **Virtual addresses are unique and stable.**  In every reachable state the entries have distinct
addresses among the hosts of the subnet; along any continuation an entry stays, with its address,
as long as it has an open link; and a new node with a valid token is refused only when 253 nodes
have one. -/
theorem addresses_unique_stable {token : Bytes} {allowed : List Nat} {net clock : Nat}
    {tr : List (Relay × RelayAct)} {s : Relay}
    (h : Path next (init token allowed (subnetNet net) clock) tr s) :
    (∀ n m e e', s.nodes.get? n = some e → s.nodes.get? m = some e' → n ≠ m → e.virt ≠ e'.virt) ∧
    (∀ n e, s.nodes.get? n = some e → ∃ i, 2 ≤ i ∧ i ≤ 254 ∧ e.virt = s.subnet_net ||| i) ∧
    (∀ n e tr' t, s.nodes.get? n = some e → Path next s tr' t →
      (∀ x ∈ tr', x.1.hasOpenLink n) → ∃ e', t.nodes.get? n = some e' ∧ e'.virt = e.virt) ∧
    (∀ w ip f, s.tokenOk f.token = true → s.nodes.get? f.node = none →
      (s.registerNode w ip f).2 = false →
      ∃ ns : List Nat, ns.Nodup ∧ ns.length = 253 ∧ ∀ n ∈ ns, s.hasOpenLink n) := by
  have hp : Placed s := h.inv (placed_init token allowed net clock) fun _ _ _ hu => next_placed hu
  refine ⟨?_, ?_, ?_, ?_⟩
  · intro n m e e' hn hm hne hv
    exact hne (hp.unique n m e e' hn hm hv)
  · intro n e hn
    obtain ⟨i, hi, hv⟩ := List.mem_map.mp (hp.host n e hn)
    have hlt := List.mem_range.mp hi
    exact ⟨i + 2, by omega, by omega, hv.symm⟩
  · intro n e tr' t hn hrun ho
    exact path_keeps_open hrun ho e hn
  · intro w ip f htok hnew hno
    exact full_of_refused hp htok hnew hno

/-- two nodes register -/
def twoNodes : List RelayAct :=
  [.accept 1 "10.0.0.9", .node 1 [3, 0, 0, 0, 0, 0, 1, 0x13, 0x88, 0], .accept 2 "10.0.0.10",
    .node 2 [3, 0, 0, 0, 0, 0, 2, 0x13, 0x88, 0]]

/-- the second one leaves, and a third one registers -/
def secondLeaves : List RelayAct :=
  [.close 2, .gone 2, .accept 3 "10.0.0.11", .node 3 [3, 0, 0, 0, 0, 0, 3, 0x13, 0x88, 0]]

/-- the link of node 1 stays open: it keeps its address while others come and go -/
theorem addresses_twoNodes : ∃ s t e e' e1,
    run next (init [] [] (subnetNet 0x0AC80000) 0) twoNodes = some s ∧
    run next s secondLeaves = some t ∧ s.nodes.get? 1 = some e ∧ s.nodes.get? 2 = some e' ∧
    e.virt ≠ e'.virt ∧ ¬ t.holds 2 2 ∧ t.nodes.get? 1 = some e1 ∧ e1.virt = e.virt := by
  have hrun : (run next (init [] [] (subnetNet 0x0AC80000) 0) twoNodes).isSome = true := by
    decide +kernel
  obtain ⟨s, hs⟩ := Option.isSome_iff_exists.mp hrun
  have hfacts : ∀ s ∈ run next (init [] [] (subnetNet 0x0AC80000) 0) twoNodes,
      (s.nodes.get? 1).isSome = true ∧ (s.nodes.get? 2).isSome = true ∧
      (run next s secondLeaves).isSome = true ∧
      (∀ t ∈ run next s secondLeaves, ¬ t.holds 2 2) ∧
      ∀ x ∈ trace next s secondLeaves, x.1.holds 1 1 ∧ x.1.isClosing 1 = false := by
    decide +kernel
  obtain ⟨h1, h2, hnext, hgone, hopen⟩ := hfacts s hs
  obtain ⟨e, he⟩ := Option.isSome_iff_exists.mp h1
  obtain ⟨e', he'⟩ := Option.isSome_iff_exists.mp h2
  obtain ⟨t, ht⟩ := Option.isSome_iff_exists.mp hnext
  obtain ⟨hunique, -, hkeep, -⟩ := addresses_unique_stable (path_run hs)
  obtain ⟨e1, he1, hv⟩ := hkeep 1 e _ t he (path_run ht) fun x hx => ⟨1, hopen x hx⟩
  exact ⟨s, t, e, e', e1, hs, ht, he, he', hunique 1 2 e e' he he' (by decide), hgone t ht, he1, hv⟩

end Relay

end ShadowLan
