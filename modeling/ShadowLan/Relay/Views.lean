import ShadowLan.Relay.Assign
import ShadowLan.Relay.Addresses
import ShadowLan.Relay.Links
import ShadowLan.Relay.Stall
import Mathlib.Data.List.Perm.Basic

/-!
# Everyone knows the members

While something is pending, a member may be behind.  It is then owed an announcement: one that
waits at its queue, one that will still come to it, or one that the handler of a closing connection
starts when it ends.

* `Quiet`            a change of the tables that changes no announcement;
* `Owed`             a node is dark, and a handler that will announce it is still running;
* `Told`             a member is up to date or owed an announcement;
* `Calm`             the steps that keep it so;
* `views_at_rest`    in a run of such steps, the views agree whenever nothing is pending.
-/

namespace ShadowLan

namespace Relay
variable {s t : Relay}

/-- a connection that gets announcements -/
def Listed (s : Relay) (w : Writer) : Prop :=
  s.isClosing w = false ∧ ∃ n, s.writer_node.get? w = some n

/-- a node went dark, and the handler of its connection has yet to end -/
def Owed (s : Relay) : Prop :=
  ∃ w n ip, s.players.get? w = some ip ∧ s.isClosing w = true ∧ s.writer_node.get? w = some n ∧
    (∃ ent, s.nodes.get? n = some ent) ∧ ¬ s.hasOpenLink n

/-- the tables have changed, and no announcement has -/
structure Quiet (s t : Relay) : Prop where
  listed : ∀ w, t.Listed w → s.Listed w
  assign : ∀ w, t.Listed w → t.assign w = s.assign w
  owed : s.Owed → t.Owed

/-! ## the members -/

theorem isLive_iff {n : Nat} {ent : Node} (h : s.nodes.get? n = some ent) :
    s.isLive ent = true ↔ s.hasOpenLink n := by
  unfold isLive hasOpenLink
  rw [List.any_eq_true]
  constructor
  · rintro ⟨w, hw, hc⟩
    exact ⟨w, holds_iff.mpr ⟨ent, h, hw⟩, by simpa using hc⟩
  · rintro ⟨w, hw, hc⟩
    obtain ⟨e, he, hk⟩ := holds_iff.mp hw
    cases Option.some.inj (h.symm.trans he)
    exact ⟨w, hk, by simp [hc]⟩

/-- the entries keep their place, their address and whether they are live -/
theorem members_congr {g : Nat × Node → Nat × Node} (hi : t.nodes.items = s.nodes.items.map g)
    (hg : ∀ e, (g e).1 = e.1 ∧ (g e).2.virt = e.2.virt)
    (ho : ∀ n, t.hasOpenLink n ↔ s.hasOpenLink n) : t.members = s.members := by
  unfold members
  rw [hi, List.filter_map, List.map_map]
  have hf : s.nodes.items.filter ((fun e => decide (e.2.virt ≠ 0) && t.isLive e.2) ∘ g)
      = s.nodes.items.filter fun e => decide (e.2.virt ≠ 0) && s.isLive e.2 := by
    apply List.filter_congr
    intro e he
    have hs : s.nodes.get? e.1 = some e.2 := Dict.get?_eq_some.mpr he
    have ht : t.nodes.get? e.1 = some (g e).2 := by
      rw [← (hg e).1, Dict.get?_eq_some, hi]
      exact List.mem_map_of_mem he
    have hlive : t.isLive (g e).2 = s.isLive e.2 :=
      Bool.eq_iff_iff.mpr ((isLive_iff ht).trans ((ho e.1).trans (isLive_iff hs).symm))
    show (decide ((g e).2.virt ≠ 0) && t.isLive (g e).2) = _
    rw [(hg e).2, hlive]
  rw [hf]
  apply List.map_congr_left
  intro e _
  exact Prod.ext (hg e).1 (hg e).2

theorem members_of_nodes (hn : t.nodes = s.nodes) (ho : ∀ n, t.hasOpenLink n ↔ s.hasOpenLink n) :
    t.members = s.members := by
  apply members_congr (g := id) _ (fun _ => ⟨rfl, rfl⟩) ho
  rw [hn, List.map_id]

theorem holds_of_nodes (hn : t.nodes = s.nodes) {n : Nat} {w : Writer} :
    t.holds n w ↔ s.holds n w := by
  unfold holds link?
  rw [hn]

theorem SameMembers.members (h : SameMembers s t) : t.members = s.members := by
  have key : ∀ r : Relay, r.members = (r.roster.filter fun x =>
      decide (x.2.1 ≠ 0) && x.2.2.any fun w => !r.isClosing w).map fun x => (x.1, x.2.1) := by
    intro r
    unfold Relay.members Relay.roster
    rw [List.filter_map, List.map_map]
    rfl
  rw [key, key, h.roster, h.isClosing]

/-- the announcement to a connection depends on its entry in `writer_node`, on the address of that
node, and on the members -/
theorem assign_congr {w : Writer} {n : Nat} (hs : t.subnet_net = s.subnet_net)
    (hm : t.members = s.members) (hw : s.writer_node.get? w = some n)
    (hw' : t.writer_node.get? w = some n)
    (hv : (t.nodes.get? n).map Node.virt = (s.nodes.get? n).map Node.virt) :
    t.assign w = s.assign w := by
  unfold assign ownVirt
  rw [hs, hm, hw, hw']
  show Assign.mk (((t.nodes.get? n).map Node.virt).getD 0) _ _ = _
  rw [hv]
  rfl

/-! ## changes that no one needs to hear of -/

theorem Quiet.of_same (h : SameMembers s t) : Quiet s t := by
  have hlisted : ∀ w, t.Listed w ↔ s.Listed w := by
    intro w
    unfold Listed
    rw [h.isClosing, h.writer_node]
  have hvirt : ∀ n, (t.nodes.get? n).map Node.virt = (s.nodes.get? n).map Node.virt := by
    intro n
    apply Option.ext
    intro v
    rw [Option.map_eq_some_iff, Option.map_eq_some_iff]
    constructor
    · rintro ⟨ent, he, rfl⟩
      obtain ⟨old, ho, hv, _⟩ := h.get? he
      exact ⟨old, ho, hv⟩
    · rintro ⟨ent, he, rfl⟩
      obtain ⟨old, ho, hv, _⟩ := h.symm.get? he
      exact ⟨old, ho, hv⟩
  refine ⟨fun w hw => (hlisted w).mp hw, ?_, ?_⟩
  · intro w hw
    obtain ⟨_, n, hn⟩ := (hlisted w).mp hw
    refine assign_congr h.subnet h.members hn ?_ (hvirt n)
    rw [h.writer_node]
    exact hn
  · rintro ⟨w, n, ip, hp, hc, hn, ⟨ent, he⟩, ho⟩
    obtain ⟨e, he, _⟩ := h.symm.get? he
    refine ⟨w, n, ip, ?_, ?_, ?_, ⟨e, he⟩, fun hh => ho (h.hasOpenLink.mp hh)⟩
    · rw [h.players]
      exact hp
    · rw [h.isClosing]
      exact hc
    · rw [h.writer_node]
      exact hn

/-- other connections start or stop closing, without a node going dark -/
theorem Quiet.of_nodes (hn : t.nodes = s.nodes) (hw : t.writer_node = s.writer_node)
    (hs : t.subnet_net = s.subnet_net) (ho : ∀ n, t.hasOpenLink n ↔ s.hasOpenLink n)
    (hl : ∀ w n, s.writer_node.get? w = some n → t.isClosing w = false → s.isClosing w = false)
    (hp : ∀ w n ip, s.writer_node.get? w = some n → s.players.get? w = some ip →
      s.isClosing w = true → (∃ ip, t.players.get? w = some ip) ∧ t.isClosing w = true) :
    Quiet s t := by
  refine ⟨?_, ?_, ?_⟩
  · rintro w ⟨hc, n, hnode⟩
    rw [hw] at hnode
    exact ⟨hl w n hnode hc, n, hnode⟩
  · rintro w ⟨hc, n, hnode⟩
    have hnode' := hnode
    rw [hw] at hnode
    refine assign_congr hs (members_of_nodes hn ho) hnode hnode' ?_
    rw [hn]
  · rintro ⟨w, n, ip, hip, hc, hnode, hent, hdark⟩
    obtain ⟨⟨ip', hip'⟩, hc'⟩ := hp w n ip hnode hip hc
    refine ⟨w, n, ip', hip', hc', ?_, ?_, fun h => hdark ((ho n).mp h)⟩
    · rw [hw]
      exact hnode
    · rw [hn]
      exact hent

/-- a new connection has no link -/
theorem Quiet.accept {w : Writer} {ip : String} (ht : OpenTied s) (hw : s.players.get? w = none)
    (hl : s.isLink w = false) :
    Quiet s { s with players := s.players.set w ip, closing := s.closing.filter (· ≠ w) } := by
  generalize hu : ({ s with players := s.players.set w ip
                            closing := s.closing.filter (· ≠ w) } : Relay) = u
  have hnodes : u.nodes = s.nodes := by rw [← hu]
  have hclosing : ∀ v, v ≠ w → u.isClosing v = s.isClosing v := by
    intro v hv
    rw [← hu]
    unfold isClosing
    simp [hv]
  have hname : ∀ v n, s.writer_node.get? v = some n → v ≠ w := by
    rintro v n hn rfl
    obtain ⟨i, hi⟩ := ht.named n v hn
    rw [hw] at hi
    cases hi
  have hlink : ∀ v n, s.holds n v → v ≠ w := by
    rintro v n hn rfl
    rw [isLink_of_holds hn] at hl
    cases hl
  refine .of_nodes hnodes (by rw [← hu]) (by rw [← hu]) ?_ ?_ ?_
  · intro n
    unfold hasOpenLink
    apply exists_congr
    intro v
    rw [holds_of_nodes hnodes]
    apply and_congr_right
    intro hv
    rw [hclosing v (hlink v n hv)]
  · intro v n hn hc
    rw [← hclosing v (hname v n hn)]
    exact hc
  · intro v n i hn hi hc
    have hv := hname v n hn
    refine ⟨⟨i, ?_⟩, ?_⟩
    · rw [← hu]
      exact (Dict.get?_set_of_ne _ _ hv).trans hi
    · rw [hclosing v hv]
      exact hc

theorem isClosing_close {w v : Writer} :
    ({ s with closing := w :: s.closing } : Relay).isClosing v = (decide (v = w) || s.isClosing v) := by
  unfold isClosing
  simp

/-- a connection that starts to close takes the last open link of its node with it, or no one needs
to hear of it -/
theorem quiet_or_owed_close {w : Writer} {ip : String} (ht : OpenTied s)
    (hw : s.players.get? w = some ip) :
    Quiet s { s with closing := w :: s.closing } ∨ Owed { s with closing := w :: s.closing } := by
  generalize hu : ({ s with closing := w :: s.closing } : Relay) = u
  have hnodes : u.nodes = s.nodes := by rw [← hu]
  have hclosing : ∀ v, u.isClosing v = (decide (v = w) || s.isClosing v) := by
    intro v
    rw [← hu]
    exact isClosing_close
  by_cases hlast : ∃ n, s.hasOpenLink n ∧ ¬ u.hasOpenLink n
  · obtain ⟨n, ⟨v, hv, hc⟩, hdark⟩ := hlast
    -- the open link that is gone is the one of `w`
    have hvw : v = w := by
      by_contra hne
      apply hdark
      refine ⟨v, (holds_of_nodes hnodes).mpr hv, ?_⟩
      rw [hclosing, hc]
      simp [hne]
    rw [hvw] at hv hc
    have hnode := (ht.one w hc n).mp hv
    obtain ⟨ent, he, _⟩ := holds_iff.mp hv
    refine Or.inr ⟨w, n, ip, ?_, ?_, ?_, ⟨ent, ?_⟩, hdark⟩
    · rw [← hu]
      exact hw
    · rw [hclosing]
      simp
    · rw [← hu]
      exact hnode
    · rw [hnodes]
      exact he
  · push Not at hlast
    have hsub : ∀ v, u.isClosing v = false → s.isClosing v = false := by
      intro v hc
      rw [hclosing, Bool.or_eq_false_iff] at hc
      exact hc.2
    refine Or.inl (.of_nodes hnodes (by rw [← hu]) (by rw [← hu]) ?_ ?_ ?_)
    · intro n
      constructor
      · rintro ⟨v, hv, hc⟩
        exact ⟨v, (holds_of_nodes hnodes).mp hv, hsub v hc⟩
      · exact hlast n
    · intro v n _ hc
      exact hsub v hc
    · intro v n i _ hi hc
      refine ⟨⟨i, ?_⟩, ?_⟩
      · rw [← hu]
        exact hi
      · rw [hclosing, hc, Bool.or_true]

theorem isDark_iff {n : Nat} : s.isDark n = true ↔ ¬ s.hasOpenLink n := by
  unfold isDark
  cases he : s.nodes.get? n with
  | none =>
    refine iff_of_true rfl ?_
    rintro ⟨w, hw, _⟩
    obtain ⟨ent, he', _⟩ := holds_iff.mp hw
    rw [he] at he'
    cases he'
  | some ent =>
    show (!s.isLive ent) = true ↔ _
    rw [Bool.not_eq_true', ← Bool.not_eq_true, isLive_iff he]

/-- a connection ends, and its node has another open link -/
theorem quiet_teardown {w : Writer} (ht : OpenTied s)
    (h : ∀ n ent, s.writer_node.get? w = some n → s.nodes.get? n = some ent →
      (s.teardown w).hasOpenLink n) : Quiet s (s.teardown w) := by
  have hsub : ∀ n, (s.teardown w).hasOpenLink n → s.hasOpenLink n := by
    rintro n ⟨v, hv, hc⟩
    exact ⟨v, (holds_teardown.mp hv).1, (isClosing_teardown.mp hc).2⟩
  have ho : ∀ n, (s.teardown w).hasOpenLink n ↔ s.hasOpenLink n := by
    intro n
    refine ⟨hsub n, ?_⟩
    rintro ⟨v, hv, hc⟩
    by_cases hvw : v = w
    · rw [hvw] at hv hc
      obtain ⟨ent, he, _⟩ := holds_iff.mp hv
      exact h n ent ((ht.one w hc n).mp hv) he
    · exact ⟨v, holds_teardown.mpr ⟨hv, fun h => hvw h.1⟩, isClosing_teardown.mpr ⟨hvw, hc⟩⟩
  have hmembers : (s.teardown w).members = s.members := by
    rcases teardown_nodes s w with ⟨_, heq⟩ | ⟨n, _, heq⟩
    · exact members_of_nodes heq ho
    · apply members_congr (g := fun e => (e.1, if e.1 = n then
        { e.2 with links := e.2.links.pop w, seen_tcp := s.clock } else e.2)) _ _ ho
      · rw [heq]
        rfl
      · intro e
        refine ⟨rfl, ?_⟩
        dsimp only
        split <;> rfl
  have hent : ∀ n, ((s.teardown w).nodes.get? n).map Node.virt = (s.nodes.get? n).map Node.virt := by
    intro n
    rcases teardown_nodes s w with ⟨_, heq⟩ | ⟨m, _, heq⟩
    · rw [heq]
    · rw [heq, Dict.get?_modify]
      by_cases hm : n = m
      · rw [if_pos hm, hm, Option.map_map]
        rfl
      · rw [if_neg hm]
  have hname : ∀ v n, v ≠ w → s.writer_node.get? v = some n →
      (s.teardown w).writer_node.get? v = some n := by
    intro v n hv hn
    rw [teardown_writer_node, Dict.get?_pop_of_ne _ hv]
    exact hn
  refine ⟨?_, ?_, ?_⟩
  · rintro v ⟨hc, n, hn⟩
    obtain ⟨hv, hc⟩ := isClosing_teardown.mp hc
    rw [teardown_writer_node, Dict.get?_pop_of_ne _ hv] at hn
    exact ⟨hc, n, hn⟩
  · rintro v ⟨hc, n, hn⟩
    obtain ⟨hv, hc⟩ := isClosing_teardown.mp hc
    have hold := hn
    rw [teardown_writer_node, Dict.get?_pop_of_ne _ hv] at hold
    exact assign_congr (teardown_subnet s w) hmembers hold hn (hent n)
  · rintro ⟨v, n, ip, hip, hc, hn, ⟨ent, he⟩, hdark⟩
    have hv : v ≠ w := by
      rintro rfl
      exact hdark (hsub n (h n ent hn he))
    have hent' : ∃ e, (s.teardown w).nodes.get? n = some e := by
      have hm := hent n
      rw [he] at hm
      obtain ⟨e, he, _⟩ := Option.map_eq_some_iff.mp hm
      exact ⟨e, he⟩
    refine ⟨v, n, ip, ?_, ?_, hname v n hv hn, hent', fun hh => hdark (hsub n hh)⟩
    · rw [teardown_players, Dict.get?_pop_of_ne _ hv]
      exact hip
    · by_contra hopen
      have hopen := (isClosing_teardown.mp (Bool.eq_false_iff.mpr hopen)).2
      rw [hc] at hopen
      cases hopen

/-! ## a refused registration -/

/-- the subnet is full only when every node has an open link -/
theorem open_of_refused (hp : Placed s) {m : Nat} (hno : (s.newNode m).2 = false) {n : Nat}
    {ent : Node} (he : s.nodes.get? n = some ent) : s.hasOpenLink n := by
  rcases newNode_cases s m with ⟨v, _, heq⟩ | ⟨hfull, _, hlinks⟩ | ⟨a, e, _, _, heq⟩
  · rw [heq] at hno
    cases hno
  · have hkept : ∀ e, s.pruneNodes.nodes.get? n = some e → s.hasOpenLink n := by
      intro e hpe
      obtain ⟨old, ho, rfl⟩ := pruneNodes_some hpe
      obtain ⟨x, hx⟩ := List.exists_mem_of_ne_nil _ (hlinks n _ hpe)
      obtain ⟨hold, hc⟩ := mem_keptLinks.mp hx
      exact ⟨x.1, holds_iff.mpr ⟨old, ho, Dict.mem_keys.mpr ⟨x.2, hold⟩⟩, hc⟩
    -- a node that pruning has forgotten would have left its address free
    have hhost : ent.virt ∈ s.pruneNodes.hosts := by
      unfold hosts
      rw [(base_pruneNodes s).subnet]
      exact hp.host n ent he
    obtain ⟨e, he', hv⟩ := List.mem_map.mp (freeVirt_none hfull _ hhost)
    obtain ⟨k, hk⟩ := Dict.mem_values.mp he'
    have hget := Dict.get?_eq_some.mpr hk
    obtain ⟨old, ho, rfl⟩ := pruneNodes_some hget
    have hkn := hp.unique k n old ent ho he hv
    exact hkept _ (hkn ▸ hget)
  · rw [heq] at hno
    cases hno

theorem keys_pruneNode {n : Nat} {ent : Node} (hn : n ∈ s.nodes.keys)
    (hk : (s.keptLinks ent).items ≠ []) : (s.pruneNode n ent).nodes.keys = s.nodes.keys := by
  have heq : (s.pruneNode n ent).nodes = s.nodes.set n { ent with links := s.keptLinks ent } := by
    unfold pruneNode
    dsimp only
    rw [if_pos (by simpa [keptLinks] using hk)]
    rfl
  rw [heq]
  exact Dict.keys_set _ hn

theorem keys_pruneNodes (h : ∀ e ∈ s.nodes.items, (s.keptLinks e.2).items ≠ []) :
    s.pruneNodes.nodes.keys = s.nodes.keys := by
  have key : ∀ (l : List (Nat × Node)) (u : Relay), SameBase s u → u.nodes.keys = s.nodes.keys →
      (∀ e ∈ l, e ∈ s.nodes.items) →
      (l.foldl (fun s e => s.pruneNode e.1 e.2) u).nodes.keys = s.nodes.keys := by
    intro l
    induction l with
    | nil => exact fun _ _ hu _ => hu
    | cons e l ih =>
      intro u hb hu hl
      have hmem := hl e List.mem_cons_self
      have hkept : u.keptLinks e.2 = s.keptLinks e.2 := by
        unfold keptLinks
        rw [hb.isClosing]
      have hstep : (u.pruneNode e.1 e.2).nodes.keys = u.nodes.keys := by
        apply keys_pruneNode
        · rw [hu]
          exact Dict.mem_keys.mpr ⟨e.2, hmem⟩
        · rw [hkept]
          exact h e hmem
      exact ih _ (hb.trans (base_pruneNode u e.1 e.2)) (hstep.trans hu)
        fun x hx => hl x (List.mem_cons_of_mem _ hx)
  exact key _ s (.refl s) rfl fun _ he => he

/-- pruning in front of a refused registration -/
theorem quiet_prune (hall : ∀ n ent, s.nodes.get? n = some ent → s.hasOpenLink n) :
    Quiet s s.pruneNodes := by
  have hb := base_pruneNodes s
  have hkept : ∀ n ent, s.nodes.get? n = some ent → (s.keptLinks ent).items ≠ [] :=
    fun n ent he => kept_of_open he (hall n ent he)
  have hget : ∀ n ent, s.nodes.get? n = some ent →
      s.pruneNodes.nodes.get? n = some { ent with links := s.keptLinks ent } := by
    intro n ent he
    rcases pruneNodes_get? he with hp | ⟨_, hno⟩
    · exact hp
    · exact absurd hno (hkept n ent he)
  have ho : ∀ n, s.pruneNodes.hasOpenLink n ↔ s.hasOpenLink n := by
    intro n
    unfold hasOpenLink
    rw [hb.isClosing]
    apply exists_congr
    intro w
    rw [holds_prune, and_assoc, and_self]
  have hmembers : s.pruneNodes.members = s.members := by
    refine members_congr (g := fun e => (e.1, { e.2 with links := s.keptLinks e.2 })) ?_
      (fun _ => ⟨rfl, rfl⟩) ho
    exact Dict.items_eq_map (f := fun ent => { ent with links := s.keptLinks ent })
      (keys_pruneNodes fun e he => hkept e.1 e.2 (Dict.get?_eq_some.mpr he)) hget
  refine ⟨?_, ?_, ?_⟩
  · rintro w ⟨hc, n, hn⟩
    rw [hb.isClosing] at hc
    exact ⟨hc, n, writerNode_pruneNodes hn⟩
  · rintro w ⟨_, n, hn⟩
    refine assign_congr hb.subnet hmembers (writerNode_pruneNodes hn) hn ?_
    cases he : s.nodes.get? n with
    | none => rw [pruneNodes_none he]
    | some ent => rw [hget n ent he]; rfl
  · rintro ⟨w, n, ip, _, _, _, ⟨ent, he⟩, hdark⟩
    exact absurd (hall n ent he) hdark

end Relay

/-! ## owed announcements -/

/-- the announcement will still send to `w` -/
def Job.Covers (w : Writer) : Job → Prop
  | .registered _ => True
  | .scheduled => True
  | .loop own todo => own ≠ some w ∧ w ∈ todo
  | .waiting own _ _ _ todo => own ≠ some w ∧ ∀ l, todo = some l → w ∈ l

namespace Hall
variable {h h' : Hall}

inductive Told (h : Hall) (w : Writer) : Prop
  | current (hl : h.last w = some (h.relay.assign w)) (hj : ∀ j ∈ h.jobs, j.target ≠ some w)
  | asleep (own : Option Writer) (c : Call) (todo : Option (List Writer))
      (hj : Job.waiting own w c (h.relay.assign w) todo ∈ h.jobs)
  | coming (j : Job) (hj : j ∈ h.jobs) (hc : j.Covers w)
  | owed (ho : h.relay.Owed)

structure Inv (h : Hall) : Prop where
  tied : h.relay.OpenTied
  placed : h.relay.Placed
  /-- at each queue sleeps one announcement at most -/
  single : (h.jobs.filterMap Job.target).Nodup
  told : ∀ w, h.relay.Listed w → h.Told w

/-- the announcement may go on: no other one sleeps at the queue that it is about to send to, and the
queue that it sleeps at itself is still in place -/
def Ready (h : Hall) (others : List Job) : Job → Prop
  | .registered w => ∀ j ∈ others, j.target ≠ some w
  | .loop own (x :: _) => h.skips own x = false → ∀ j ∈ others, j.target ≠ some x
  | .waiting _ x c _ _ => ∃ e ∈ (h.wq x).entry, c.queue = some e.q
  | _ => True

instance (h : Hall) (others : List Job) : DecidablePred (h.Ready others)
  | .registered w => inferInstanceAs (Decidable (∀ j ∈ others, j.target ≠ some w))
  | .loop own (x :: _) =>
    inferInstanceAs (Decidable (h.skips own x = false → ∀ j ∈ others, j.target ≠ some x))
  | .waiting _ x c _ _ => inferInstanceAs (Decidable (∃ e ∈ (h.wq x).entry, c.queue = some e.q))
  | .scheduled | .loop _ [] => isTrue trivial

/-- the steps that keep the members told -/
def Calm (h : Hall) : HallAct → Prop
  | .relay (.node w payload) =>
    ∀ f, decodeCtlNode payload = some f → f.node ≠ 0 → h.relay.letsIn f = true →
      h.relay.isClosing w = false → ∀ n, h.relay.holds n w → n = f.node
  | .job i => ∀ j ∈ h.jobs[i]?, h.Ready (h.jobs.eraseIdx i) j
  | _ => True

instance (h : Hall) : DecidablePred h.Calm
  | .relay (.node w payload) => by unfold Calm; infer_instance
  | .job i => inferInstanceAs (Decidable (∀ j ∈ h.jobs[i]?, h.Ready (h.jobs.eraseIdx i) j))
  | .queue .. => isTrue trivial
  | .relay (.accept ..) | .relay (.close _) | .relay (.udpMode _) | .relay (.tun ..)
  | .relay (.gone _) | .relay (.datagram ..) | .relay (.tick _) => isTrue trivial

theorem Told.mono {w : Writer} (ht : h.Told w) (hj : ∀ j, j ∈ h'.jobs ↔ j ∈ h.jobs)
    (hl : h'.last w = h.last w) (ha : h'.relay.assign w = h.relay.assign w)
    (ho : h.relay.Owed → h'.relay.Owed) : h'.Told w := by
  cases ht with
  | current hlast hjobs =>
    refine .current ?_ fun j hm => hjobs j ((hj j).mp hm)
    rw [hl, ha, hlast]
  | asleep own c todo hm =>
    refine .asleep own c todo ((hj _).mpr ?_)
    rw [ha]
    exact hm
  | coming j hm hc => exact .coming j ((hj j).mpr hm) hc
  | owed hd => exact .owed (ho hd)

theorem Told.addJobs {w : Writer} (ht : h.Told w) {js : List Job}
    (hjs : ∀ j ∈ js, j.target ≠ some w) : (h.addJobs js).Told w := by
  cases ht with
  | current hlast hjobs =>
    refine .current hlast ?_
    intro j hm
    rcases List.mem_append.mp hm with hm | hm
    · exact hjobs j hm
    · exact hjs j hm
  | asleep own c todo hm => exact .asleep own c todo (List.mem_append_left _ hm)
  | coming j hm hc => exact .coming j (List.mem_append_left _ hm) hc
  | owed hd => exact .owed hd

/-- a change of the tables that no announcement depends on -/
theorem Inv.quiet (hi : Inv h) (hq : h.relay.Quiet h'.relay) (ht : h'.relay.OpenTied)
    (hp : h'.relay.Placed) (hj : h'.jobs = h.jobs)
    (hl : ∀ w, h'.relay.Listed w → h'.last w = h.last w) : Inv h' := by
  refine ⟨ht, hp, ?_, ?_⟩
  · rw [hj]
    exact hi.single
  · intro w hw
    exact (hi.told w (hq.listed w hw)).mono (fun j => by rw [hj]) (hl w hw) (hq.assign w hw) hq.owed

/-- everyone will hear of a change of the tables -/
theorem Inv.announced (ht : h.relay.OpenTied) (hp : h.relay.Placed)
    (hs : (h.jobs.filterMap Job.target).Nodup) {j : Job} (hj : j.target = none)
    (hc : ∀ w, j.Covers w) : Inv (h.addJobs [j]) := by
  refine ⟨ht, hp, ?_, ?_⟩
  · show ((h.jobs ++ [j]).filterMap Job.target).Nodup
    rw [List.filterMap_append]
    simp [hj, hs]
  · intro w _
    exact .coming j (List.mem_append_right _ List.mem_cons_self) (hc w)

/-- **The end of a connection**: either its node has another open link, or everyone is told -/
theorem Inv.leave (hi : Inv h) (w : Writer) : Inv (h.leave w) := by
  have ht := hi.tied.teardown w
  have hp := hi.placed.teardown w
  have hquiet : (∀ n ent, h.relay.writer_node.get? w = some n → h.relay.nodes.get? n = some ent →
      (h.relay.teardown w).isDark n = false) →
      Inv { h.setQueue w (h.wq w).retire with relay := h.relay.teardown w
                                              jobs := h.jobs ++ [] } := by
    intro hlive
    refine hi.quiet (Relay.quiet_teardown hi.tied ?_) ht hp (List.append_nil _) fun _ _ => rfl
    intro n ent hn he
    have hd := hlive n ent hn he
    rw [← Bool.not_eq_true, Relay.isDark_iff] at hd
    exact Classical.not_not.mp hd
  unfold Hall.leave
  dsimp only
  cases hn : h.relay.writer_node.get? w with
  | none => exact hquiet fun n ent hs => by rw [hn] at hs; cases hs
  | some n =>
    dsimp only
    by_cases hc : ((h.relay.nodes.get? n).isSome && (h.relay.teardown w).isDark n) = true
    · rw [if_pos hc]
      exact Inv.announced
        (h := { h.setQueue w (h.wq w).retire with relay := h.relay.teardown w })
        ht hp hi.single rfl fun _ => trivial
    · rw [if_neg hc]
      apply hquiet
      intro m ent hm he
      cases Option.some.inj (hn.symm.trans hm)
      rw [he] at hc
      simpa using hc

/-! ## one send -/

theorem mem_allWriters (ht : h.relay.OpenTied) {w : Writer} (hw : h.relay.Listed w) :
    w ∈ h.relay.allWriters := by
  obtain ⟨hc, n, hn⟩ := hw
  obtain ⟨x, hx, _, rfl⟩ := Relay.holds_iff_allLinks.mp ((ht.one w hc n).mpr hn)
  unfold Relay.allWriters
  exact List.mem_filter.mpr ⟨List.mem_map.mpr ⟨x, hx, rfl⟩, by simp [hc]⟩

section
variable {own : Option Writer} {x : Writer} {a : Assign} {todo : Option (List Writer)}
  {r : SendQ × Call}

theorem loop_covers (ht : h.relay.OpenTied) {w : Writer} (hw : h.relay.Listed w)
    (hc : own ≠ some w ∧ ∀ l, todo = some l → w ∈ l) :
    (Job.loop own (todo.getD h.relay.allWriters)).Covers w := by
  refine ⟨hc.1, ?_⟩
  cases todo with
  | none => exact mem_allWriters ht hw
  | some l => exact hc.2 l rfl

/-- a loop that is about to look at its next connection has no target -/
theorem single_addLoop {l : List Writer} (hs : (h.jobs.filterMap Job.target).Nodup) :
    ((h.addJobs [.loop own l]).jobs.filterMap Job.target).Nodup := by
  show ((h.jobs ++ [Job.loop own l]).filterMap Job.target).Nodup
  have hnil : [Job.loop own l].filterMap Job.target = [] := rfl
  rw [List.filterMap_append, hnil, List.append_nil]
  exact hs

theorem Told.addLoop {w : Writer} {l : List Writer} (hw : h.Told w) :
    (h.addJobs [.loop own l]).Told w := by
  apply hw.addJobs
  intro j hj
  rw [List.mem_singleton.mp hj]
  exact nofun

section
variable (ht : h.relay.OpenTied) (hp : h.relay.Placed)
  (hs : (h.jobs.filterMap Job.target).Nodup) (hx : ∀ j ∈ h.jobs, j.target ≠ some x)
  (htarget : h.relay.Listed x → a = h.relay.assign x ∨ (∃ j ∈ h.jobs, j.Covers x) ∨
    h.relay.Owed ∨ (own ≠ some x ∧ ∀ l, todo = some l → x ∈ l))
  (hother : ∀ w, w ≠ x → h.relay.Listed w →
    h.Told w ∨ (own ≠ some w ∧ ∀ l, todo = some l → w ∈ l))
include ht hp hs hx htarget hother

/-- the send sleeps -/
theorem Inv.sleeps (q : SendQ) (c : Call) :
    Inv ((h.setQueue x q).addJobs [.waiting own x c a todo]) := by
  have hnew : Job.waiting own x c a todo
      ∈ ((h.setQueue x q).addJobs [.waiting own x c a todo]).jobs :=
    List.mem_append_right _ List.mem_cons_self
  refine ⟨ht, hp, ?_, ?_⟩
  · show ((h.jobs ++ [Job.waiting own x c a todo]).filterMap Job.target).Nodup
    have hone : [Job.waiting own x c a todo].filterMap Job.target = [x] := rfl
    rw [List.filterMap_append, hone]
    refine List.nodup_append.mpr ⟨hs, List.nodup_singleton x, ?_⟩
    intro y hy z hz hyz
    obtain ⟨j, hj, hjy⟩ := List.mem_filterMap.mp hy
    rw [hyz, List.mem_singleton.mp hz] at hjy
    exact hx j hj hjy
  · intro w hw
    change h.relay.Listed w at hw
    by_cases hwx : w = x
    · rw [hwx] at hw ⊢
      rcases htarget hw with ha | ⟨j, hj, hc⟩ | ho | hcov
      · refine .asleep own c todo ?_
        rw [ha] at hnew ⊢
        exact hnew
      · exact .coming j (List.mem_append_left _ hj) hc
      · exact .owed ho
      · exact .coming _ hnew hcov
    · rcases hother w hwx hw with htold | hcov
      · refine Told.addJobs (h := h.setQueue x q) ?_ ?_
        · exact htold.mono (fun _ => Iff.rfl) rfl rfl id
        · intro j hj
          rw [List.mem_singleton.mp hj]
          exact fun h => hwx (Option.some.inj h).symm
      · exact .coming _ hnew hcov

/-- the send has been made -/
theorem Inv.sends (q : SendQ) : Inv (h.settle own x a todo (q, .returned)) := by
  generalize hu : ({ h.setQueue x q with last := Function.update h.last x (some a) } : Hall) = u
  have hrel : u.relay = h.relay := by rw [← hu]; rfl
  have hjobs : u.jobs = h.jobs := by rw [← hu]; rfl
  have hset : h.settle own x a todo (q, .returned)
      = u.addJobs [.loop own (todo.getD h.relay.allWriters)] := by rw [← hu]; rfl
  have hnew : Job.loop own (todo.getD h.relay.allWriters)
      ∈ (u.addJobs [.loop own (todo.getD h.relay.allWriters)]).jobs :=
    List.mem_append_right _ List.mem_cons_self
  rw [hset]
  refine ⟨hrel ▸ ht, hrel ▸ hp, ?_, ?_⟩
  · apply single_addLoop
    rw [hjobs]
    exact hs
  · intro w hw
    change u.relay.Listed w at hw
    rw [hrel] at hw
    by_cases hwx : w = x
    · rw [hwx] at hw ⊢
      rcases htarget hw with ha | ⟨j, hj, hc⟩ | ho | ⟨hne, hl⟩
      · refine Told.addLoop (.current ?_ ?_)
        · rw [← hu]
          show Function.update h.last x (some a) x = _
          rw [Function.update_self, ha]
          rfl
        · rw [hjobs]
          exact hx
      · exact Told.addLoop (.coming j (by rw [hjobs]; exact hj) hc)
      · exact Told.addLoop (.owed (by rw [hrel]; exact ho))
      · exact .coming _ hnew (loop_covers ht hw ⟨hne, hl⟩)
    · rcases hother w hwx hw with htold | ⟨hne, hl⟩
      · refine Told.addLoop (htold.mono (fun j => by rw [hjobs]) ?_ (by rw [hrel]) ?_)
        · rw [← hu]
          exact Function.update_of_ne hwx _ _
        · rw [hrel]
          exact id
      · exact .coming _ hnew (loop_covers ht hw ⟨hne, hl⟩)

/-- A send of `a` to `x` has been made or sleeps.  The target is up to date with `a`, unless it is
owed another announcement anyway; the others are told as before, or this one will come to them. -/
theorem Inv.settle (hr : r.2 ≠ .raised) : Inv (h.settle own x a todo r) := by
  obtain ⟨q, c⟩ := r
  cases c with
  | raised => exact absurd rfl hr
  | returned => exact .sends ht hp hs hx htarget hother q
  | polling q' f d => exact .sleeps ht hp hs hx htarget hother q _
  | putting q' f cnt byts => exact .sleeps ht hp hs hx htarget hother q _

end

end

/-! ## one step of an announcement -/

/-- a call that finds the queue it went to sleep at still in place does not raise -/
theorem resume_ne_raised {s : SendQ} {c : Call} {e : Entry} {r : SendQ × Call}
    (he : s.entry = some e) (hr : s.resume c = some r) : r.2 ≠ .raised := by
  have hput : ∀ q f d cnt byts, (s.put q f d cnt byts).2 ≠ .raised := by
    intro q f d cnt byts
    unfold SendQ.put
    split
    · cases d <;> exact nofun
    · exact nofun
  cases c with
  | polling q f d =>
    have hres : s.resume (.polling q f d) = some (s.attempt e q f d) := by
      unfold SendQ.resume
      rw [he]
    rw [hres] at hr
    rw [← Option.some.inj hr]
    unfold SendQ.attempt
    split
    · exact nofun
    · exact hput q f d _ _
  | putting q f cnt byts =>
    obtain ⟨_, hr⟩ := Option.ite_none_left_eq_some.mp
      (show (if s.isFull q then none else some _) = some r from hr)
    rw [← Option.some.inj hr]
    exact nofun
  | returned => cases hr
  | raised => cases hr

theorem rSend_ne_raised (s : SendQ) (m : UInt8) (p : Bytes) (d : Option Bool) :
    (s.rSend m p d).2 ≠ .raised := by
  unfold SendQ.rSend
  dsimp only
  split
  · exact nofun
  · unfold SendQ.attempt
    split
    · exact nofun
    · unfold SendQ.put
      split
      · split <;> exact nofun
      · exact nofun

section
variable {i : Nat} {j : Job}

theorem perm_jobs (hj : h.jobs[i]? = some j) : (j :: h.jobs.eraseIdx i).Perm h.jobs := by
  obtain ⟨hlt, hget⟩ := List.getElem?_eq_some_iff.mp hj
  rw [← hget]
  exact List.getElem_cons_eraseIdx_perm hlt

/-- what the other announcements and the one that is taken out do for a member -/
theorem Told.split {w : Writer} (ht : h.Told w) (hj : h.jobs[i]? = some j) :
    ({ h with jobs := h.jobs.eraseIdx i } : Hall).Told w ∨
      (∃ own c todo, j = .waiting own w c (h.relay.assign w) todo) ∨ j.Covers w := by
  have hmem : ∀ k, k ∈ h.jobs ↔ k = j ∨ k ∈ h.jobs.eraseIdx i := by
    intro k
    rw [← (perm_jobs hj).mem_iff, List.mem_cons]
  cases ht with
  | current hlast hjobs => exact Or.inl (.current hlast fun k hk => hjobs k ((hmem k).mpr (Or.inr hk)))
  | asleep own c todo hm =>
    rcases (hmem _).mp hm with heq | hm
    · exact Or.inr (Or.inl ⟨own, c, todo, heq.symm⟩)
    · exact Or.inl (.asleep own c todo hm)
  | coming k hm hc =>
    rcases (hmem k).mp hm with rfl | hm
    · exact Or.inr (Or.inr hc)
    · exact Or.inl (.coming k hm hc)
  | owed ho => exact Or.inl (.owed ho)

theorem Inv.erase (hi : Inv h) (hj : h.jobs[i]? = some j) :
    ((h.jobs.eraseIdx i).filterMap Job.target).Nodup ∧
      ∀ x, j.target = some x → ∀ k ∈ h.jobs.eraseIdx i, k.target ≠ some x := by
  have hnd : ((j :: h.jobs.eraseIdx i).filterMap Job.target).Nodup :=
    ((perm_jobs hj).filterMap Job.target).nodup_iff.mpr hi.single
  cases hx : j.target with
  | none =>
    rw [List.filterMap_cons_none hx] at hnd
    exact ⟨hnd, nofun⟩
  | some y =>
    rw [List.filterMap_cons_some hx] at hnd
    refine ⟨(List.nodup_cons.mp hnd).2, ?_⟩
    intro x hyx k hk hkx
    cases hyx
    exact (List.nodup_cons.mp hnd).1 (List.mem_filterMap.mpr ⟨k, hk, hkx⟩)

/-- a connection that is passed over needs no announcement -/
theorem Inv.passed {own : Option Writer} {x : Writer} {todo : List Writer}
    (ht : h.relay.OpenTied) (hp : h.relay.Placed) (hs : (h.jobs.filterMap Job.target).Nodup)
    (hskip : h.skips own x = true)
    (hall : ∀ w, h.relay.Listed w → h.Told w ∨ (Job.loop own (x :: todo)).Covers w) :
    Inv (h.addJobs [.loop own todo]) := by
  refine ⟨ht, hp, single_addLoop hs, ?_⟩
  intro w hw
  change h.relay.Listed w at hw
  rcases hall w hw with htold | ⟨hne, hmem⟩
  · exact htold.addLoop
  · refine .coming _ (List.mem_append_right _ List.mem_cons_self) ⟨hne, ?_⟩
    rcases List.mem_cons.mp hmem with rfl | hmem
    · obtain ⟨hc, n, hn⟩ := hw
      unfold skips at hskip
      rw [hc, hn] at hskip
      simp [hne] at hskip
    · exact hmem

/-- what the send that wakes up does for its own target -/
theorem Told.woken {own : Option Writer} {x : Writer} {c : Call} {a : Assign}
    {todo : Option (List Writer)} (ht : h.Told x)
    (hj : h.jobs[i]? = some (.waiting own x c a todo))
    (hx : ∀ k ∈ h.jobs.eraseIdx i, k.target ≠ some x) :
    a = h.relay.assign x ∨ (∃ k ∈ h.jobs.eraseIdx i, k.Covers x) ∨ h.relay.Owed ∨
      (Job.waiting own x c a todo).Covers x := by
  cases ht with
  | current _ hno => exact absurd rfl (hno _ (List.mem_of_getElem? hj))
  | asleep own' c' todo' hm =>
    rcases List.mem_cons.mp ((perm_jobs hj).mem_iff.mpr hm) with heq | hm
    · cases heq
      exact Or.inl rfl
    · exact absurd rfl (hx _ hm)
  | coming k hm hc =>
    rcases List.mem_cons.mp ((perm_jobs hj).mem_iff.mpr hm) with rfl | hm
    · exact Or.inr (Or.inr (Or.inr hc))
    · exact Or.inr (Or.inl ⟨k, hm, hc⟩)
  | owed ho => exact Or.inr (Or.inr (Or.inl ho))

/-- **An announcement goes on.** -/
theorem Inv.job (hi : Inv h) (hj : h.jobs[i]? = some j) (hcalm : h.Calm (.job i))
    (hadv : ({ h with jobs := h.jobs.eraseIdx i } : Hall).advance j = some h') : Inv h' := by
  obtain ⟨hs, hx⟩ := hi.erase hj
  have hcalm : h.Ready (h.jobs.eraseIdx i) j := hcalm j hj
  have hsplit := fun w hw => (hi.told w hw).split hj
  generalize hu : ({ h with jobs := h.jobs.eraseIdx i } : Hall) = u at hadv hsplit
  have hrel : u.relay = h.relay := by rw [← hu]
  have hjobs : u.jobs = h.jobs.eraseIdx i := by rw [← hu]
  have ht : u.relay.OpenTied := hrel ▸ hi.tied
  have hp : u.relay.Placed := hrel ▸ hi.placed
  rw [← hjobs] at hs hcalm
  cases j with
  | registered v =>
    rw [← Option.some.inj hadv]
    refine Inv.settle ht hp hs hcalm (fun _ => Or.inl rfl) ?_ (rSend_ne_raised _ _ _ _)
    intro w hw _
    exact Or.inr ⟨fun h => hw (Option.some.inj h).symm, nofun⟩
  | scheduled =>
    rw [← Option.some.inj hadv]
    refine ⟨ht, hp, single_addLoop hs, ?_⟩
    intro w hw
    exact .coming _ (List.mem_append_right _ List.mem_cons_self) ⟨nofun, mem_allWriters ht hw⟩
  | loop own l =>
    cases l with
    | nil =>
      rw [← Option.some.inj hadv]
      refine ⟨ht, hp, hs, ?_⟩
      intro w hw
      rcases hsplit w (hrel ▸ hw) with htold | ⟨_, _, _, heq⟩ | ⟨_, hmem⟩
      · exact htold
      · cases heq
      · cases hmem
    | cons x todo =>
      by_cases hskip : u.skips own x = true
      · have heq : u.advance (.loop own (x :: todo)) = some (u.addJobs [.loop own todo]) :=
          if_pos hskip
        rw [heq] at hadv
        rw [← Option.some.inj hadv]
        refine Inv.passed ht hp hs hskip fun w hw => ?_
        rcases hsplit w (hrel ▸ hw) with htold | ⟨_, _, _, heq⟩ | hc
        · exact Or.inl htold
        · cases heq
        · exact Or.inr hc
      · have heq : u.advance (.loop own (x :: todo)) = some (u.sendAssign own x (some todo)) :=
          if_neg hskip
        rw [heq] at hadv
        rw [← Option.some.inj hadv]
        have hskip' : h.skips own x = false := by
          rw [← hu] at hskip
          exact Bool.not_eq_true _ ▸ hskip
        refine Inv.settle ht hp hs (hcalm hskip') (fun _ => Or.inl rfl) ?_ (rSend_ne_raised _ _ _ _)
        intro w hwx hw
        rcases hsplit w (hrel ▸ hw) with htold | ⟨_, _, _, heq⟩ | ⟨hne, hmem⟩
        · exact Or.inl htold
        · cases heq
        · refine Or.inr ⟨hne, ?_⟩
          rintro l ⟨⟩
          rcases List.mem_cons.mp hmem with rfl | hmem
          · exact absurd rfl hwx
          · exact hmem
  | waiting own x c a todo =>
    obtain ⟨r, hr, rfl⟩ := Option.map_eq_some_iff.mp hadv
    obtain ⟨e, he, _⟩ := hcalm
    have hwq : u.wq x = h.wq x := by rw [← hu]; rfl
    have hx' : ∀ k ∈ u.jobs, k.target ≠ some x := by
      rw [hjobs]
      exact hx x rfl
    rw [← hwq] at he
    refine Inv.settle ht hp hs hx' ?_ ?_ (resume_ne_raised he hr)
    · intro hw
      rw [hrel] at hw ⊢
      rw [hjobs]
      exact (hi.told x hw).woken hj (hx x rfl)
    · intro w hwx hw
      rcases hsplit w (hrel ▸ hw) with htold | ⟨_, _, _, heq⟩ | hc
      · exact Or.inl htold
      · cases heq
        exact absurd rfl hwx
      · exact Or.inr hc

end

/-! ## the other steps -/

/-- a refused registration: a bad token, or a subnet that is full of nodes with open links -/
theorem Inv.refused (hi : Inv h) {w : Writer} {ip : String} {f : NodeFrame}
    (hout : h.relay.letsIn f = false) : Inv (h.withRelay (h.relay.registerNode w ip f).1) := by
  have hok := (Relay.registerNode_ok h.relay w ip f).trans hout
  have hp := hi.placed.registerNode w ip f
  rcases Relay.registerNode_cases h.relay w ip f with ⟨_, heq⟩ | ⟨_, _, heq⟩ | ⟨_, hnew, heq⟩
  · rw [heq]
    exact hi
  · rw [heq] at hok
    cases hok
  · by_cases hn : (h.relay.newNode f.node).2 = true
    · rw [heq, if_pos hn] at hok
      cases hok
    · have hfalse : (h.relay.newNode f.node).2 = false := Bool.eq_false_iff.mpr hn
      rw [heq, if_neg hn] at hp ⊢
      have hq := Relay.quiet_prune fun n ent he => Relay.open_of_refused hi.placed hfalse he
      have hprune : (h.relay.newNode f.node).1 = h.relay.pruneNodes := by
        rcases Relay.newNode_cases h.relay f.node with ⟨v, _, he⟩ | ⟨_, he, _⟩ | ⟨m, ent, _, _, he⟩
        · rw [he] at hfalse
          cases hfalse
        · rw [he]
        · rw [he] at hfalse
          cases hfalse
      refine hi.quiet ?_ (hi.tied.newNode hnew) hp rfl fun _ _ => rfl
      show h.relay.Quiet (h.relay.newNode f.node).1
      rw [hprune]
      exact hq

theorem Inv.nodeFrame (hi : Inv h) {w : Writer} {ip : String} {payload : Bytes}
    (hw : h.relay.players.get? w = some ip) (hcalm : h.Calm (.relay (.node w payload))) :
    Inv (h.nodeFrame w ip payload) := by
  unfold Hall.nodeFrame
  by_cases hver : ctlVer payload ≠ PVER
  · rw [if_pos hver]
    exact hi.leave w
  · rw [if_neg hver]
    cases hd : decodeCtlNode payload with
    | none => exact hi
    | some f =>
      dsimp only
      by_cases h0 : f.node = 0
      · rw [if_pos h0]
        exact hi
      · rw [if_neg h0, Relay.registerNode_ok]
        cases hin : h.relay.letsIn f with
        | true =>
          have ht := hi.tied.accepted hw hin (hcalm f hd h0 hin)
          exact Inv.announced (h := h.withRelay _) ht (hi.placed.registerNode w ip f) hi.single rfl
            fun _ => trivial
        | false => exact (hi.refused hin).leave w

theorem Inv.close (hi : Inv h) {w : Writer} {r : Relay}
    (hr : h.relay.next (.close w) = some r) : Inv (h.withRelay r) := by
  rcases Relay.next_cases hr with ⟨_, _, ha, _⟩ | ⟨v, ip, ha, hw, rfl⟩ | ⟨_, _, _, ha, _⟩ |
    ⟨_, _, ha, _⟩ | ⟨_, ha, _⟩ | ⟨⟨_, ha⟩ | ⟨_, _, ha⟩ | ⟨_, _, _, ha⟩, _⟩
  · cases ha
  · cases ha
    have ht := hi.tied.close w
    have hp : Relay.Placed { h.relay with closing := w :: h.relay.closing } :=
      ⟨hi.placed.subnet, hi.placed.unique, hi.placed.host⟩
    rcases Relay.quiet_or_owed_close hi.tied hw with hq | ho
    · exact hi.quiet hq ht hp rfl fun _ _ => rfl
    · exact ⟨ht, hp, hi.single, fun _ _ => .owed ho⟩
  · cases ha
  · cases ha
  · cases ha
  · cases ha
  · cases ha
  · cases ha

theorem Inv.same (hi : Inv h) {r : Relay} (hs : h.relay.SameMembers r) : Inv (h.withRelay r) :=
  hi.quiet (.of_same hs) (hi.tied.same hs) (hi.placed.same hs) rfl fun _ _ => rfl

/-- events that the members do not see -/
theorem Inv.unseen (hi : Inv h) {a : RelayAct} {r : Relay} (hr : h.relay.next a = some r)
    (ha : (∃ w, a = .udpMode w) ∨ (∃ w p, a = .tun w p) ∨ ∃ d ip p, a = .datagram d ip p) :
    Inv (h.withRelay r) := by
  rcases Relay.next_cases hr with ⟨_, _, hb, _⟩ | ⟨_, _, hb, _⟩ | ⟨_, _, _, hb, _⟩ |
    ⟨_, _, hb, _⟩ | ⟨_, hb, _⟩ | ⟨_, hs⟩
  · rw [hb] at ha
    simp at ha
  · rw [hb] at ha
    simp at ha
  · rw [hb] at ha
    simp at ha
  · rw [hb] at ha
    simp at ha
  · rw [hb] at ha
    simp at ha
  · exact hi.same hs

theorem Inv.accept (hi : Inv h) {w : Writer} {ip : String} {r : Relay} {q : SendQ}
    (hr : h.relay.next (.accept w ip) = some r) :
    Inv { (h.setQueue w q).withRelay r with last := Function.update h.last w none } := by
  rcases Relay.next_cases hr with ⟨v, i, ha, hw, hl, rfl⟩ | ⟨_, _, ha, _⟩ | ⟨_, _, _, ha, _⟩ |
    ⟨_, _, ha, _⟩ | ⟨_, ha, _⟩ | ⟨⟨_, ha⟩ | ⟨_, _, ha⟩ | ⟨_, _, _, ha⟩, _⟩
  · cases ha
    have ht := hi.tied.accept ip hw hl
    refine hi.quiet (.accept hi.tied hw hl) ht ⟨hi.placed.subnet, hi.placed.unique, hi.placed.host⟩
      rfl ?_
    rintro v ⟨_, n, hn⟩
    have hv : v ≠ w := by
      rintro rfl
      obtain ⟨i, hi'⟩ := hi.tied.named n v hn
      rw [hw] at hi'
      cases hi'
    exact Function.update_of_ne hv _ _
  · cases ha
  · cases ha
  · cases ha
  · cases ha
  · cases ha
  · cases ha
  · cases ha

theorem Inv.queue (hi : Inv h) (w : Writer) (q : SendQ) : Inv (h.setQueue w q) := by
  refine ⟨hi.tied, hi.placed, hi.single, ?_⟩
  intro v hv
  exact (hi.told v hv).mono (fun _ => Iff.rfl) rfl rfl id

theorem Inv.tick (hi : Inv h) (d : Nat) :
    Inv (h.withRelay { h.relay with clock := h.relay.clock + d }) := by
  refine hi.quiet ?_ ⟨hi.tied.named, hi.tied.one⟩
    ⟨hi.placed.subnet, hi.placed.unique, hi.placed.host⟩ rfl fun _ _ => rfl
  exact .of_nodes rfl rfl rfl (fun _ => Iff.rfl) (fun _ _ _ hc => hc) fun _ _ ip _ hip hc =>
    ⟨⟨ip, hip⟩, hc⟩

/-- **What one calm step preserves.** -/
theorem Inv.step (hi : Inv h) {a : HallAct} (hcalm : h.Calm a) (hst : h.step a = some h') :
    Inv h' := by
  cases a with
  | relay a =>
    cases a with
    | accept w ip =>
      obtain ⟨r, hr, hst⟩ := Option.bind_eq_some_iff.mp hst
      obtain ⟨q, _, hst⟩ := Option.bind_eq_some_iff.mp hst
      obtain ⟨_, hst⟩ := Option.ite_none_right_eq_some.mp hst
      rw [← Option.some.inj hst]
      exact hi.accept hr
    | close w =>
      obtain ⟨r, hr, rfl⟩ := Option.map_eq_some_iff.mp hst
      exact hi.close hr
    | node w payload =>
      obtain ⟨_, hst⟩ := Option.ite_none_left_eq_some.mp hst
      obtain ⟨ip, hw, rfl⟩ := Option.map_eq_some_iff.mp hst
      exact hi.nodeFrame hw hcalm
    | udpMode w =>
      obtain ⟨_, hst⟩ := Option.ite_none_left_eq_some.mp hst
      obtain ⟨r, hr, rfl⟩ := Option.map_eq_some_iff.mp hst
      exact hi.unseen hr (Or.inl ⟨w, rfl⟩)
    | tun w payload =>
      obtain ⟨_, hst⟩ := Option.ite_none_left_eq_some.mp hst
      obtain ⟨r, hr, rfl⟩ := Option.map_eq_some_iff.mp hst
      exact hi.unseen hr (Or.inr (Or.inl ⟨w, payload, rfl⟩))
    | gone w =>
      obtain ⟨_, hst⟩ := Option.ite_none_left_eq_some.mp hst
      obtain ⟨ip, _, rfl⟩ := Option.map_eq_some_iff.mp hst
      exact hi.leave w
    | datagram data ip port =>
      have hst : (h.relay.next (.datagram data ip port)).map h.withRelay = some h' := hst
      obtain ⟨r, hr, rfl⟩ := Option.map_eq_some_iff.mp hst
      exact hi.unseen hr (Or.inr (Or.inr ⟨data, ip, port, rfl⟩))
    | tick d =>
      have hst : (h.relay.next (.tick d)).map h.withRelay = some h' := hst
      obtain ⟨r, hr, rfl⟩ := Option.map_eq_some_iff.mp hst
      rw [← Option.some.inj hr]
      exact hi.tick d
  | queue w a =>
    cases a with
    | accept => cases hst
    | retire => cases hst
    | call m p d =>
      obtain ⟨_, hst⟩ := Option.ite_none_left_eq_some.mp hst
      obtain ⟨q, _, rfl⟩ := Option.map_eq_some_iff.mp hst
      exact hi.queue w q
    | wake | start | drain | read | lost | cancel =>
      obtain ⟨q, _, rfl⟩ := Option.map_eq_some_iff.mp hst
      exact hi.queue w q
  | job i =>
    obtain ⟨j, hj, hadv⟩ := Option.bind_eq_some_iff.mp hst
    exact hi.job hj hcalm hadv

/-! ## at rest -/

theorem inv_init (token : Bytes) (allowed : List Nat) (net clock : Nat) :
    Inv (init token allowed (subnetNet net) clock) :=
  ⟨(Relay.tied_init token allowed _ clock).toOpenTied, Relay.placed_init token allowed net clock,
    List.nodup_nil, fun w hw => by obtain ⟨_, n, hn⟩ := hw; cases hn⟩

theorem Inv.views (hi : Inv h) (hrest : h.AtRest) : h.Views := by
  obtain ⟨hjobs, hserved, _⟩ := hrest
  intro n w _ hc hname
  obtain ⟨m, hm⟩ := Option.isSome_iff_exists.mp hname
  cases hi.told w ⟨hc, m, hm⟩ with
  | current hl _ => exact hl
  | asleep own c todo hj =>
    rw [hjobs] at hj
    cases hj
  | coming j hj _ =>
    rw [hjobs] at hj
    cases hj
  | owed ho =>
    obtain ⟨v, k, ip, hip, hv, _⟩ := ho
    rw [hserved v ip hip] at hv
    cases hv

/-- **Membership views agree at rest.**  In a run of calm steps, whenever no handler, broadcast or
send is pending, the last `T_ASSIGN` queued for every live registered link lists the members of the
moment and the link's own address. -/
theorem views_at_rest {token : Bytes} {allowed : List Nat} {net clock : Nat}
    {tr : List (Hall × HallAct)} (hp : Path Hall.step (init token allowed (subnetNet net) clock) tr h)
    (hcalm : ∀ x ∈ tr, x.1.Calm x.2) : ∀ u ∈ visited tr h, u.AtRest → u.Views :=
  hp.all_of_ok (inv_init token allowed net clock) (fun _ hu => hu.views)
    (fun _ _ _ hu hok hst => hu.step hok hst) hcalm

/-- one peer registers -/
def alone : List HallAct :=
  [.relay (.accept 1 "10.0.0.1"), .relay (.node 1 [3, 0, 0, 0, 0, 0, 1, 0x13, 0x88, 0]),
    .job 0, .job 0, .job 0]

/-- a second peer registers and leaves again -/
def twoPeers : List HallAct :=
  alone ++ ([.relay (.accept 2 "10.0.0.2"), .relay (.node 2 [3, 0, 0, 0, 0, 0, 2, 0x13, 0x88, 0]),
    .job 0, .job 0, .job 0, .job 0, .relay (.close 2), .relay (.gone 2),
    .job 0, .job 0, .job 0] : List HallAct)

theorem views_oneLeaves : ∃ h, run step (init [] [] (subnetNet 0x0AC80000) 0) twoPeers = some h ∧
    h.AtRest ∧ h.relay.members = [(1, 0x0AC80002)] ∧ h.Views := by
  have hrun : (run step (init [] [] (subnetNet 0x0AC80000) 0) twoPeers).isSome = true := by
    decide +kernel
  have hcalm : ∀ x ∈ trace step (init [] [] (subnetNet 0x0AC80000) 0) twoPeers, x.1.Calm x.2 := by
    decide +kernel
  have hend : ∀ h ∈ run step (init [] [] (subnetNet 0x0AC80000) 0) twoPeers, h.jobs = [] ∧
      (∀ e ∈ h.relay.players.items, h.relay.isClosing e.1 = false) ∧
      (∀ e ∈ h.queues.items, ∀ c ∈ e.2.calls, c = .returned ∨ c = .raised) ∧
      h.relay.members = [(1, 0x0AC80002)] := by
    decide +kernel
  obtain ⟨h, hh⟩ := Option.isSome_iff_exists.mp hrun
  obtain ⟨hjobs, hplayers, hcalls, hmembers⟩ := hend h hh
  have hrest : h.AtRest :=
    ⟨hjobs, fun w ip hip => hplayers (w, ip) (Dict.get?_eq_some.mp hip), hcalls⟩
  exact ⟨h, hh, hrest, hmembers, views_at_rest (path_run hh) hcalm h (by simp [visited]) hrest⟩

/-! ## two announcements in the wrong order -/

/-- the first peer has stopped reading -/
def unread : List HallAct :=
  alone ++ ([.queue 1 .start, .queue 1 (.drain true)] : List HallAct)

/-- Two peers register, and the announcements of both sleep at the full queue of the first peer.
It reads one frame, and the second announcement finds the place; it reads another, and the first
one does. -/
def crossed : List HallAct :=
  [.relay (.accept 2 "10.0.0.2"), .relay (.node 2 [3, 0, 0, 0, 0, 0, 2, 0x13, 0x88, 0]),
    .job 0, .job 0,
    .relay (.accept 3 "10.0.0.3"), .relay (.node 3 [3, 0, 0, 0, 0, 0, 3, 0x13, 0x88, 0]),
    .job 1, .job 1,
    .queue 1 .read, .queue 1 (.drain true), .job 1,
    .queue 1 .read, .queue 1 (.drain true), .job 0,
    .job 0, .job 0, .job 0, .job 0, .job 0]

/-- other frames fill the queue of a peer that does not read -/
theorem path_fill {w : Writer} (hq : h.wq w = SendQ.backedUp T_STREQ [] 0) (n : Nat)
    (hn : n < WQ_MAXFRAMES) :
    ∃ tr, Path step h tr (h.setQueue w (SendQ.backedUp T_STREQ [] (n + 1))) := by
  have hcall : ∀ (u : Hall) k, u.wq w = SendQ.backedUp T_STREQ [] k → k < WQ_MAXFRAMES →
      step u (.queue w (.call T_STREQ [] none))
        = some (u.setQueue w (SendQ.backedUp T_STREQ [] (k + 1))) := by
    intro u k hu hk
    show (if T_STREQ = T_ASSIGN then none
      else ((u.wq w).step (.call T_STREQ [] none)).map (u.setQueue w)) = _
    rw [if_neg (by decide), hu, SendQ.step_backedUp [] (by decide) hk]
    rfl
  induction n with
  | zero => exact ⟨_, Path.one (hcall h 0 hq hn)⟩
  | succ n ih =>
    obtain ⟨tr, htr⟩ := ih (by omega)
    have hset : (h.setQueue w (SendQ.backedUp T_STREQ [] (n + 1))).wq w
        = SendQ.backedUp T_STREQ [] (n + 1) := by
      unfold wq setQueue
      rw [Dict.get?_set_self]
      rfl
    have hstep := hcall _ (n + 1) hset hn
    have htwice : ∀ q q', (h.setQueue w q).setQueue w q' = h.setQueue w q' := by
      intro q q'
      unfold setQueue
      rw [Dict.set_set]
    rw [htwice] at hstep
    exact ⟨_, htr.snoc hstep⟩

/-- nothing is pending, and the last `T_ASSIGN` of the first peer does not know the third one -/
theorem stale_view : ∃ s, (∃ tr, Path step (init [] [] (subnetNet 0x0AC80000) 0) tr s) ∧ s.AtRest ∧
    s.relay.holds 1 1 ∧ s.relay.isClosing 1 = false ∧ s.relay.writer_node.get? 1 = some 1 ∧
    s.last 1 = some ⟨0x0AC80002, 0x0AC80000, [(1, 0x0AC80002), (2, 0x0AC80003)]⟩ ∧
    s.relay.members = [(1, 0x0AC80002), (2, 0x0AC80003), (3, 0x0AC80004)] ∧ ¬ s.Views := by
  have hrun : (run step (init [] [] (subnetNet 0x0AC80000) 0) unread).isSome = true := by
    decide
  obtain ⟨u, hu⟩ := Option.isSome_iff_exists.mp hrun
  have hq : ∀ u ∈ run step (init [] [] (subnetNet 0x0AC80000) 0) unread,
      u.wq 1 = SendQ.backedUp T_STREQ [] 0 := by decide
  have hend : ∀ u ∈ run step (init [] [] (subnetNet 0x0AC80000) 0) unread,
      (run step (u.setQueue 1 (SendQ.backedUp T_STREQ [] 1024)) crossed).isSome = true ∧
      ∀ s ∈ run step (u.setQueue 1 (SendQ.backedUp T_STREQ [] 1024)) crossed,
        s.jobs = [] ∧ (∀ e ∈ s.relay.players.items, s.relay.isClosing e.1 = false) ∧
        (∀ e ∈ s.queues.items, ∀ c ∈ e.2.calls, c = .returned ∨ c = .raised) ∧
        s.relay.holds 1 1 ∧ s.relay.isClosing 1 = false ∧ s.relay.writer_node.get? 1 = some 1 ∧
        s.last 1 = some ⟨0x0AC80002, 0x0AC80000, [(1, 0x0AC80002), (2, 0x0AC80003)]⟩ ∧
        s.relay.members = [(1, 0x0AC80002), (2, 0x0AC80003), (3, 0x0AC80004)] := by
    decide +kernel
  obtain ⟨hsome, hend⟩ := hend u hu
  obtain ⟨s, hs⟩ := Option.isSome_iff_exists.mp hsome
  obtain ⟨hjobs, hserved, hcalls, hholds, hopen, hname, hlast, hmembers⟩ := hend s hs
  obtain ⟨tr, htr⟩ := path_fill (hq u hu) 1023 (by decide)
  have hrest : s.AtRest := by
    refine ⟨hjobs, ?_, hcalls⟩
    intro w ip hw
    exact hserved (w, ip) (Dict.get?_eq_some.mp hw)
  refine ⟨s, ⟨_, ((path_run hu).trans htr).trans (path_run hs)⟩, hrest, hholds, hopen, hname, hlast,
    hmembers, ?_⟩
  intro hviews
  have hup := hviews 1 1 hholds hopen (by rw [hname]; rfl)
  rw [hlast] at hup
  have hlist := congrArg Assign.members (Option.some.inj hup)
  change _ = s.relay.members at hlist
  rw [hmembers] at hlist
  cases hlist

end Hall

end ShadowLan
