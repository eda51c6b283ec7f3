import Mathlib.Data.List.Basic
import ShadowLan.Relay.Links
import ShadowLan.Relay.Streams

/-!
# Handshakes and the nodes they depend on

A stream in its handshake depends on its opener's node, and on the node that it was addressed to.
When the handler of a control connection ends and the node that `writer_node` names has no live link
left, the handshakes that `node_streams` lists for the node are failed.

* `Exchange`       the relay with the streams by `sid`, and the index of their nodes;
* `finish`         the `finally` of `handle_peer`;
* `Calm`           the condition on a step: pruning comes to no node that a handshake depends on and
                   that has only closing links, and no connection registers for two nodes;
* `backed_run`     in a run of such steps, when the handlers of all closing connections have ended,
                   every node that a handshake depends on has a live link.

When a stream in its handshake is taken out otherwise (its timeout, a refusal) is left open.
-/

namespace ShadowLan

def STOPEN_N : Nat := 14

/-- `T_STOPEN`: node, destination node, sid and game port -/
def decode_stopen (payload : Bytes) : Option (Nat × Nat × Nat × Nat) :=
  if payload.length ≠ STOPEN_N then none
  else do
    let node ← unpackI (slice payload 0 4)
    let dest_node ← unpackI (slice payload 4 8)
    let sid ← unpackI (slice payload 8 12)
    let gport ← unpackH (slice payload 12 14)
    return (node, dest_node, sid, gport)

/-- what `self.streams[sid]` says about the nodes -/
structure StreamRec where
  opener_node : Nat
  dest_node : Nat
  implicit : Bool
  state : StreamState
  deriving DecidableEq

/-- the nodes that the handshake depends on -/
def StreamRec.nodes (st : StreamRec) : List Nat :=
  if st.implicit then [st.opener_node] else [st.opener_node, st.dest_node]

structure Exchange where
  relay : Relay
  /-- empty: every game port is allowed -/
  allowed_tcp : List Nat
  streams : Dict Nat StreamRec
  node_streams : Dict Nat (List Nat)

namespace Relay
variable (s : Relay)

def live_links (nid : Nat) : List Writer :=
  ((s.nodeLinks nid).map Prod.fst).filter fun w => !s.isClosing w

def all_links : List Writer := (s.allLinks.map LinkRef.writer).filter fun w => !s.isClosing w

end Relay

namespace Exchange

def init (token : Bytes) (allowed allowed_tcp : List Nat) (subnet clock : Nat) : Exchange where
  relay := .init token allowed subnet clock
  allowed_tcp := allowed_tcp
  streams := .empty
  node_streams := .empty

variable (h : Exchange)

/-! ## the index -/

/-- `self.node_streams.setdefault(node, set()).add(sid)` -/
def index (node sid : Nat) : Exchange :=
  { h with node_streams := h.node_streams.set node (((h.node_streams.get? node).getD []).insert sid) }

def _stream_pop (sid : Nat) : Exchange :=
  match h.streams.get? sid with
  | none => h
  | some st =>
    { h with
      streams := h.streams.pop sid
      node_streams := [st.opener_node, st.dest_node].foldl
        (fun d nid => d.modify nid fun sids => sids.filter (· ≠ sid)) h.node_streams }

/-! ## the handler of a control connection -/

def failHandshake (sid : Nat) : Exchange :=
  match h.streams.get? sid with
  | none => h
  | some st => if st.state ≠ .ready then h._stream_pop sid else h

/-- the node is dark: its handshakes are failed -/
def failNode (node : Nat) : Exchange :=
  ((h.node_streams.get? node).getD []).foldl failHandshake
    { h with node_streams := h.node_streams.pop node }

def finish (w : Writer) : Exchange :=
  let t := h.relay.teardown w
  match h.relay.writer_node.get? w with
  | none => { h with relay := t }
  | some node =>
    if (h.relay.nodes.get? node).isSome && (t.live_links node).isEmpty then
      failNode { h with relay := t } node
    else { h with relay := t }

/-- a frame `T_NODE`, with what `finish` does when the connection is dropped for it -/
def nodeFrame (w : Writer) (ip : String) (payload : Bytes) : Exchange :=
  if ctlVer payload ≠ PVER then h.finish w
  else
    match decodeCtlNode payload with
    | none => h
    | some f =>
      if f.node = 0 then h
      else
        let (s, ok) := h.relay.registerNode w ip f
        if ok then { h with relay := s } else finish { h with relay := s } w

/-! ## streams -/

def portAllowed (gport : Nat) : Bool := h.allowed_tcp = [] || gport ∈ h.allowed_tcp

/-- the links that are asked; those of the opener's own node are not if the stream is unaddressed -/
def dest_links (node dest_node : Nat) : List Writer :=
  if dest_node ≠ 0 then h.relay.live_links dest_node
  else h.relay.all_links.filter fun w => h.relay.writer_node.get? w ≠ some node

/-- `handle_stream_open` -/
def stopen (payload : Bytes) : Exchange :=
  match decode_stopen payload with
  | none => h
  | some (node, dest_node, sid, gport) =>
    if !h.portAllowed gport then h
    else if h.relay.live_links node = [] then h
    else if (h.streams.get? sid).isSome then h
    else if dest_node ≠ 0 ∧ (h.relay.nodes.get? dest_node).isNone then h
    else if h.dest_links node dest_node = [] then h
    else
      let st : StreamRec :=
        { opener_node := node, dest_node, implicit := dest_node == 0, state := .opened }
      let h := ({ h with streams := h.streams.set sid st }).index node sid
      if dest_node ≠ 0 then h.index dest_node sid else h

/-- `_grant_claim`, when the claim is not refused: from `open` to `joined` -/
def grant (sid node : Nat) : Option Exchange :=
  match h.streams.get? sid with
  | none => none
  | some st =>
    if st.dest_node = 0 then
      some (({ h with
        streams := h.streams.set sid { st with state := .joined, dest_node := node } }).index node sid)
    else if node = st.dest_node then
      some { h with streams := h.streams.set sid { st with state := .joined } }
    else none

def confirm (sid : Nat) : Exchange :=
  { h with streams := h.streams.modify sid fun st => { st with state := .ready } }

/-! ## events -/

inductive Act where
  | relay (a : RelayAct)
  /-- a connection whose first frame is `T_STOPEN` -/
  | stopen (payload : Bytes)
  | grant (sid node : Nat)
  /-- the opener gets its `T_STOK` -/
  | confirm (sid : Nat)
  /-- a timeout, a refusal or the end of the pipe takes the stream out -/
  | popped (sid : Nat)
  /-- `_grant_claim` of a record that has been taken out -/
  | strayGrant (sid node : Nat)

def next : Act → Option Exchange
  | .relay (.node w payload) => (h.relay.players.get? w).map fun ip => h.nodeFrame w ip payload
  | .relay (.gone w) => (h.relay.players.get? w).map fun _ => h.finish w
  | .relay a => (h.relay.next a).map fun t => { h with relay := t }
  | .stopen payload => some (h.stopen payload)
  | .grant sid node => h.grant sid node
  | .confirm sid => some (h.confirm sid)
  | .popped sid => some (h._stream_pop sid)
  | .strayGrant sid node => some (h.index node sid)

/-- the handlers of all closing connections have ended -/
def Settled : Prop := ∀ w ip, h.relay.players.get? w = some ip → h.relay.isClosing w = false

/-- every node that a handshake depends on has a live link -/
def Backed : Prop :=
  ∀ x ∈ h.streams.items, x.2.state ≠ .ready → ∀ n ∈ x.2.nodes, h.relay.live_links n ≠ []

instance : Decidable h.Backed :=
  inferInstanceAs (Decidable (∀ x ∈ h.streams.items, x.2.state ≠ .ready →
    ∀ n ∈ x.2.nodes, h.relay.live_links n ≠ []))

/-- the condition on a step -/
def Calm : Act → Prop
  | .relay (.node w payload) =>
    ∀ f, decodeCtlNode payload = some f → f.node ≠ 0 ∧ h.relay.tokenOk f.token = true →
      (h.relay.letsIn f = true → ∀ n, h.relay.holds n w → n = f.node) ∧
      ((h.relay.nodes.get? f.node).isNone = true → h.Backed)
  | .grant sid _ => ∀ st ∈ h.streams.get? sid, st.state ≠ .ready
  | _ => True

instance : (a : Act) → Decidable (h.Calm a)
  | .relay (.node w payload) => by unfold Calm; infer_instance
  | .grant sid _ => inferInstanceAs (Decidable (∀ st ∈ h.streams.get? sid, st.state ≠ .ready))
  | .relay (.accept _ _) | .relay (.close _) | .relay (.udpMode _) | .relay (.tun _ _)
  | .relay (.gone _) | .relay (.datagram _ _ _) | .relay (.tick _) | .stopen _ | .confirm _
  | .popped _ | .strayGrant _ _ => isTrue trivial

end Exchange

/-! ## nodes that somebody attends to -/

namespace Relay
variable {s t : Relay}

theorem mem_live_links {n : Nat} {w : Writer} :
    w ∈ s.live_links n ↔ s.holds n w ∧ s.isClosing w = false := by
  have hlink : w ∈ (s.nodeLinks n).map Prod.fst ↔ s.holds n w := by
    rw [holds_iff_allLinks, List.mem_map]
    constructor
    · rintro ⟨x, hx, rfl⟩
      exact ⟨⟨n, x.1, x.2⟩, mem_allLinks.mpr hx, rfl, rfl⟩
    · rintro ⟨x, hx, rfl, rfl⟩
      exact ⟨_, mem_allLinks.mp hx, rfl⟩
  unfold live_links
  rw [List.mem_filter, hlink, Bool.not_eq_true']

theorem live_links_ne_nil {n : Nat} : s.live_links n ≠ [] ↔ s.hasOpenLink n := by
  constructor
  · intro h
    obtain ⟨w, hw⟩ := List.exists_mem_of_ne_nil _ h
    exact ⟨w, mem_live_links.mp hw⟩
  · rintro ⟨w, hw⟩
    exact List.ne_nil_of_mem (mem_live_links.mpr hw)

/-- the handler of some link of the node will look after it -/
def attended (s : Relay) (n : Nat) : Prop :=
  ∃ w ip, s.holds n w ∧ s.players.get? w = some ip ∧ s.writer_node.get? w = some n

theorem OpenTied.attended (h : OpenTied s) {n : Nat} (hn : s.hasOpenLink n) : s.attended n := by
  obtain ⟨w, hw, hc⟩ := hn
  have hname := (h.one w hc n).mp hw
  obtain ⟨ip, hip⟩ := h.named n w hname
  exact ⟨w, ip, hw, hip, hname⟩

theorem attended_same (hs : SameMembers s t) {n : Nat} (h : s.attended n) : t.attended n := by
  obtain ⟨w, ip, hw, hip, hname⟩ := h
  exact ⟨w, ip, hs.holds.mpr hw, hs.players ▸ hip, hs.writer_node ▸ hname⟩

/-- the end of a handler is noticed at its own node only -/
theorem attended_teardown {w : Writer} {n : Nat} (h : s.attended n)
    (hn : s.writer_node.get? w ≠ some n) : (s.teardown w).attended n := by
  obtain ⟨v, ip, hv, hip, hname⟩ := h
  have hne : v ≠ w := by
    rintro rfl
    exact hn hname
  refine ⟨v, ip, holds_teardown.mpr ⟨hv, fun h => hne h.1⟩, ?_, ?_⟩
  · rw [teardown_players, Dict.get?_pop_of_ne _ hne]
    exact hip
  · rw [teardown_writer_node, Dict.get?_pop_of_ne _ hne]
    exact hname

theorem attended_newNode (h : OpenTied s) {m n : Nat} (hm : s.nodes.get? m = none)
    (hn : s.hasOpenLink n) : (s.newNode m).1.attended n := by
  obtain ⟨w, hw, hc⟩ := hn
  refine (h.newNode hm).attended ⟨w, (holds_newNode hm).mpr ⟨hw, hc⟩, ?_⟩
  rw [(base_newNode s m).isClosing]
  exact hc

theorem attended_enter {w : Writer} {ip : String} {f : NodeFrame} {ent : Node} {n : Nat}
    (he : s.nodes.get? f.node = some ent) (hone : ∀ n, s.holds n w → n = f.node)
    (h : s.attended n) : (s.enter w ip f).attended n := by
  obtain ⟨v, i, hv, hi, hname⟩ := h
  refine ⟨v, i, (holds_enter he).mpr (Or.inl hv), (base_enter s w ip f).players ▸ hi, ?_⟩
  rw [(same_enter s w ip f).writer_node]
  show (s.writer_node.set w f.node).get? v = some n
  by_cases hvw : v = w
  · rw [hvw] at hv ⊢
    rw [Dict.get?_set_self, hone n hv]
  · rw [Dict.get?_set_of_ne _ _ hvw]
    exact hname

theorem attended_accept {w : Writer} {ip : String} {n : Nat} (hw : s.players.get? w = none)
    (h : s.attended n) : attended
      { s with players := s.players.set w ip, closing := s.closing.filter (· ≠ w) } n := by
  obtain ⟨v, i, hv, hi, hname⟩ := h
  have hne : v ≠ w := by
    rintro rfl
    rw [hw] at hi
    cases hi
  exact ⟨v, i, hv, (Dict.get?_set_of_ne _ _ hne).trans hi, hname⟩

end Relay

/-! ## taking streams out -/

namespace Exchange
variable {h t : Exchange} {sid : Nat} {st : StreamRec}

def indexed (h : Exchange) (n sid : Nat) : Prop := ∃ sids, h.node_streams.get? n = some sids ∧ sid ∈ sids

/-- streams are taken out, and those that stay are in the index as before -/
structure Sub (h t : Exchange) : Prop where
  relay : t.relay = h.relay
  streams : ∀ sid st, t.streams.get? sid = some st → h.streams.get? sid = some st
  index : ∀ sid st, t.streams.get? sid = some st → ∀ n, h.indexed n sid → t.indexed n sid

theorem Sub.refl (h : Exchange) : Sub h h := ⟨rfl, fun _ _ hs => hs, fun _ _ _ _ hi => hi⟩

theorem Sub.trans {u : Exchange} (h1 : Sub h t) (h2 : Sub t u) : Sub h u :=
  ⟨h2.relay.trans h1.relay, fun sid st hs => h1.streams sid st (h2.streams sid st hs),
    fun sid st hs n hi => h2.index sid st hs n (h1.index sid st (h2.streams sid st hs) n hi)⟩

theorem get?_discard {d : Dict Nat (List Nat)} {n m sid sid' : Nat} (hne : sid' ≠ sid)
    (h : ∃ sids, d.get? n = some sids ∧ sid' ∈ sids) :
    ∃ sids, (d.modify m fun sids => sids.filter (· ≠ sid)).get? n = some sids ∧ sid' ∈ sids := by
  obtain ⟨sids, hs, hmem⟩ := h
  rw [Dict.get?_modify]
  split
  next hn =>
    rw [← hn, hs]
    exact ⟨_, rfl, List.mem_filter.mpr ⟨hmem, by simpa using hne⟩⟩
  next => exact ⟨sids, hs, hmem⟩

theorem sub_pop (h : Exchange) (sid : Nat) : Sub h (h._stream_pop sid) := by
  unfold _stream_pop
  cases hs : h.streams.get? sid with
  | none => exact .refl h
  | some st =>
    have hsub : ∀ sid' st', (h.streams.pop sid).get? sid' = some st' →
        sid' ≠ sid ∧ h.streams.get? sid' = some st' := fun sid' st' hs' => by
      have hmem := Dict.mem_pop.mp (Dict.get?_eq_some.mp hs')
      exact ⟨hmem.2, Dict.get?_eq_some.mpr hmem.1⟩
    refine ⟨rfl, fun sid' st' hs' => (hsub sid' st' hs').2, fun sid' st' hs' n hi => ?_⟩
    have hne := (hsub sid' st' hs').1
    exact get?_discard hne (get?_discard hne hi)

theorem pop_self (h : Exchange) (sid : Nat) : (h._stream_pop sid).streams.get? sid = none := by
  unfold _stream_pop
  cases hs : h.streams.get? sid with
  | none => exact hs
  | some st => exact Dict.get?_pop_self _ _

theorem sub_failHandshake (h : Exchange) (sid : Nat) : Sub h (h.failHandshake sid) := by
  unfold failHandshake
  split
  · exact .refl h
  · split
    · exact sub_pop h sid
    · exact .refl h

theorem failHandshake_ready (hs : (h.failHandshake sid).streams.get? sid = some st) :
    st.state = .ready := by
  unfold failHandshake at hs
  cases hg : h.streams.get? sid with
  | none =>
    rw [hg] at hs
    exact absurd (hg.symm.trans hs) nofun
  | some st' =>
    rw [hg] at hs
    dsimp only at hs
    split at hs
    · rw [pop_self] at hs
      cases hs
    next hr =>
      cases Option.some.inj (hg.symm.trans hs)
      exact Decidable.not_not.mp hr

/-- the handshakes in the list are gone, the other streams stay as they are -/
theorem sub_failAll (l : List Nat) (h : Exchange) : Sub h (l.foldl failHandshake h) ∧
    ∀ sid ∈ l, ∀ st, (l.foldl failHandshake h).streams.get? sid = some st → st.state = .ready := by
  induction l generalizing h with
  | nil => exact ⟨.refl h, fun _ hs => absurd hs List.not_mem_nil⟩
  | cons a l ih =>
    obtain ⟨hsub, hgone⟩ := ih (h.failHandshake a)
    refine ⟨(sub_failHandshake h a).trans hsub, fun sid hs st hst => ?_⟩
    rcases List.mem_cons.mp hs with rfl | hs
    · exact failHandshake_ready (hsub.streams sid st hst)
    · exact hgone sid hs st hst

/-! ## the invariant -/

/-- every node that a handshake depends on has a handler that will look after it, and knows the
stream -/
structure Minded (h : Exchange) : Prop where
  tied : Relay.OpenTied h.relay
  minded : ∀ sid st, h.streams.get? sid = some st → st.state ≠ .ready → ∀ n ∈ st.nodes,
    h.relay.attended n ∧ h.indexed n sid
  addressed : ∀ sid st, h.streams.get? sid = some st → st.implicit = false → st.dest_node ≠ 0

theorem Minded.sub (hm : Minded h) (hs : Sub h t) : Minded t where
  tied := hs.relay ▸ hm.tied
  minded sid st hst hr n hn := by
    obtain ⟨h1, h2⟩ := hm.minded sid st (hs.streams sid st hst) hr n hn
    exact ⟨hs.relay ▸ h1, hs.index sid st hst n h2⟩
  addressed sid st hst := hm.addressed sid st (hs.streams sid st hst)

/-- the relay takes a step that leaves no handshake's node alone -/
theorem Minded.moved (hm : Minded h) {s : Relay} (ht : Relay.OpenTied s)
    (ha : ∀ sid st, h.streams.get? sid = some st → st.state ≠ .ready → ∀ n ∈ st.nodes,
      s.attended n) : Minded { h with relay := s } :=
  ⟨ht, fun sid st hst hr n hn => ⟨ha sid st hst hr n hn, (hm.minded sid st hst hr n hn).2⟩,
    hm.addressed⟩

theorem Minded.backed (hm : Minded h) (hs : h.Settled) : h.Backed := by
  intro x hx hr n hn
  obtain ⟨⟨w, ip, hw, hip, -⟩, -⟩ := hm.minded x.1 x.2 (Dict.get?_eq_some.mpr hx) hr n hn
  exact Relay.live_links_ne_nil.mpr ⟨w, hw, hs w ip hip⟩

theorem backed_iff : h.Backed ↔ ∀ sid st, h.streams.get? sid = some st → st.state ≠ .ready →
    ∀ n ∈ st.nodes, h.relay.hasOpenLink n := by
  constructor
  · intro hb sid st hst hr n hn
    exact Relay.live_links_ne_nil.mp (hb (sid, st) (Dict.get?_eq_some.mp hst) hr n hn)
  · intro hb x hx hr n hn
    exact Relay.live_links_ne_nil.mpr (hb x.1 x.2 (Dict.get?_eq_some.mpr hx) hr n hn)

/-! ### the end of a handler -/

/-- when a node is dark, no handshake that it was indexed for is left -/
theorem Minded.failNode {s : Relay} {m : Nat} (hm : Minded h) (ht : Relay.OpenTied s)
    (ha : ∀ n, n ≠ m → h.relay.attended n → s.attended n) :
    Minded (Exchange.failNode { h with relay := s } m) := by
  obtain ⟨hsub, hgone⟩ := sub_failAll ((h.node_streams.get? m).getD [])
    { h with relay := s, node_streams := h.node_streams.pop m }
  have hrelay : (Exchange.failNode { h with relay := s } m).relay = s := hsub.relay
  refine ⟨by rw [hrelay]; exact ht, fun sid st hst hr n hn => ?_,
    fun sid st hst => hm.addressed sid st (hsub.streams sid st hst)⟩
  obtain ⟨h1, h2⟩ := hm.minded sid st (hsub.streams sid st hst) hr n hn
  have hne : n ≠ m := by
    rintro rfl
    obtain ⟨sids, hs, hmem⟩ := h2
    exact hr (hgone sid (by rw [hs]; exact hmem) st hst)
  refine ⟨by rw [hrelay]; exact ha n hne h1, hsub.index sid st hst n ?_⟩
  obtain ⟨sids, hs, hmem⟩ := h2
  exact ⟨sids, (Dict.get?_pop_of_ne _ hne).trans hs, hmem⟩

/-- **The end of a handler** takes out the handshakes of a node that nobody attends to any more -/
theorem Minded.finish (hm : Minded h) (w : Writer) : Minded (h.finish w) := by
  have ht := hm.tied.teardown w
  unfold Exchange.finish
  dsimp only
  rcases Option.eq_none_or_eq_some (h.relay.writer_node.get? w) with hnode | ⟨m, hnode⟩
  · simp only [hnode]
    refine hm.moved ht fun sid st hst hr n hn => ?_
    exact Relay.attended_teardown (hm.minded sid st hst hr n hn).1 fun heq =>
      Option.some_ne_none n (heq.symm.trans hnode)
  · simp only [hnode]
    have hother : ∀ n, n ≠ m → h.relay.attended n → (h.relay.teardown w).attended n := fun n hne ha =>
      Relay.attended_teardown ha fun heq => hne (Option.some.inj (hnode.symm.trans heq)).symm
    split
    · exact hm.failNode ht hother
    next hlive =>
      refine hm.moved ht fun sid st hst hr n hn => ?_
      have ha := (hm.minded sid st hst hr n hn).1
      by_cases hne : n = m
      · obtain ⟨v, ip, hv, -, -⟩ := ha
        obtain ⟨ent, he, -⟩ := Relay.holds_iff.mp hv
        have hopen : (h.relay.teardown w).live_links m ≠ [] := fun hnil => by
          rw [← hne] at hnil hlive
          exact hlive (by simp [he, hnil])
        rw [hne]
        exact ht.attended (Relay.live_links_ne_nil.mp hopen)
      · exact hother n hne ha

/-! ### registrations -/

/-- the entry of a node that the relay does not have: pruning takes no handshake's last handler -/
theorem Minded.newNode (hm : Minded h) {m : Nat} (hnew : h.relay.nodes.get? m = none)
    (hb : h.Backed) : Minded { h with relay := (h.relay.newNode m).1 } :=
  hm.moved (hm.tied.newNode hnew) fun sid st hst hr n hn =>
    Relay.attended_newNode hm.tied hnew (backed_iff.mp hb sid st hst hr n hn)

theorem Minded.enter (hm : Minded h) {w : Writer} {ip ip' : String} {f : NodeFrame} {ent : Node}
    (hw : h.relay.players.get? w = some ip') (he : h.relay.nodes.get? f.node = some ent)
    (hone : ∀ n, h.relay.holds n w → n = f.node) :
    Minded { h with relay := h.relay.enter w ip f } :=
  hm.moved (hm.tied.enter hw he fun _ => hone) fun sid st hst hr n hn =>
    Relay.attended_enter he hone (hm.minded sid st hst hr n hn).1

theorem Minded.nodeFrame (hm : Minded h) {w : Writer} {ip : String} {payload : Bytes}
    (hw : h.relay.players.get? w = some ip) (hok : h.Calm (.relay (.node w payload))) :
    Minded (h.nodeFrame w ip payload) := by
  unfold Exchange.nodeFrame
  split
  · exact hm.finish w
  cases hf : decodeCtlNode payload with
  | none => exact hm
  | some f =>
    dsimp only
    split
    · exact hm
    next h0 =>
      have hok : h.relay.tokenOk f.token = true → _ := fun ht => hok f hf ⟨h0, ht⟩
      have hin := Relay.registerNode_ok h.relay w ip f
      rcases Relay.registerNode_cases h.relay w ip f with
        ⟨-, heq⟩ | ⟨htok, ⟨ent, he⟩, heq⟩ | ⟨htok, hnew, heq⟩
      · rw [heq]
        exact hm.finish w
      · rw [heq] at hin ⊢
        dsimp only at hin ⊢
        exact hm.enter hw he ((hok htok).1 hin.symm)
      · have hm' := hm.newNode hnew ((hok htok).2 (by rw [hnew]; rfl))
        rw [heq] at hin ⊢
        by_cases hn : (h.relay.newNode f.node).2 = true
        · rw [if_pos hn] at hin ⊢
          dsimp only at hin ⊢
          obtain ⟨ent, he⟩ := Relay.newNode_known hn
          have hplayers := (Relay.base_newNode h.relay f.node).players
          exact hm'.enter (hplayers ▸ hw) he fun n hold =>
            (hok htok).1 hin.symm n ((Relay.holds_newNode hnew).mp hold).1
        · rw [if_neg hn]
          exact hm'.finish w

/-! ### streams -/

theorem indexed_index (h : Exchange) (n sid : Nat) : (h.index n sid).indexed n sid :=
  ⟨_, Dict.get?_set_self _ _ _, List.mem_insert_self⟩

theorem indexed_mono {n m sid sid' : Nat} (hi : h.indexed n sid) : (h.index m sid').indexed n sid := by
  obtain ⟨sids, hs, hmem⟩ := hi
  by_cases hn : n = m
  · subst hn
    refine ⟨_, Dict.get?_set_self _ _ _, List.mem_insert_of_mem ?_⟩
    rw [hs]
    exact hmem
  · exact ⟨sids, (Dict.get?_set_of_ne _ _ hn).trans hs, hmem⟩

theorem Minded.index (hm : Minded h) (m sid : Nat) : Minded (h.index m sid) :=
  ⟨hm.tied, fun sid' st hst hr n hn =>
    ⟨(hm.minded sid' st hst hr n hn).1, indexed_mono (hm.minded sid' st hst hr n hn).2⟩,
    hm.addressed⟩

/-- one record changes -/
theorem Minded.set (hm : Minded h) (sid : Nat) (st : StreamRec)
    (hst : st.state ≠ .ready → ∀ n ∈ st.nodes, h.relay.attended n ∧ h.indexed n sid)
    (hd : st.implicit = false → st.dest_node ≠ 0) :
    Minded { h with streams := h.streams.set sid st } := by
  have hcases : ∀ sid' st', (h.streams.set sid st).get? sid' = some st' →
      (sid' = sid ∧ st' = st) ∨ h.streams.get? sid' = some st' := fun sid' st' hs => by
    by_cases hne : sid' = sid
    · rw [hne, Dict.get?_set_self] at hs
      exact Or.inl ⟨hne, (Option.some.inj hs).symm⟩
    · rw [Dict.get?_set_of_ne _ _ hne] at hs
      exact Or.inr hs
  refine ⟨hm.tied, fun sid' st' hs hr n hn => ?_, fun sid' st' hs hi => ?_⟩
  · rcases hcases sid' st' hs with ⟨rfl, rfl⟩ | hs
    · exact hst hr n hn
    · exact hm.minded sid' st' hs hr n hn
  · rcases hcases sid' st' hs with ⟨rfl, rfl⟩ | hs
    · exact hd hi
    · exact hm.addressed sid' st' hs hi

/-- a stream that is opened depends on nodes with live links, and is indexed for each of them -/
theorem Minded.stopen (hm : Minded h) (payload : Bytes) : Minded (h.stopen payload) := by
  unfold Exchange.stopen
  cases decode_stopen payload with
  | none => exact hm
  | some x =>
    obtain ⟨node, dest_node, sid, gport⟩ := x
    dsimp only
    split
    · exact hm
    split
    · exact hm
    next hopener =>
    split
    · exact hm
    split
    · exact hm
    split
    · exact hm
    next hdest =>
    have hnode := hm.tied.attended (Relay.live_links_ne_nil.mp hopener)
    split
    next h0 =>
      have hto : h.relay.attended dest_node := by
        unfold dest_links at hdest
        rw [if_pos h0] at hdest
        exact hm.tied.attended (Relay.live_links_ne_nil.mp hdest)
      have hidx := (hm.index node sid).index dest_node sid
      refine hidx.set sid _ (fun _ n hn => ?_) fun _ => h0
      have himp : (dest_node == 0) = false := by simpa using h0
      unfold StreamRec.nodes at hn
      rw [himp] at hn
      rcases List.mem_cons.mp hn with rfl | hn
      · exact ⟨hnode, indexed_mono (indexed_index h n sid)⟩
      · rw [List.mem_singleton.mp hn]
        exact ⟨hto, indexed_index _ dest_node sid⟩
    next h0 =>
      have himp : (dest_node == 0) = true := by simpa using h0
      refine (hm.index node sid).set sid _ (fun _ n hn => ?_) fun hi =>
        Bool.noConfusion (himp.symm.trans hi)
      unfold StreamRec.nodes at hn
      rw [himp] at hn
      rw [List.mem_singleton.mp hn]
      exact ⟨hnode, indexed_index h node sid⟩

theorem Minded.grant (hm : Minded h) {sid node : Nat} (hok : h.Calm (.grant sid node))
    (hg : h.grant sid node = some t) : Minded t := by
  unfold Exchange.grant at hg
  cases hs : h.streams.get? sid with
  | none =>
    rw [hs] at hg
    cases hg
  | some st =>
    have hst := hm.minded sid st hs (hok st hs)
    have hadd := hm.addressed sid st hs
    rw [hs] at hg
    dsimp only at hg
    split at hg
    next h0 =>
      -- an addressed stream has its destination already
      have himp : st.implicit = true := by
        rw [← Bool.not_eq_false]
        exact fun hi => hadd hi h0
      have hnodes : ∀ st' : StreamRec, st'.implicit = st.implicit →
          st'.opener_node = st.opener_node → st'.nodes = st.nodes := fun st' hi ho => by
        unfold StreamRec.nodes
        rw [hi, himp, ho]
        rfl
      rw [← Option.some.inj hg]
      refine (hm.index node sid).set sid _ (fun _ n hn => ?_) fun hi =>
        Bool.noConfusion (himp.symm.trans hi)
      rw [hnodes { st with state := .joined, dest_node := node } rfl rfl] at hn
      obtain ⟨h1, h2⟩ := hst n hn
      exact ⟨h1, indexed_mono h2⟩
    next h0 =>
      split at hg
      · rw [← Option.some.inj hg]
        exact hm.set sid _ (fun _ => hst) hadd
      · cases hg

theorem Minded.confirm (hm : Minded h) (sid : Nat) : Minded (h.confirm sid) := by
  have hcases : ∀ sid' st', (h.confirm sid).streams.get? sid' = some st' →
      ∃ st, h.streams.get? sid' = some st ∧ (st' = st ∨ st' = { st with state := .ready }) := by
    intro sid' st' hs
    unfold Exchange.confirm at hs
    dsimp only at hs
    rw [Dict.get?_modify] at hs
    split at hs
    next hsid =>
      rw [hsid]
      obtain ⟨st, hg, rfl⟩ := Option.map_eq_some_iff.mp hs
      exact ⟨st, hg, Or.inr rfl⟩
    next => exact ⟨st', hs, Or.inl rfl⟩
  refine ⟨hm.tied, fun sid' st' hs hr n hn => ?_, fun sid' st' hs hi => ?_⟩
  · obtain ⟨st, hg, rfl | rfl⟩ := hcases sid' st' hs
    · exact hm.minded sid' st' hg hr n hn
    · exact absurd rfl hr
  · obtain ⟨st, hg, rfl | rfl⟩ := hcases sid' st' hs
    · exact hm.addressed sid' st' hg hi
    · exact hm.addressed sid' st hg hi

/-! ## every run -/

/-- a step of the relay that is not a registration and ends no handler -/
theorem Minded.moveOn (hm : Minded h) {a : RelayAct} (hst : h.next (.relay a) = some t)
    (ha : ∀ w p, a ≠ .node w p) (hg : ∀ w, a ≠ .gone w)
    (heq : h.next (.relay a) = (h.relay.next a).map fun s => { h with relay := s }) : Minded t := by
  obtain ⟨s, hs, rfl⟩ := Option.map_eq_some_iff.mp (heq.symm.trans hst)
  have hmove : ∀ u : Relay, Relay.OpenTied u → (∀ n, h.relay.attended n → u.attended n) →
      Minded { h with relay := u } := fun u ht hatt =>
    hm.moved ht fun sid st hs hr n hn => hatt n (hm.minded sid st hs hr n hn).1
  rcases Relay.next_cases hs with ⟨w, ip, -, hw, hl, rfl⟩ | ⟨w, ip, -, -, rfl⟩ |
    ⟨w, ip, p, heq, -, -⟩ | ⟨w, ip, heq, -, -⟩ | ⟨d, -, rfl⟩ | ⟨-, hs⟩
  · exact hmove _ (hm.tied.accept ip hw hl) fun n h => Relay.attended_accept hw h
  · exact hmove _ (hm.tied.close w) fun n h => h
  · exact absurd heq (ha w p)
  · exact absurd heq (hg w)
  · exact hmove _ ⟨hm.tied.named, hm.tied.one⟩ fun n h => h
  · exact hmove _ (hm.tied.same hs) fun n h => Relay.attended_same hs h

theorem Minded.next (hm : Minded h) {a : Act} (hok : h.Calm a) (hst : h.next a = some t) :
    Minded t := by
  cases a with
  | relay a =>
    cases a with
    | node w payload =>
      obtain ⟨ip, hw, rfl⟩ := Option.map_eq_some_iff.mp hst
      exact hm.nodeFrame hw hok
    | gone w =>
      obtain ⟨ip, -, rfl⟩ := Option.map_eq_some_iff.mp hst
      exact hm.finish w
    | accept w ip => exact hm.moveOn hst nofun nofun rfl
    | close w => exact hm.moveOn hst nofun nofun rfl
    | udpMode w => exact hm.moveOn hst nofun nofun rfl
    | tun w p => exact hm.moveOn hst nofun nofun rfl
    | datagram data ip port => exact hm.moveOn hst nofun nofun rfl
    | tick d => exact hm.moveOn hst nofun nofun rfl
  | stopen payload =>
    rw [← Option.some.inj hst]
    exact hm.stopen payload
  | grant sid node => exact hm.grant hok hst
  | confirm sid =>
    rw [← Option.some.inj hst]
    exact hm.confirm sid
  | popped sid =>
    rw [← Option.some.inj hst]
    exact hm.sub (sub_pop h sid)
  | strayGrant sid node =>
    rw [← Option.some.inj hst]
    exact hm.index node sid

theorem minded_init (token : Bytes) (allowed allowed_tcp : List Nat) (subnet clock : Nat) :
    Minded (init token allowed allowed_tcp subnet clock) :=
  ⟨(Relay.tied_init token allowed subnet clock).toOpenTied, fun _ _ hs => absurd hs nofun,
    fun _ _ hs => absurd hs nofun⟩

/-- **Handshakes die with their node.**  In every run in which pruning comes to no handshake's node
that has only closing links, and no connection registers for two nodes: whenever the handlers of all
closing connections have ended, the opener's node and an addressed destination of each handshake have
a live link. -/
theorem backed_run {token : Bytes} {allowed allowed_tcp : List Nat} {subnet clock : Nat}
    {tr : List (Exchange × Act)} (hp : Path next (init token allowed allowed_tcp subnet clock) tr h)
    (hok : ∀ x ∈ tr, x.1.Calm x.2) : ∀ u ∈ visited tr h, u.Settled → u.Backed :=
  hp.all_of_ok (minded_init token allowed allowed_tcp subnet clock) (fun _ hm => hm.backed)
    (fun _ _ _ hm hc hst => hm.next hc hst) hok

/-- two nodes, a stream from one to the other, whose opener is reset -/
def hangUp : List Act :=
  [.relay (.accept 1 "10.0.0.9"), .relay (.node 1 [3, 0, 0, 0, 0, 0, 1, 0x13, 0x88, 0]),
    .relay (.accept 2 "10.0.0.8"), .relay (.node 2 [3, 0, 0, 0, 0, 0, 2, 0x13, 0x88, 0]),
    .stopen [0, 0, 0, 1, 0, 0, 0, 2, 0, 0, 0, 9, 0x69, 0x87], .relay (.close 1)]

/-- the handler ends, and then a third node registers -/
def hangUpFirst : List Act :=
  hangUp ++ ([.relay (.gone 1), .relay (.accept 3 "10.0.0.7"),
    .relay (.node 3 [3, 0, 0, 0, 0, 0, 3, 0x13, 0x88, 0])] : List Act)

theorem backed_hangUpFirst : ∃ h, run next (init [] [] [] 0 0) hangUpFirst = some h ∧
    ∀ u ∈ visited (trace next (init [] [] [] 0 0) hangUpFirst) h, u.Settled → u.Backed := by
  have hrun : (run next (init [] [] [] 0 0) hangUpFirst).isSome = true := by decide
  obtain ⟨h, hs⟩ := Option.isSome_iff_exists.mp hrun
  have hok : ∀ x ∈ trace next (init [] [] [] 0 0) hangUpFirst, x.1.Calm x.2 := by decide
  exact ⟨h, hs, backed_run (path_run hs) hok⟩

/-- the third node registers before the handler ends -/
def hangUpLast : List Act :=
  hangUp ++ ([.relay (.accept 3 "10.0.0.7"),
    .relay (.node 3 [3, 0, 0, 0, 0, 0, 3, 0x13, 0x88, 0]), .relay (.gone 1)] : List Act)

/-- the handshake outlives its opener's node -/
theorem hangUpLast_orphan : ∃ h, run next (init [] [] [] 0 0) hangUpLast = some h ∧ h.Settled ∧
    (h.streams.get? 9).map StreamRec.state = some .opened ∧ h.relay.live_links 1 = [] ∧
    ¬ h.Backed := by
  have hrun : (run next (init [] [] [] 0 0) hangUpLast).isSome = true := by decide
  obtain ⟨h, hs⟩ := Option.isSome_iff_exists.mp hrun
  have hend : ∀ h ∈ run next (init [] [] [] 0 0) hangUpLast,
      (∀ x ∈ h.relay.players.items, h.relay.isClosing x.1 = false) ∧
      (h.streams.get? 9).map StreamRec.state = some .opened ∧ h.relay.live_links 1 = [] ∧
      ¬ h.Backed := by
    decide
  obtain ⟨hset, hrest⟩ := hend h hs
  exact ⟨h, hs, fun w ip hw => hset (w, ip) (Dict.get?_eq_some.mp hw), hrest⟩

end Exchange

end ShadowLan
