import ShadowLan.Relay.HostClaims

/-!
# Keepalives

Every hook process repeats its `U_NODE`, and the relay picks the link that the datagram is for by
the declared port, then by a missing endpoint, then by staleness.

* `endpoint?`       the endpoint that a link has;
* `Refreshed`       a keepalive from an endpoint of the node refreshes it and moves no other;
* `Own`             the pick is a link that has the endpoint;
* `Settled`         and it is so again and again, whatever the order of the keepalives;
* `keepalive_iff`   in a state that is not settled, some order of keepalives loses an endpoint.
-/

namespace ShadowLan
namespace Relay
variable (s : Relay)

def endpoint? (n : Nat) (w : Writer) : Option Addr := (s.link? n w).bind Link.udp_addr

/-- an accepted `U_NODE` for the node -/
def Keepalive (n : Nat) (data : Bytes) : Prop :=
  ∃ f, decodeUdpNode data = some f ∧ f.node = n ∧ s.tokenOk f.token = true

/-- the endpoint of a link was heard from now, and every other link of the node has the endpoint it
had -/
def Refreshed (t : Relay) (n : Nat) (a : Addr) : Prop :=
  ∃ w, s.endpoint? n w = some a ∧
    (∃ l, t.link? n w = some l ∧ l.udp_addr = some a ∧ l.seen_udp = s.clock) ∧
    ∀ v, v ≠ w → t.endpoint? n v = s.endpoint? n v

/-! ## the pick -/

/-- the link declared this source port -/
def declares (a : Addr) (x : Writer × Link) : Bool := .udp x.2.tcp_ip x.2.udp_port = a

def sameIp (a : Addr) (x : Writer × Link) : Bool :=
  match a with
  | .udp ip _ => x.2.tcp_ip = ip
  | .tcp _ => false

/-- the link has this endpoint -/
def hasEnd (a : Addr) (x : Writer × Link) : Bool := x.2.udp_addr = some a

/-- The first link that declared the source has it as its endpoint.  When none did, every link of
the same ip has an endpoint, and the one that was silent for longest has this one.  When there is no
link of the same ip either, the first link has it. -/
structure Own (n : Nat) (a : Addr) : Prop where
  declared : ((s.nodeLinks n).find? (declares a)).all (hasEnd a) = true
  known : (s.nodeLinks n).find? (declares a) = none →
    ∀ x ∈ s.nodeLinks n, sameIp a x = true → x.2.udp_addr ≠ none
  oldest : (s.nodeLinks n).find? (declares a) = none →
    (stalest (fun x => x.2.seen_udp) ((s.nodeLinks n).filter (sameIp a))).all (hasEnd a) = true
  first : (s.nodeLinks n).find? (declares a) = none → (s.nodeLinks n).filter (sameIp a) = [] →
    (s.nodeLinks n).head?.all (hasEnd a) = true

/-- as `Own`, but every link of the same ip has the endpoint: whichever is the stalest -/
structure Settled (n : Nat) (a : Addr) : Prop where
  declared : ((s.nodeLinks n).find? (declares a)).all (hasEnd a) = true
  same : (s.nodeLinks n).find? (declares a) = none →
    ∀ x ∈ s.nodeLinks n, sameIp a x = true → hasEnd a x = true
  first : (s.nodeLinks n).find? (declares a) = none → (s.nodeLinks n).filter (sameIp a) = [] →
    (s.nodeLinks n).head?.all (hasEnd a) = true

variable {s} {t : Relay}

theorem bestLink_eq (s : Relay) (n : Nat) (a : Addr) :
    s.bestLink n a = ((s.nodeLinks n).find? (declares a)).or
      (((s.nodeLinks n).find? fun x => sameIp a x && x.2.udp_addr = none).or
        ((stalest (fun x => x.2.seen_udp) ((s.nodeLinks n).filter (sameIp a))).or
          (s.nodeLinks n).head?)) := rfl

/-- a node with a link has a pick -/
theorem bestLink_some {n : Nat} (a : Addr) {x : Writer × Link} (hx : x ∈ s.nodeLinks n) :
    ∃ y, s.bestLink n a = some y := by
  have hne : s.nodeLinks n ≠ [] := List.ne_nil_of_mem hx
  obtain ⟨y, hy⟩ := Option.isSome_iff_exists.mp (List.isSome_head?.mpr hne)
  apply Option.isSome_iff_exists.mp
  rw [bestLink_eq, hy]
  simp

/-- **The pick has the endpoint** exactly under the condition -/
theorem own_iff {n : Nat} {a : Addr} {y : Writer × Link} (hy : s.bestLink n a = some y) :
    s.Own n a ↔ y.2.udp_addr = some a := by
  rw [bestLink_eq] at hy
  constructor
  · intro h
    rcases Option.or_eq_some_iff.mp hy with hd | ⟨hd, hy⟩
    · have hall := h.declared
      rw [hd] at hall
      exact of_decide_eq_true hall
    rcases Option.or_eq_some_iff.mp hy with hu | ⟨-, hy⟩
    · have hp := List.find?_some hu
      have hp : (sameIp a y && decide (y.2.udp_addr = none)) = true := hp
      obtain ⟨hip, hno⟩ := Bool.and_eq_true_iff.mp hp
      exact absurd (of_decide_eq_true hno) (h.known hd y (List.mem_of_find?_eq_some hu) hip)
    rcases Option.or_eq_some_iff.mp hy with ho | ⟨ho, hy⟩
    · have hall := h.oldest hd
      rw [ho] at hall
      exact of_decide_eq_true hall
    · have hall := h.first hd (stalest_eq_none ho)
      rw [hy] at hall
      exact of_decide_eq_true hall
  · intro h
    have hy' : hasEnd a y = true := decide_eq_true h
    rcases Option.or_eq_some_iff.mp hy with hd | ⟨hd, hy⟩
    · have hno : ¬ (s.nodeLinks n).find? (declares a) = none := by
        rw [hd]
        exact Option.some_ne_none y
      refine ⟨?_, fun h => absurd h hno, fun h => absurd h hno, fun h => absurd h hno⟩
      rw [hd]
      exact hy'
    rcases Option.or_eq_some_iff.mp hy with hu | ⟨hu, hy⟩
    · -- the pick has no endpoint at all
      have hp := List.find?_some hu
      have hp : (sameIp a y && decide (y.2.udp_addr = none)) = true := hp
      rw [of_decide_eq_true (Bool.and_eq_true_iff.mp hp).2] at h
      cases h
    have hdec : ((s.nodeLinks n).find? (declares a)).all (hasEnd a) = true := by
      rw [hd]
      rfl
    have hknown : ∀ x ∈ s.nodeLinks n, sameIp a x = true → x.2.udp_addr ≠ none := by
      intro x hx hip hno
      have hp := List.find?_eq_none.mp hu x hx
      rw [hip, decide_eq_true hno] at hp
      exact hp rfl
    rcases Option.or_eq_some_iff.mp hy with ho | ⟨ho, hy⟩
    · refine ⟨hdec, fun _ => hknown, fun _ => ?_, fun _ he => ?_⟩
      · rw [ho]
        exact hy'
      · rw [he] at ho
        cases ho
    · refine ⟨hdec, fun _ => hknown, fun _ => ?_, fun _ _ => ?_⟩
      · rw [ho]
        rfl
      · rw [hy]
        exact hy'

/-! ## one keepalive -/

/-- the picked link after the keepalive -/
def heardLink (s : Relay) (a : Addr) (flags : Nat) (l : Link) : Link :=
  let l := { l with udp_addr := some a, seen_udp := s.clock }
  if isHostFlag flags then { l with host_claim := s.clock } else l

theorem nodeLinks_modify (s : Relay) (n : Nat) (w : Writer) (f : Link → Link) :
    (s.updateLink n w f).nodeLinks n =
      (s.nodeLinks n).map fun e => (e.1, if e.1 = w then f e.2 else e.2) := by
  unfold nodeLinks updateLink
  dsimp only
  rw [Dict.get?_modify, if_pos rfl]
  cases s.nodes.get? n with
  | none => rfl
  | some ent => rfl

theorem handleUdpPayload_node {data : Bytes} {f : NodeFrame} (hf : decodeUdpNode data = some f)
    (a : Addr) : (s.handleUdpPayload data a).1 = s.handleNode data a := by
  have hok : (udpHeaderOk data 10 && udpOp data == U_NODE) = true := by
    unfold decodeUdpNode at hf
    split at hf
    · assumption
    · cases hf
  obtain ⟨hh, hop⟩ := Bool.and_eq_true_iff.mp hok
  have hop : udpOp data = U_NODE := eq_of_beq hop
  have hh4 : udpHeaderOk data 4 = true := by
    unfold udpHeaderOk at hh ⊢
    simp only [Bool.and_eq_true, decide_eq_true_iff] at hh ⊢
    exact ⟨⟨by omega, hh.1.2⟩, hh.2⟩
  unfold handleUdpPayload
  rw [hh4, if_neg (by simp), if_pos hop]

/-- what a keepalive does to the links of its node -/
theorem keepalive_links {n : Nat} {data : Bytes} {f : NodeFrame} {a : Addr} {y : Writer × Link}
    (hf : decodeUdpNode data = some f) (hn : f.node = n) (ht : s.tokenOk f.token = true)
    (hy : s.bestLink n a = some y) :
    (s.handleUdpPayload data a).1.nodeLinks n =
      (s.nodeLinks n).map fun e => (e.1, if e.1 = y.1 then s.heardLink a f.flags e.2 else e.2) := by
  rw [handleUdpPayload_node hf]
  unfold handleNode
  rw [hf]
  dsimp only
  rw [if_neg (by simp [ht]), hn, hy]
  dsimp only
  have hnote : ∀ u : Relay, (u.noteUdp a).nodeLinks n = u.nodeLinks n := fun _ => rfl
  have hclock : (s.attach n y.1 a).clock = s.clock := rfl
  rw [hnote]
  unfold heardLink
  cases isHostFlag f.flags with
  | true =>
    rw [if_pos rfl, nodeLinks_modify, hclock]
    unfold attach
    rw [nodeLinks_modify, List.map_map]
    apply List.map_congr_left
    intro e _
    by_cases he : e.1 = y.1
    · simp [he]
    · simp [he]
  | false =>
    unfold attach
    rw [if_neg Bool.false_ne_true, nodeLinks_modify]
    rfl

theorem link?_iff {n : Nat} {w : Writer} {l : Link} :
    s.link? n w = some l ↔ (w, l) ∈ s.nodeLinks n := by
  unfold link? nodeLinks
  cases s.nodes.get? n with
  | none => simp
  | some ent => exact Dict.get?_eq_some

theorem link?_of_mem {n : Nat} {x : Writer × Link} (h : x ∈ s.nodeLinks n) :
    s.link? n x.1 = some x.2 := link?_iff.mpr h

theorem endpoint?_iff {n : Nat} {w : Writer} {a : Addr} :
    s.endpoint? n w = some a ↔ ∃ l, (w, l) ∈ s.nodeLinks n ∧ l.udp_addr = some a := by
  unfold endpoint?
  rw [Option.bind_eq_some_iff]
  exact exists_congr fun l => and_congr_left' link?_iff

theorem endpoint?_of_mem {n : Nat} {x : Writer × Link} (h : x ∈ s.nodeLinks n) :
    s.endpoint? n x.1 = x.2.udp_addr := by
  unfold endpoint?
  rw [link?_of_mem h]
  rfl

/-- the pick has the endpoint now, the others are as before -/
theorem link?_keepalive {n : Nat} {data : Bytes} {f : NodeFrame} {a : Addr} {y : Writer × Link}
    (hf : decodeUdpNode data = some f) (hn : f.node = n) (ht : s.tokenOk f.token = true)
    (hy : s.bestLink n a = some y) (v : Writer) :
    (s.handleUdpPayload data a).1.link? n v =
      if v = y.1 then (s.link? n v).map (s.heardLink a f.flags) else s.link? n v := by
  apply Option.ext
  intro l
  rw [link?_iff, keepalive_links hf hn ht hy, List.mem_map]
  constructor
  · rintro ⟨e, he, hl⟩
    obtain ⟨hv, hl⟩ := Prod.mk.inj hl
    have hlink := link?_of_mem he
    rw [← hv, hlink, ← hl]
    split <;> rfl
  · intro h
    split at h
    next hv =>
      obtain ⟨l0, hl0, hl⟩ := Option.map_eq_some_iff.mp h
      exact ⟨(v, l0), link?_iff.mp hl0, by rw [if_pos hv, hl]⟩
    next hv => exact ⟨(v, l), link?_iff.mp h, by rw [if_neg hv]⟩

theorem heardLink_udp_addr (s : Relay) (a : Addr) (flags : Nat) (l : Link) :
    (s.heardLink a flags l).udp_addr = some a := by
  unfold heardLink
  dsimp only
  split <;> rfl

theorem heardLink_seen_udp (s : Relay) (a : Addr) (flags : Nat) (l : Link) :
    (s.heardLink a flags l).seen_udp = s.clock := by
  unfold heardLink
  dsimp only
  split <;> rfl

theorem endpoint?_keepalive {n : Nat} {data : Bytes} {f : NodeFrame} {a : Addr} {y : Writer × Link}
    (hf : decodeUdpNode data = some f) (hn : f.node = n) (ht : s.tokenOk f.token = true)
    (hy : s.bestLink n a = some y) (v : Writer) :
    (s.handleUdpPayload data a).1.endpoint? n v = if v = y.1 then some a else s.endpoint? n v := by
  unfold endpoint?
  rw [link?_keepalive hf hn ht hy]
  by_cases hv : v = y.1
  · rw [if_pos hv, if_pos hv, hv, link?_of_mem (bestLink_mem hy)]
    exact heardLink_udp_addr s a f.flags y.2
  · rw [if_neg hv, if_neg hv]

/-- **A keepalive refreshes its own endpoint** exactly under the condition -/
theorem refreshed_iff {n : Nat} {data : Bytes} {a : Addr} (hk : s.Keepalive n data)
    (hw : ∃ w, s.endpoint? n w = some a) :
    s.Refreshed (s.handleUdpPayload data a).1 n a ↔ s.Own n a := by
  obtain ⟨f, hf, hn, ht⟩ := hk
  obtain ⟨w0, hw0⟩ := hw
  obtain ⟨l0, hl0, -⟩ := endpoint?_iff.mp hw0
  obtain ⟨y, hy⟩ := bestLink_some a hl0
  have hmem := bestLink_mem hy
  have hend := endpoint?_of_mem hmem
  have hstep := endpoint?_keepalive hf hn ht hy
  rw [own_iff hy]
  constructor
  · rintro ⟨w, hold, -, hothers⟩
    by_cases hyw : y.1 = w
    · rw [← hend, hyw]
      exact hold
    · have hsame := hothers y.1 hyw
      rw [hstep, if_pos rfl, hend] at hsame
      exact hsame.symm
  · intro hya
    refine ⟨y.1, hend.trans hya, ?_, fun v hv => (hstep v).trans (if_neg hv)⟩
    refine ⟨s.heardLink a f.flags y.2, ?_, heardLink_udp_addr s a f.flags y.2,
      heardLink_seen_udp s a f.flags y.2⟩
    rw [link?_keepalive hf hn ht hy, if_pos rfl, link?_of_mem hmem]
    rfl

/-! ## runs of keepalives -/

/-- a keepalive of the node from an endpoint of one of its links, or time passes -/
def KeepStep (s : Relay) (n : Nat) : RelayAct → Prop
  | .datagram data ip port => s.Keepalive n data ∧ ∃ w, s.endpoint? n w = some (.udp ip port)
  | .tick _ => True
  | _ => False

def KeepRun (n : Nat) (tr : List (Relay × RelayAct)) : Prop := ∀ x ∈ tr, x.1.KeepStep n x.2

/-- the keepalives of the node, in any number and any order, leave every link its endpoint -/
def AllKept (s : Relay) (n : Nat) : Prop :=
  ∀ tr t, Path next s tr t → KeepRun n tr → ∀ w, t.endpoint? n w = s.endpoint? n w

/-- every endpoint of the node is settled -/
def AllSettled (s : Relay) (n : Nat) : Prop :=
  ∀ ip port, (∃ w, s.endpoint? n w = some (.udp ip port)) → s.Settled n (.udp ip port)

/-- what a keepalive at time `c` leaves of a link -/
structure Alive (c : Nat) (x y : Writer × Link) : Prop where
  writer : y.1 = x.1
  tcp_ip : y.2.tcp_ip = x.2.tcp_ip
  udp_port : y.2.udp_port = x.2.udp_port
  udp_addr : y.2.udp_addr = x.2.udp_addr
  udp_tcp : y.2.udp_tcp = x.2.udp_tcp
  seen_udp : y.2.seen_udp = x.2.seen_udp ∨ y.2.seen_udp = c

/-- what keepalives that steal nothing leave of the links of a node -/
def Calmed (s t : Relay) (n : Nat) : Prop :=
  ∃ g, t.nodeLinks n = (s.nodeLinks n).map g ∧ ∀ x ∈ s.nodeLinks n, Alive s.clock x (g x)

theorem Settled.own {n : Nat} {a : Addr} (h : s.Settled n a) : s.Own n a := by
  refine ⟨h.declared, fun hd x hx hip hno => ?_, fun hd => ?_, h.first⟩
  · have hx := of_decide_eq_true (h.same hd x hx hip)
    rw [hno] at hx
    cases hx
  · rcases Option.eq_none_or_eq_some
      (stalest (fun x => x.2.seen_udp) ((s.nodeLinks n).filter (sameIp a))) with ho | ⟨x, ho⟩
    · rw [ho]
      rfl
    · rw [ho]
      obtain ⟨hx, hip⟩ := List.mem_filter.mp (stalest_mem ho)
      exact h.same hd x hx hip

section
variable {c : Nat} {x y : Writer × Link}

theorem Alive.declares (h : Alive c x y) (a : Addr) : Relay.declares a y = Relay.declares a x := by
  unfold Relay.declares
  rw [h.tcp_ip, h.udp_port]

theorem Alive.sameIp (h : Alive c x y) (a : Addr) : Relay.sameIp a y = Relay.sameIp a x := by
  unfold Relay.sameIp
  cases a with
  | udp ip port => rw [h.tcp_ip]
  | tcp w => rfl

theorem Alive.hasEnd (h : Alive c x y) (a : Addr) : Relay.hasEnd a y = Relay.hasEnd a x := by
  unfold Relay.hasEnd
  rw [h.udp_addr]

end

/-- the condition reads nothing that a keepalive changes -/
theorem Calmed.settled {n : Nat} {a : Addr} (h : Calmed s t n) (hs : s.Settled n a) :
    t.Settled n a := by
  obtain ⟨g, hl, hg⟩ := h
  have hfind : (t.nodeLinks n).find? (declares a) = ((s.nodeLinks n).find? (declares a)).map g := by
    rw [hl]
    exact find?_map_of_mem fun x hx => (hg x hx).declares a
  have hnone : (t.nodeLinks n).find? (declares a) = none →
      (s.nodeLinks n).find? (declares a) = none := by
    intro hd
    rw [hfind] at hd
    exact Option.map_eq_none_iff.mp hd
  refine ⟨?_, fun hd x hx hip => ?_, fun hd he => ?_⟩
  · rw [hfind, all_map_of_mem fun x hx => (hg x (List.mem_of_find?_eq_some hx)).hasEnd a]
    exact hs.declared
  · rw [hl] at hx
    obtain ⟨e, he, rfl⟩ := List.mem_map.mp hx
    rw [(hg e he).sameIp] at hip
    rw [(hg e he).hasEnd]
    exact hs.same (hnone hd) e he hip
  · have hno : (s.nodeLinks n).filter (sameIp a) = [] := by
      apply List.filter_eq_nil_iff.mpr
      intro x hx hip
      have hgx : g x ∈ (t.nodeLinks n).filter (sameIp a) := by
        rw [hl]
        exact List.mem_filter.mpr ⟨List.mem_map_of_mem hx, ((hg x hx).sameIp a).trans hip⟩
      rw [he] at hgx
      cases hgx
    rw [hl, List.head?_map, all_map_of_mem fun x hx => (hg x (List.mem_of_mem_head? hx)).hasEnd a]
    exact hs.first (hnone hd) hno

theorem Calmed.refl (s : Relay) (n : Nat) : Calmed s s n :=
  ⟨id, (List.map_id _).symm, fun _ _ => ⟨rfl, rfl, rfl, rfl, rfl, Or.inl rfl⟩⟩

theorem Calmed.endpoint? {n : Nat} (h : Calmed s t n) (w : Writer) :
    t.endpoint? n w = s.endpoint? n w := by
  obtain ⟨g, hl, hg⟩ := h
  have hfwd : ∀ x ∈ s.nodeLinks n, t.endpoint? n x.1 = s.endpoint? n x.1 := by
    intro x hx
    have hgx : g x ∈ t.nodeLinks n := by
      rw [hl]
      exact List.mem_map_of_mem hx
    rw [← (hg x hx).writer, endpoint?_of_mem hgx, (hg x hx).writer, (hg x hx).udp_addr,
      endpoint?_of_mem hx]
  rcases Option.eq_none_or_eq_some (s.link? n w) with hno | ⟨l, hlink⟩
  · have hno' : t.link? n w = none := by
      apply Option.eq_none_iff_forall_not_mem.mpr
      intro l hlink
      have hm := link?_iff.mp hlink
      rw [hl] at hm
      obtain ⟨e, he, heq⟩ := List.mem_map.mp hm
      have hw : e.1 = w := by rw [← (hg e he).writer, heq]
      rw [← hw, link?_of_mem he] at hno
      cases hno
    unfold Relay.endpoint?
    rw [hno, hno']
  · exact hfwd (w, l) (link?_iff.mp hlink)

/-- a keepalive whose pick has the endpoint steals nothing -/
theorem calmed_keepalive {n : Nat} {data : Bytes} {f : NodeFrame} {a : Addr} {y : Writer × Link}
    (hf : decodeUdpNode data = some f) (hn : f.node = n) (ht : s.tokenOk f.token = true)
    (hy : s.bestLink n a = some y) (hya : y.2.udp_addr = some a) :
    Calmed s (s.handleUdpPayload data a).1 n := by
  refine ⟨_, keepalive_links hf hn ht hy, fun x hx => ?_⟩
  split
  next hw =>
    -- the link is the pick
    have hxy : x.2.udp_addr = some a := by
      rw [← endpoint?_of_mem hx, hw, endpoint?_of_mem (bestLink_mem hy), hya]
    unfold heardLink
    dsimp only
    split <;> exact ⟨rfl, rfl, rfl, hxy.symm, rfl, Or.inr rfl⟩
  next => exact ⟨rfl, rfl, rfl, rfl, rfl, Or.inl rfl⟩

theorem calmed_step {n : Nat} {l : RelayAct} (hs : s.AllSettled n) (hok : s.KeepStep n l)
    (hl : s.next l = some t) : Calmed s t n := by
  cases l with
  | datagram data ip port =>
    obtain ⟨⟨f, hf, hn, ht⟩, hw⟩ := hok
    obtain ⟨w, hw'⟩ := hw
    obtain ⟨l0, hl0, -⟩ := endpoint?_iff.mp hw'
    obtain ⟨y, hy⟩ := bestLink_some (.udp ip port) hl0
    have hya := (own_iff hy).mp (hs ip port ⟨w, hw'⟩).own
    rw [← Option.some.inj hl]
    exact calmed_keepalive hf hn ht hy hya
  | tick d =>
    rw [← Option.some.inj hl]
    exact Calmed.refl s n
  | _ => exact hok.elim

theorem Calmed.allSettled {n : Nat} (h : Calmed s t n) (hs : s.AllSettled n) : t.AllSettled n := by
  intro ip port hw
  apply h.settled
  apply hs
  obtain ⟨w, hw⟩ := hw
  exact ⟨w, (h.endpoint? w).symm.trans hw⟩

/-- **Settled endpoints stay** -/
theorem AllSettled.kept {n : Nat} (hs : s.AllSettled n) : s.AllKept n := by
  intro tr t hp hrun
  have hstep : ∀ (u : Relay) (l : RelayAct) (u' : Relay), (u.AllSettled n ∧ ∀ w, u.endpoint? n w = s.endpoint? n w) →
      u.KeepStep n l → u.next l = some u' →
      u'.AllSettled n ∧ ∀ w, u'.endpoint? n w = s.endpoint? n w := by
    rintro u l u' ⟨hu, hend⟩ hok hl
    have hc := calmed_step hu hok hl
    exact ⟨hc.allSettled hu, fun w => (hc.endpoint? w).trans (hend w)⟩
  exact (hp.inv_of_ok ⟨hs, fun _ => rfl⟩ hstep hrun).2

/-! ## the silent link is picked in the end -/

theorem AllKept.path {n : Nat} {tr : List (Relay × RelayAct)} (h : s.AllKept n)
    (hp : Path next s tr t) (hrun : KeepRun n tr) : t.AllKept n := by
  intro tr' u hp' hrun' w
  have hboth : KeepRun n (tr ++ tr') := by
    intro x hx
    rcases List.mem_append.mp hx with hx | hx
    · exact hrun x hx
    · exact hrun' x hx
  exact (h _ u (hp.trans hp') hboth w).trans (h tr t hp hrun w).symm

theorem KeepRun.one {n : Nat} {l : RelayAct} (h : s.KeepStep n l) : KeepRun n [(s, l)] := by
  intro x hx
  rw [List.mem_singleton.mp hx]
  exact h

theorem next_datagram (s : Relay) (data : Bytes) (ip : String) (port : Nat) :
    s.next (.datagram data ip port) = some (s.handleUdpPayload data (.udp ip port)).1 := rfl

/-- when nothing is stolen, the pick has the endpoint -/
theorem AllKept.own {n : Nat} {data : Bytes} {ip : String} {port : Nat} {y : Writer × Link}
    (h : s.AllKept n) (hk : s.Keepalive n data) (hw : ∃ w, s.endpoint? n w = some (.udp ip port))
    (hy : s.bestLink n (.udp ip port) = some y) : y.2.udp_addr = some (.udp ip port) := by
  have hkept := h _ _ (Path.one (next_datagram s data ip port)) (KeepRun.one ⟨hk, hw⟩) y.1
  obtain ⟨f, hf, hn, ht⟩ := hk
  rw [endpoint?_keepalive hf hn ht hy, if_pos rfl, endpoint?_of_mem (bestLink_mem hy)] at hkept
  exact hkept.symm

/-- a link of the same ip that was silent since -/
def silent (a : Addr) (c : Nat) (x : Writer × Link) : Bool := sameIp a x && decide (x.2.seen_udp < c)

/-- Keepalives from `a` alone: each picks the link of that ip that was silent for longest, so it is
the turn of the link with another endpoint in the end. -/
theorem AllKept.no_other {n k : Nat} {data : Bytes} {ip : String} {port : Nat} {y : Writer × Link}
    (hcount : (s.nodeLinks n).countP (silent (.udp ip port) s.clock) = k) (h : s.AllKept n)
    (hk : s.Keepalive n data) (hw : ∃ w, s.endpoint? n w = some (.udp ip port))
    (hd : (s.nodeLinks n).find? (declares (.udp ip port)) = none) (hy : y ∈ s.nodeLinks n)
    (hs : silent (.udp ip port) s.clock y = true) : y.2.udp_addr = some (.udp ip port) := by
  induction k using Nat.strong_induction_on generalizing s y with
  | _ k ih =>
    set a : Addr := .udp ip port with ha
    obtain ⟨hip, hseen⟩ := Bool.and_eq_true_iff.mp hs
    have hseen : y.2.seen_udp < s.clock := of_decide_eq_true hseen
    obtain ⟨x, hx⟩ := bestLink_some a hy
    have hxa : x.2.udp_addr = some a := h.own hk hw hx
    have hxm := bestLink_mem hx
    -- the pick is the stalest link of the ip
    have hold : stalest (fun x => x.2.seen_udp) ((s.nodeLinks n).filter (sameIp a)) = some x := by
      have hb := hx
      rw [bestLink_eq, hd] at hb
      rcases Option.or_eq_some_iff.mp hb with hb | ⟨-, hb⟩
      · cases hb
      rcases Option.or_eq_some_iff.mp hb with hb | ⟨-, hb⟩
      · have hp := List.find?_some hb
        have hp : (sameIp a x && decide (x.2.udp_addr = none)) = true := hp
        rw [of_decide_eq_true (Bool.and_eq_true_iff.mp hp).2] at hxa
        cases hxa
      rcases Option.or_eq_some_iff.mp hb with hb | ⟨hb, -⟩
      · exact hb
      · have hno := stalest_eq_none hb
        have hmem : y ∈ (s.nodeLinks n).filter (sameIp a) := List.mem_filter.mpr ⟨hy, hip⟩
        rw [hno] at hmem
        cases hmem
    obtain ⟨-, hxip⟩ := List.mem_filter.mp (stalest_mem hold)
    have hxy : x.2.seen_udp ≤ y.2.seen_udp :=
      stalest_le hold y (List.mem_filter.mpr ⟨hy, hip⟩)
    by_cases hsame : y.1 = x.1
    · rw [← endpoint?_of_mem hy, hsame, endpoint?_of_mem hxm, hxa]
    · -- one keepalive: the pick is not silent any more, and `y` is as it was
      have hpath := Path.one (next_datagram s data ip port)
      have hrun : KeepRun n [(s, RelayAct.datagram data ip port)] := KeepRun.one ⟨hk, hw⟩
      obtain ⟨f, hf, hn, ht⟩ := hk
      have hlinks := keepalive_links hf hn ht hx
      have hcalm := calmed_keepalive hf hn ht hx hxa
      set u := (s.handleUdpPayload data a).1 with hu
      have hmem := same_handleNode s data a
      rw [← handleUdpPayload_node hf, ← hu] at hmem
      have hclock : u.clock = s.clock := hmem.clock
      have htok : u.tokenOk f.token = true := by
        unfold tokenOk at ht ⊢
        rw [hmem.token]
        exact ht
      obtain ⟨w, hw⟩ := hw
      have hyu : y ∈ u.nodeLinks n := by
        rw [hlinks]
        exact List.mem_map.mpr ⟨y, hy, by rw [if_neg hsame]⟩
      have hdu : (u.nodeLinks n).find? (declares a) = none := by
        obtain ⟨g, hg, halive⟩ := hcalm
        rw [hg, find?_map_of_mem fun x hx => (halive x hx).declares a, hd]
        rfl
      have hless : (u.nodeLinks n).countP (silent a u.clock) < k := by
        rw [hclock, ← hcount, hlinks]
        apply countP_map_lt _ hxm
        · exact Bool.and_eq_true_iff.mpr ⟨hxip, decide_eq_true (Nat.lt_of_le_of_lt hxy hseen)⟩
        · unfold silent
          rw [if_pos rfl, heardLink_seen_udp, decide_eq_false (Nat.lt_irrefl _), Bool.and_false]
        · intro z hz hp
          split at hp
          next =>
            unfold silent at hp
            rw [heardLink_seen_udp, decide_eq_false (Nat.lt_irrefl _), Bool.and_false] at hp
            cases hp
          next => exact hp
      exact ih _ hless rfl (h.path hpath hrun) ⟨f, hf, hn, htok⟩
        ⟨w, (hcalm.endpoint? w).trans hw⟩ hdu hyu (by rw [hclock]; exact hs)

/-- **An endpoint stays in any order** exactly when it is settled -/
theorem allKept_iff {n : Nat} {data : Bytes} (hk : s.Keepalive n data) :
    s.AllKept n ↔ s.AllSettled n := by
  refine ⟨fun h ip port hw => ?_, AllSettled.kept⟩
  obtain ⟨w, hw'⟩ := hw
  obtain ⟨l, hl, -⟩ := endpoint?_iff.mp hw'
  obtain ⟨y, hy⟩ := bestLink_some (.udp ip port) hl
  have hown := (own_iff hy).mpr (h.own hk ⟨w, hw'⟩ hy)
  refine ⟨hown.declared, fun hd x hx hip => ?_, hown.first⟩
  -- time passes, and then the link was silent
  have htick : s.next (.tick (x.2.seen_udp + 1)) =
      some { s with clock := s.clock + (x.2.seen_udp + 1) } := rfl
  have hlate := h.path (Path.one htick) (KeepRun.one trivial)
  have hsilent : silent (.udp ip port) (s.clock + (x.2.seen_udp + 1)) x = true :=
    Bool.and_eq_true_iff.mpr ⟨hip, decide_eq_true (by omega)⟩
  exact decide_eq_true (AllKept.no_other rfl hlate hk ⟨w, hw'⟩ hd hx hsilent)

/-- endpoints that were declared are settled: the NAT keeps the ports -/
theorem allSettled_of_declared {n : Nat}
    (h : ∀ x ∈ s.nodeLinks n, x.2.udp_addr = some (.udp x.2.tcp_ip x.2.udp_port)) :
    s.AllSettled n := by
  rintro ip port ⟨w, hw⟩
  obtain ⟨l, hl, hla⟩ := endpoint?_iff.mp hw
  have hdec : declares (.udp ip port) (w, l) = true :=
    decide_eq_true (Option.some.inj ((h (w, l) hl).symm.trans hla))
  have hsome : ¬ (s.nodeLinks n).find? (declares (.udp ip port)) = none :=
    fun hno => List.find?_eq_none.mp hno (w, l) hl hdec
  refine ⟨?_, fun hno => absurd hno hsome, fun hno => absurd hno hsome⟩
  obtain ⟨x, hx⟩ := Option.ne_none_iff_exists'.mp hsome
  have hxd : declares (.udp ip port) x = true := List.find?_some hx
  rw [hx]
  exact decide_eq_true ((h x (List.mem_of_find?_eq_some hx)).trans
    (congrArg some (of_decide_eq_true hxd)))

/-! ## the endpoints of the node -/

theorem clock_keepStep {n : Nat} {l : RelayAct} (hok : s.KeepStep n l) (hl : s.next l = some t) :
    s.clock ≤ t.clock := by
  cases l with
  | datagram data ip port =>
    obtain ⟨⟨f, hf, -⟩, -⟩ := hok
    rw [← Option.some.inj hl]
    show s.clock ≤ (s.handleUdpPayload data (.udp ip port)).1.clock
    rw [handleUdpPayload_node hf, (same_handleNode s data (.udp ip port)).clock]
  | tick d =>
    rw [← Option.some.inj hl]
    exact Nat.le_add_right s.clock d
  | _ => exact hok.elim

/-- a link was heard from at `c` or later, and its datagrams go to the endpoint -/
def HeardAt (s : Relay) (n : Nat) (a : Addr) (c : Nat) : Prop :=
  ∃ y ∈ s.nodeLinks n, y.2.udp_addr = some a ∧ y.2.udp_tcp = false ∧ c ≤ y.2.seen_udp

theorem HeardAt.calmed {n c : Nat} {a : Addr} (h : s.HeardAt n a c) (hc : c ≤ s.clock)
    (hcalm : Calmed s t n) : t.HeardAt n a c := by
  obtain ⟨y, hy, hya, htcp, hseen⟩ := h
  obtain ⟨g, hl, hg⟩ := hcalm
  have hgy := hg y hy
  refine ⟨g y, ?_, hgy.udp_addr.trans hya, hgy.udp_tcp.trans htcp, ?_⟩
  · rw [hl]
    exact List.mem_map_of_mem hy
  · rcases hgy.seen_udp with he | he
    · rw [he]
      exact hseen
    · rw [he]
      exact hc

theorem HeardAt.listed {n c : Nat} {a : Addr} (h : s.HeardAt n a c) (hc : s.clock < c + KNOWN_TTL) :
    a ∈ s.nodeUdpAddrs n := by
  obtain ⟨y, hy, hya, htcp, hseen⟩ := h
  have hfresh : s.isFresh y.2.seen_udp KNOWN_TTL = true := by
    have httl : 0 < KNOWN_TTL := by decide
    unfold isFresh
    exact decide_eq_true (by omega)
  apply mem_collect.mpr
  right
  apply List.mem_filterMap.mpr
  refine ⟨y, hy, ?_⟩
  unfold linkEndpoint
  rw [htcp, hya, Option.filter_some, hfresh]
  rfl

/-- a keepalive is heard -/
theorem heardAt_keepalive {n : Nat} {data : Bytes} {a : Addr} (hk : s.Keepalive n data)
    (hw : ∃ w, s.endpoint? n w = some a) (hs : s.Own n a)
    (hplain : ∀ y ∈ s.nodeLinks n, y.2.udp_addr = some a → y.2.udp_tcp = false) :
    (s.handleUdpPayload data a).1.HeardAt n a s.clock := by
  obtain ⟨f, hf, hn, ht⟩ := hk
  obtain ⟨w, hw⟩ := hw
  obtain ⟨l, hl, -⟩ := endpoint?_iff.mp hw
  obtain ⟨y, hy⟩ := bestLink_some a hl
  have hmem := bestLink_mem hy
  have hya := (own_iff hy).mp hs
  refine ⟨(y.1, s.heardLink a f.flags y.2), ?_, heardLink_udp_addr s a f.flags y.2, ?_,
    Nat.le_of_eq (heardLink_seen_udp s a f.flags y.2).symm⟩
  · rw [keepalive_links hf hn ht hy]
    exact List.mem_map.mpr ⟨y, hmem, by rw [if_pos rfl]⟩
  · rw [← hplain y hmem hya]
    unfold heardLink
    dsimp only
    split <;> rfl

/-- no link with the endpoint is in UDP-over-TCP mode -/
def Plain (s : Relay) (n : Nat) (a : Addr) : Prop :=
  ∀ y ∈ s.nodeLinks n, y.2.udp_addr = some a → y.2.udp_tcp = false

theorem Calmed.plain {n : Nat} {a : Addr} (h : Calmed s t n) (hp : s.Plain n a) : t.Plain n a := by
  obtain ⟨g, hl, hg⟩ := h
  intro y hy hya
  rw [hl] at hy
  obtain ⟨x, hx, rfl⟩ := List.mem_map.mp hy
  rw [(hg x hx).udp_tcp]
  exact hp x hx ((hg x hx).udp_addr.symm.trans hya)

/-- what keepalives were heard in a settled run -/
theorem heardAt_run {n : Nat} {tr : List (Relay × RelayAct)} (hs : s.AllSettled n)
    (hp : Path next s tr t) (hrun : KeepRun n tr) {ip : String} {port : Nat}
    (hplain : s.Plain n (.udp ip port)) :
    t.AllSettled n ∧ t.Plain n (.udp ip port) ∧
      ∀ u data, (u, RelayAct.datagram data ip port) ∈ tr →
        t.HeardAt n (.udp ip port) u.clock ∧ u.clock ≤ t.clock := by
  induction hp with
  | nil => exact ⟨hs, hplain, fun _ _ h => absurd h List.not_mem_nil⟩
  | @snoc tr v t l hpath hl ih =>
    obtain ⟨hv, hplainv, hheard⟩ := ih fun x hx => hrun x (List.mem_append_left _ hx)
    have hok : v.KeepStep n l := hrun (v, l) (List.mem_append_right _ List.mem_cons_self)
    have hcalm := calmed_step hv hok hl
    have hclock := clock_keepStep hok hl
    refine ⟨hcalm.allSettled hv, hcalm.plain hplainv, fun u data hu => ?_⟩
    rcases List.mem_append.mp hu with hu | hu
    · obtain ⟨hh, hc⟩ := hheard u data hu
      exact ⟨hh.calmed hc hcalm, Nat.le_trans hc hclock⟩
    · obtain ⟨rfl, rfl⟩ := Prod.mk.inj (List.mem_singleton.mp hu)
      obtain ⟨hk, hw⟩ := hok
      rw [← Option.some.inj hl]
      rw [← Option.some.inj hl] at hclock
      exact ⟨heardAt_keepalive hk hw (hv ip port hw).own hplainv, hclock⟩

/-- **Keepalives and endpoints.**  A keepalive from an endpoint of the node moves no endpoint iff the
pick has it.  Keepalives in any number and any order move none iff every endpoint is settled, and
then each endpoint that is heard from in time is an address of the node. -/
theorem endpoints_kept_iff (n : Nat) :
    (∀ (s : Relay) (data : Bytes) (a : Addr), s.Keepalive n data →
      (∃ w, s.endpoint? n w = some a) →
      (s.Refreshed (s.handleUdpPayload data a).1 n a ↔ s.Own n a)) ∧
    (∀ (s : Relay) (data : Bytes), s.Keepalive n data → (s.AllKept n ↔ s.AllSettled n)) ∧
    ∀ (s t : Relay) (tr : List (Relay × RelayAct)), s.AllSettled n → Path next s tr t →
      KeepRun n tr → ∀ (u : Relay) (data : Bytes) (ip : String) (port : Nat),
      s.Plain n (.udp ip port) → (u, RelayAct.datagram data ip port) ∈ tr →
      t.clock < u.clock + KNOWN_TTL → .udp ip port ∈ t.nodeUdpAddrs n := by
  refine ⟨fun s data a => refreshed_iff, fun s data => allKept_iff, ?_⟩
  intro s t tr hs hp hrun u data ip port hplain hu hc
  obtain ⟨-, -, hheard⟩ := heardAt_run hs hp hrun hplain
  exact (hheard u data hu).1.listed hc

/-! ### two processes behind one NAT -/

/-- two processes of node 1 register and declare the ports 5000 and 5001 -/
def twins : List RelayAct :=
  [.tick 5, .accept 1 "10.0.0.9", .node 1 [3, 0, 0, 0, 0, 0, 1, 0x13, 0x88, 0],
    .accept 2 "10.0.0.9", .node 2 [3, 0, 0, 0, 0, 0, 1, 0x13, 0x89, 0]]

/-- `U_NODE` of node 1 -/
def keepalive1 : Bytes := [0x56, 0x4E, 3, 4, 0, 0, 0, 0, 0, 1, 0, 0, 0]

theorem decode_keepalive1 : decodeUdpNode keepalive1 = some ⟨[], 1, 0, 0⟩ := by decide

/-- the NAT gives them the ports 6000 and 6001 -/
def rebound : List RelayAct :=
  twins ++ ([.tick 1, .datagram keepalive1 "10.0.0.9" 6000, .tick 1,
    .datagram keepalive1 "10.0.0.9" 6001, .tick 1, .datagram keepalive1 "10.0.0.9" 6000,
    .tick 1] : List RelayAct)

/-- the first process is heard a second time, and the second one is lost -/
theorem rebound_steals : ∃ s : Relay, s.Reachable ∧ s.Keepalive 1 keepalive1 ∧
    s.endpoint? 1 1 = some (.udp "10.0.0.9" 6000) ∧ s.endpoint? 1 2 = some (.udp "10.0.0.9" 6001) ∧
    ¬ s.Refreshed (s.handleUdpPayload keepalive1 (.udp "10.0.0.9" 6000)).1 1
      (.udp "10.0.0.9" 6000) ∧
    Addr.udp "10.0.0.9" 6001 ∈ s.nodeUdpAddrs 1 ∧
    Addr.udp "10.0.0.9" 6001 ∉
      (s.handleUdpPayload keepalive1 (.udp "10.0.0.9" 6000)).1.nodeUdpAddrs 1 := by
  have hrun : (run next (init [] [] 0 0) rebound).isSome = true := by decide
  obtain ⟨s, hs⟩ := Option.isSome_iff_exists.mp hrun
  have hend : ∀ s ∈ run next (init [] [] 0 0) rebound,
      s.tokenOk [] = true ∧
      s.endpoint? 1 1 = some (.udp "10.0.0.9" 6000) ∧
      s.endpoint? 1 2 = some (.udp "10.0.0.9" 6001) ∧
      (s.handleUdpPayload keepalive1 (.udp "10.0.0.9" 6000)).1.endpoint? 1 2 =
        some (.udp "10.0.0.9" 6000) ∧
      Addr.udp "10.0.0.9" 6001 ∈ s.nodeUdpAddrs 1 ∧
      Addr.udp "10.0.0.9" 6001 ∉
        (s.handleUdpPayload keepalive1 (.udp "10.0.0.9" 6000)).1.nodeUdpAddrs 1 := by
    decide
  obtain ⟨htok, h1, h2, hstolen, hin, hout⟩ := hend s hs
  refine ⟨s, ⟨[], [], 0, 0, _, path_run hs⟩, ⟨_, decode_keepalive1, rfl, htok⟩, h1, h2, ?_, hin,
    hout⟩
  rintro ⟨w, hw, -, hothers⟩
  have h21 : (2 : Nat) ≠ w := by
    intro he
    rw [← he, h2] at hw
    exact absurd hw (by decide)
  rw [hothers 2 h21, h2] at hstolen
  exact absurd hstolen (by decide)

/-- two processes whose ports the NAT keeps -/
def mapped : List RelayAct :=
  twins ++ ([.tick 1, .datagram keepalive1 "10.0.0.9" 5000, .tick 1,
    .datagram keepalive1 "10.0.0.9" 5001] : List RelayAct)

theorem endpoints_kept_mapped : ∃ s : Relay, s.Reachable ∧ s.AllKept 1 ∧
    s.Refreshed (s.handleUdpPayload keepalive1 (.udp "10.0.0.9" 5000)).1 1
      (.udp "10.0.0.9" 5000) ∧
    Addr.udp "10.0.0.9" 5000 ∈
      (s.handleUdpPayload keepalive1 (.udp "10.0.0.9" 5000)).1.nodeUdpAddrs 1 := by
  have hrun : (run next (init [] [] 0 0) mapped).isSome = true := by decide
  obtain ⟨s, hs⟩ := Option.isSome_iff_exists.mp hrun
  have hend : ∀ s ∈ run next (init [] [] 0 0) mapped,
      s.tokenOk [] = true ∧ s.endpoint? 1 1 = some (.udp "10.0.0.9" 5000) ∧
      (s.nodeLinks 1).all (fun x => x.2.udp_tcp = false) = true ∧
      (s.nodeLinks 1).all (fun x => hasEnd (.udp x.2.tcp_ip x.2.udp_port) x) = true := by
    decide
  obtain ⟨htok, h1, hplain, hdecl⟩ := hend s hs
  have hk : s.Keepalive 1 keepalive1 := ⟨_, decode_keepalive1, rfl, htok⟩
  have hsettled : s.AllSettled 1 :=
    allSettled_of_declared fun x hx => of_decide_eq_true (List.all_eq_true.mp hdecl x hx)
  have hnow := Path.one (next_datagram s keepalive1 "10.0.0.9" 5000)
  have hrun1 : KeepRun 1 [(s, RelayAct.datagram keepalive1 "10.0.0.9" 5000)] :=
    KeepRun.one ⟨hk, 1, h1⟩
  refine ⟨s, ⟨[], [], 0, 0, _, path_run hs⟩,
    ((endpoints_kept_iff 1).2.1 s keepalive1 hk).mpr hsettled,
    ((endpoints_kept_iff 1).1 s keepalive1 _ hk ⟨1, h1⟩).mpr (hsettled _ _ ⟨1, h1⟩).own, ?_⟩
  refine (endpoints_kept_iff 1).2.2 s _ _ hsettled hnow hrun1 s keepalive1 _ _ ?_
    List.mem_cons_self ?_
  · exact fun y hy _ => of_decide_eq_true (List.all_eq_true.mp hplain y hy)
  · rw [handleUdpPayload_node decode_keepalive1, (same_handleNode s keepalive1 _).clock]
    exact Nat.lt_add_of_pos_right (by decide)

end Relay

end ShadowLan
