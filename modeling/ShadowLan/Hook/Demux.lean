import ShadowLan.Hook.GameUdp
import ShadowLan.Relay.Reply

/-!
# Which host does a reply come from?

A socket dials hosts, and each of them gets a row of `g_sl`.  A reply carries the triple of the
datagram it answers, that is the service port, the address of the player and the player's port; the
host itself is not in it.  `dt_udp_ingress` looks for the first row with this port whose socket
presents the player's port.

* `Kept`                  every datagram that was dialed has its row, and the relay reads its triple;
* `queueOf_udpPush`       what a push does to the queues;
* `HostFirst`             no row of another host comes before the row of this one;
* `reply_attributed_iff`  the reply is queued with the address of its host iff that is so.
-/

namespace ShadowLan

namespace Out

/-- the bytes that are transmitted -/
def data : Out → Bytes
  | .sendto b _ => b
  | .tun _ b => b

end Out

namespace Relay

theorem data_of_udpSendto {s : Relay} {b : Bytes} {a : Addr} {o : Out} (h : o ∈ s.udpSendto b a) :
    o.data = b := by
  rw [udpSendto_resolve] at h
  obtain ⟨x, -, e⟩ := Option.map_eq_some_iff.mp (Option.mem_toList.mp h)
  rw [← e]
  cases x <;> rfl

/-- the relay passes a reply on as it is -/
theorem data_of_s2c {s : Relay} {b : Bytes} {a : Addr} {o : Out} (hop : udpOp b = U_GAME_S2C)
    (h : o ∈ (s.handleUdpPayload b a).2) : o.data = b := by
  unfold handleUdpPayload at h
  by_cases hok : (!udpHeaderOk b 4) = true
  · rw [if_pos hok] at h
    cases h
  · rw [if_neg hok, hop] at h
    change o ∈ ((s.recordUdpProof a).handleS2c b a).2 at h
    rw [handleS2c_out] at h
    revert h
    generalize s.recordUdpProof a = u
    cases decodeUdpGame b with
    | none => exact nofun
    | some g =>
      dsimp only
      cases u.flowFor a g.triple with
      | none => exact nofun
      | some e =>
        dsimp only
        split
        · exact nofun
        · exact data_of_udpSendto

end Relay

namespace UdpHook

/-! ## receive queues -/

/-- `dt_udp_push` has a row and room for one more datagram -/
def hasRoom (s : UdpHook) (gsock : Nat) : Bool :=
  match s.udpEntry gsock with
  | some i => !(s.g_uq i).closed && (s.g_uq i).queue.length < DT_MAXQ
  | none => (first s.g_uq fun e => !e.used).isSome

theorem queueOf_of_entry {s : UdpHook} {g : Nat} {i : Fin DT_MAXUDP} (h : s.udpEntry g = some i) :
    s.queueOf g = (s.g_uq i).queue := by
  unfold queueOf
  rw [h]
  rfl

theorem queueOf_of_none {s : UdpHook} {g : Nat} (h : s.udpEntry g = none) : s.queueOf g = [] := by
  unfold queueOf
  rw [h]
  rfl

theorem udpEntry_gsock {s : UdpHook} {g : Nat} {i : Fin DT_MAXUDP} (h : s.udpEntry g = some i) :
    (s.g_uq i).used = true ∧ (s.g_uq i).gsock = g := by
  have hi := first_mem h
  simpa using hi

/-- the state with one receive queue exchanged -/
def withUdp (s : UdpHook) (i : Fin DT_MAXUDP) (e : DtUdp) : UdpHook :=
  { s with g_uq := Function.update s.g_uq i e }

theorem push_ids (e : DtUdp) (d : Dgram) : (e.push d).used = e.used ∧ (e.push d).gsock = e.gsock := by
  unfold DtUdp.push
  split <;> exact ⟨rfl, rfl⟩

/-- the row of a socket gets another queue -/
theorem queueOf_withUdp {s : UdpHook} {g : Nat} {i : Fin DT_MAXUDP} {e : DtUdp}
    (hi : s.udpEntry g = some i) (hu : e.used = (s.g_uq i).used) (hg : e.gsock = (s.g_uq i).gsock)
    (h : Nat) : (s.withUdp i e).queueOf h = if h = g then e.queue else s.queueOf h := by
  have hentry : (s.withUdp i e).udpEntry h = s.udpEntry h := by
    apply first_update
    rw [hu, hg]
  by_cases hh : h = g
  · rw [if_pos hh, queueOf_of_entry (hentry.trans (hh ▸ hi))]
    show (Function.update s.g_uq i e i).queue = e.queue
    rw [Function.update_self]
  · rw [if_neg hh]
    cases hq : s.udpEntry h with
    | none => rw [queueOf_of_none (hentry.trans hq), queueOf_of_none hq]
    | some j =>
      rw [queueOf_of_entry (hentry.trans hq), queueOf_of_entry hq]
      show (Function.update s.g_uq i e j).queue = _
      rw [Function.update_of_ne]
      intro hj
      apply hh
      rw [← (udpEntry_gsock hq).2, hj, (udpEntry_gsock hi).2]

/-- a free row is taken for a socket -/
theorem queueOf_withNew {s : UdpHook} {g : Nat} {i : Fin DT_MAXUDP} {e : DtUdp}
    (hn : s.udpEntry g = none) (hfree : (s.g_uq i).used = false) (hu : e.used = true)
    (hg : e.gsock = g) (h : Nat) :
    (s.withUdp i e).queueOf h = if h = g then e.queue else s.queueOf h := by
  by_cases hh : h = g
  · have hnew : (s.withUdp i e).udpEntry h = some i := by
      rw [hh]
      exact first_update_new hn (by rw [hu, hg]; simp)
    rw [if_pos hh, queueOf_of_entry hnew]
    show (Function.update s.g_uq i e i).queue = e.queue
    rw [Function.update_self]
  · have hold : (s.withUdp i e).udpEntry h = s.udpEntry h := by
      apply first_update
      rw [hfree, hu, hg]
      simp [Ne.symm hh]
    rw [if_neg hh]
    cases hq : s.udpEntry h with
    | none => rw [queueOf_of_none (hold.trans hq), queueOf_of_none hq]
    | some j =>
      rw [queueOf_of_entry (hold.trans hq), queueOf_of_entry hq]
      show (Function.update s.g_uq i e j).queue = _
      rw [Function.update_of_ne]
      rintro rfl
      rw [(udpEntry_gsock hq).1] at hfree
      cases hfree

theorem push_queue (e : DtUdp) (d : Dgram) : (e.push d).queue =
    if (!e.closed && decide (e.queue.length < DT_MAXQ)) = true then e.queue ++ [d] else e.queue := by
  unfold DtUdp.push
  by_cases hc : e.closed = true
  · rw [hc]
    rfl
  · by_cases hl : e.queue.length < DT_MAXQ
    · have hl' : ¬ DT_MAXQ ≤ e.queue.length := by omega
      simp [hc, hl, hl']
    · have hl' : DT_MAXQ ≤ e.queue.length := by omega
      simp [hc, hl, hl']

theorem queueOf_udpPush (s : UdpHook) (g h : Nat) (d : Dgram) :
    (s.udpPush g d).queueOf h =
      if h = g ∧ s.hasRoom g = true then s.queueOf h ++ [d] else s.queueOf h := by
  unfold udpPush udpCreate hasRoom
  cases hg : s.udpEntry g with
  | some i =>
    rw [claim_found hg]
    obtain ⟨hu, hs⟩ := push_ids (s.g_uq i) d
    show (s.withUdp i ((s.g_uq i).push d)).queueOf h = _
    rw [queueOf_withUdp hg hu hs, push_queue]
    by_cases hh : h = g
    · rw [hh, if_pos rfl, queueOf_of_entry hg]
      simp only [true_and]
    · rw [if_neg hh, if_neg (fun e => hh e.1)]
  | none =>
    cases hf : first s.g_uq (fun e => !e.used) with
    | none =>
      rw [claim_full hg hf, if_neg (fun e => nomatch e.2)]
    | some i =>
      rw [claim_fresh hg hf]
      have hfree : (s.g_uq i).used = false := by
        have hi := first_mem hf
        simpa using hi
      have hstate : ({ s with g_uq := Function.update s.g_uq i ⟨true, g, [], false, 0⟩ } :
          UdpHook).withUdp i ((Function.update s.g_uq i ⟨true, g, [], false, 0⟩ i).push d)
          = s.withUdp i ((⟨true, g, [], false, 0⟩ : DtUdp).push d) := by
        unfold withUdp
        rw [Function.update_self, Function.update_idem]
      have hpush : ((⟨true, g, [], false, 0⟩ : DtUdp).push d).queue = [d] := by
        rw [push_queue]
        rfl
      show (UdpHook.withUdp _ i _).queueOf h = _
      rw [hstate, queueOf_withNew hg hfree (push_ids _ d).1 (push_ids _ d).2, hpush]
      by_cases hh : h = g
      · rw [hh, if_pos rfl, if_pos ⟨rfl, rfl⟩, queueOf_of_none hg]
        rfl
      · rw [if_neg hh, if_neg (fun e => hh e.1)]

/-! ## what was dialed -/

/-- the row of `g_sl` that a dialed host has -/
def slotOf (s : UdpHook) (d : Dial) (i : Fin DT_MAXSLOT) : Prop :=
  (s.g_sl i).used = true ∧ (s.g_sl i).gsock = d.gsock ∧ (s.g_sl i).gamePort = d.dst.port ∧
    (s.g_sl i).orig = d.dst

/-- the datagram that went out is a C2S or a P2P with the triple -/
structure Framed (d : Dial) : Prop where
  gport : d.triple.gport = d.dst.port
  frame : ∃ raw, (⟨d.triple, raw⟩ : UdpGame).Fits ∧
    (d.frame = encodeUdpGame U_GAME_C2S ⟨d.triple, raw⟩ ∨
      ∃ dest, d.frame = encodePdat dest ⟨d.triple, raw⟩)

structure Kept (s : UdpHook) : Prop where
  slot : ∀ d ∈ s.dials, ∃ i, s.slotOf d i
  framed : ∀ d ∈ s.dials, Framed d
  /-- the alias table holds ports -/
  vports : ∀ i, (s.g_ta i).vport < 65536

theorem kept_init : init.Kept := ⟨nofun, nofun, fun _ => Nat.zero_lt_succ _⟩

/-- an operation that leaves slots, aliases and what was dialed alone -/
structure SameDials (s t : UdpHook) : Prop where
  g_sl : t.g_sl = s.g_sl
  g_ta : t.g_ta = s.g_ta
  dials : t.dials = s.dials

theorem SameDials.trans {s t u : UdpHook} (h : SameDials s t) (h' : SameDials t u) :
    SameDials s u :=
  ⟨h'.g_sl.trans h.g_sl, h'.g_ta.trans h.g_ta, h'.dials.trans h.dials⟩

theorem Kept.of_same {s t : UdpHook} (h : s.Kept) (e : SameDials s t) : t.Kept := by
  refine ⟨?_, ?_, ?_⟩
  · unfold slotOf
    rw [e.dials, e.g_sl]
    exact h.slot
  · rw [e.dials]
    exact h.framed
  · rw [e.g_ta]
    exact h.vports

/-- an operation on the receive queues -/
def OnlyQueues (s t : UdpHook) : Prop := t = { s with g_uq := t.g_uq }

theorem OnlyQueues.trans {s t u : UdpHook} (h : OnlyQueues s t) (h' : OnlyQueues t u) :
    OnlyQueues s u := by
  unfold OnlyQueues at h h'
  rw [h', h]
  rfl

theorem OnlyQueues.same {s t : UdpHook} (h : OnlyQueues s t) : SameDials s t := by
  unfold OnlyQueues at h
  rw [h]
  exact ⟨rfl, rfl, rfl⟩

theorem queues_udpCreate (s : UdpHook) (g : Nat) : OnlyQueues s (s.udpCreate g).1 := by
  unfold udpCreate
  rfl

theorem queues_udpPush (s : UdpHook) (g : Nat) (d : Dgram) : OnlyQueues s (s.udpPush g d) := by
  have h := s.queues_udpCreate g
  unfold udpPush
  revert h
  generalize s.udpCreate g = r
  obtain ⟨t, i?⟩ := r
  intro h
  cases i? with
  | none => exact h
  | some i => exact h.trans rfl

theorem queues_udpPop (s : UdpHook) (g blen : Nat) : OnlyQueues s (s.udpPop g blen).1 := by
  unfold udpPop
  cases s.udpEntry g with
  | none => rfl
  | some i =>
    dsimp only
    cases (s.g_uq i).queue <;> rfl

theorem queues_ensure (s : UdpHook) (sock vport : Nat) : OnlyQueues s (s.ensure sock vport) := by
  have h := s.queues_udpCreate sock
  unfold ensure
  revert h
  generalize s.udpCreate sock = r
  obtain ⟨t, i?⟩ := r
  intro h
  cases i? with
  | none => exact h
  | some i =>
    dsimp only
    by_cases hv : vport = 0
    · rw [if_pos hv]
      exact h
    · rw [if_neg hv]
      exact h.trans rfl

theorem queues_ping (ping : List (Nat × Dgram)) (s : UdpHook) :
    OnlyQueues s (ping.foldl (fun s p => s.udpPush p.1 p.2) s) := by
  induction ping generalizing s with
  | nil => exact rfl
  | cons p ping ih =>
    rw [List.foldl_cons]
    exact (s.queues_udpPush p.1 p.2).trans (ih (s.udpPush p.1 p.2))

theorem queues_directUdpIn (s : UdpHook) (os : Os) (gport : Nat) (ip raw : Bytes) :
    OnlyQueues s (s.directUdpIn os gport ip raw) := by
  unfold directUdpIn
  by_cases hbad : ip = [] ∨ 64 ≤ ip.length ∨ 65000 < raw.length
  · rw [if_pos hbad]
    rfl
  · rw [if_neg hbad]
    cases inetAddr ip with
    | none => rfl
    | some addr =>
      dsimp only
      rfl

theorem same_usessFind (s : UdpHook) (os : Os) (gport ovirt : Nat) (cli : SockaddrIn) (t : Triple) :
    SameDials s (s.usessFind os gport ovirt cli t).1 := by
  unfold usessFind
  cases s.usessAt gport cli with
  | some i => exact ⟨rfl, rfl, rfl⟩
  | none =>
    dsimp only
    cases s.usessSlot os <;> exact ⟨rfl, rfl, rfl⟩

theorem same_hostedUdpIn (s : UdpHook) (os : Os) (g : UdpGame) :
    SameDials s (s.hostedUdpIn os g).1 := by
  unfold hostedUdpIn
  cases hostedCli g with
  | none => exact ⟨rfl, rfl, rfl⟩
  | some cli =>
    have h := s.same_usessFind os (s.realPort g.triple.gport) cli.addr cli g.triple
    dsimp only
    revert h
    generalize s.usessFind os (s.realPort g.triple.gport) cli.addr cli g.triple = r
    obtain ⟨t, i?⟩ := r
    intro h
    cases i? with
    | none => exact h
    | some i =>
      dsimp only
      cases (t.g_us i).real with
      | none => exact ⟨h.g_sl, h.g_ta, h.dials⟩
      | some fd => exact ⟨h.g_sl, h.g_ta, h.dials⟩

theorem same_udpIngress (s : UdpHook) (os : Os) (b : Bytes) :
    SameDials s (s.udpIngress os b).1 := by
  unfold udpIngress
  split
  · exact ⟨rfl, rfl, rfl⟩
  · split
    · cases dtGame b with
      | none => exact ⟨rfl, rfl, rfl⟩
      | some g =>
        have h := s.same_hostedUdpIn os g
        dsimp only
        unfold c2sIn
        revert h
        generalize s.hostedUdpIn os g = r
        obtain ⟨t, hosted, out⟩ := r
        intro h
        cases hosted with
        | true => exact h
        | false => exact h.trans (t.queues_directUdpIn os g.triple.gport g.triple.ip g.raw).same
    · split
      · exact (queues_ping os.ping s).same
      · split
        · cases dtGame b with
          | none => exact ⟨rfl, rfl, rfl⟩
          | some g =>
            unfold s2cIn
            dsimp only
            cases s.flowRow g.triple.gport g.triple.cport with
            | none => exact ⟨rfl, rfl, rfl⟩
            | some i => exact (s.queues_udpPush _ _).same
        · exact ⟨rfl, rfl, rfl⟩

/-! ## dialing -/

theorem slotGet_keeps {s : UdpHook} {gsock gport : Nat} {orig : SockaddrIn} {i : Fin DT_MAXSLOT}
    (h : (s.g_sl i).used = true) : (s.slotGet gsock gport orig).1.g_sl i = s.g_sl i :=
  claim_keeps (by rw [h]; rfl)

theorem slotGet_some {s : UdpHook} {gsock gport : Nat} {orig : SockaddrIn} {i : Fin DT_MAXSLOT}
    (h : (s.slotGet gsock gport orig).2 = some i) :
    ((s.slotGet gsock gport orig).1.g_sl i).used = true ∧
      ((s.slotGet gsock gport orig).1.g_sl i).gsock = gsock ∧
      ((s.slotGet gsock gport orig).1.g_sl i).gamePort = gport ∧
      ((s.slotGet gsock gport orig).1.g_sl i).orig = orig := by
  have hrow := claim_some (fun _ => by simp) h
  simp only [Bool.and_eq_true, beq_iff_eq] at hrow
  obtain ⟨⟨⟨h1, h2⟩, h3⟩, h4⟩ := hrow
  exact ⟨h1, h2, h3, h4⟩

theorem kept_slotGet {s : UdpHook} (h : s.Kept) (gsock gport : Nat) (orig : SockaddrIn) :
    (s.slotGet gsock gport orig).1.Kept := by
  refine ⟨fun d hd => ?_, h.framed, h.vports⟩
  obtain ⟨i, hi⟩ := h.slot d hd
  refine ⟨i, ?_⟩
  unfold slotOf
  rw [slotGet_keeps hi.1]
  exact hi

theorem kept_sport {s : UdpHook} (h : s.Kept) {os : Os} {gsock : Nat}
    (hauto : os.autobind < 65536) (hport : ∀ p ∈ os.port gsock, p < 65536) :
    (s.sportPresentation os gsock).1.Kept ∧
      ∀ sp ∈ (s.sportPresentation os gsock).2, sp < 65536 := by
  unfold sportPresentation
  cases hv : s.g_ta.vport gsock with
  | some sv =>
    refine ⟨h, fun sp hsp => ?_⟩
    rw [← Option.some.inj hsp]
    exact AliasTable.vport_lt _ h.vports hv
  | none =>
    cases hp : os.port gsock with
    | none => exact ⟨h, nofun⟩
    | some p =>
      have hlt : (if p = 0 then os.autobind else p) < 65536 := by
        split
        · exact hauto
        · exact hport p hp
      dsimp only
      generalize (if p = 0 then os.autobind else p) = q at hlt
      by_cases hq : q = 0
      · rw [if_pos hq]
        exact ⟨h, nofun⟩
      · rw [if_neg hq]
        refine ⟨⟨h.slot, h.framed, AliasTable.add_lt _ h.vports hlt⟩, fun sp hsp => ?_⟩
        rw [← Option.some.inj hsp]
        exact hlt

theorem sport_slots (s : UdpHook) (os : Os) (gsock : Nat) :
    (s.sportPresentation os gsock).1.g_sl = s.g_sl := by
  unfold sportPresentation
  cases s.g_ta.vport gsock with
  | some sv => rfl
  | none =>
    cases os.port gsock with
    | none => rfl
    | some p =>
      dsimp only
      generalize (if p = 0 then os.autobind else p) = q
      split <;> rfl

theorem kept_dial {s : UdpHook} (h : s.Kept) {os : Os} {gsock : Nat} {dst : SockaddrIn} (raw : Bytes)
    {frame : UdpGame → Bytes} (hdst : dst.port < 65536) (hauto : os.autobind < 65536)
    (hport : ∀ p ∈ os.port gsock, p < 65536)
    (hframe : ∀ g, frame g = encodeUdpGame U_GAME_C2S g ∨ ∃ dest, frame g = encodePdat dest g) :
    (s.dial os gsock dst raw frame).1.Kept := by
  have h1 := kept_slotGet h gsock dst.port dst
  have hrow : ∀ i, (s.slotGet gsock dst.port dst).2 = some i → _ := fun _ => slotGet_some
  unfold dial
  revert h1 hrow
  generalize s.slotGet gsock dst.port dst = r
  obtain ⟨u, i?⟩ := r
  intro h1 hrow
  cases i? with
  | none => exact h1
  | some i =>
    have hi := hrow i rfl
    dsimp only at hi ⊢
    rw [← sport_slots u os gsock] at hi
    obtain ⟨h2, hsp⟩ := kept_sport h1 hauto hport
    revert h2 hsp hi
    generalize u.sportPresentation os gsock = r
    obtain ⟨v, sp?⟩ := r
    intro hi h2 hsp
    cases sp? with
    | none => exact h2
    | some sp =>
      refine ⟨fun d hd => ?_, fun d hd => ?_, h2.vports⟩
      · rcases List.mem_cons.mp hd with rfl | hd
        · exact ⟨i, hi⟩
        · exact h2.slot d hd
      · rcases List.mem_cons.mp hd with rfl | hd
        · refine ⟨rfl, raw, ⟨hdst, hsp sp rfl, ?_, isUtf8_dotted _⟩, hframe _⟩
          have hlen := length_dotted (if v.net.g_myvirt = 0 then INADDR_LOOPBACK else v.net.g_myvirt)
          show (dotted _).length < 65536
          omega
        · exact h2.framed d hd

theorem kept_onSendto {s : UdpHook} (h : s.Kept) {os : Os} {gsock : Nat} {buf : Bytes}
    {dst : SockaddrIn} (hwide : (UdpAct.sendto os gsock buf dst).wide = true) :
    (s.onSendto os gsock buf dst).1.Kept := by
  simp only [UdpAct.wide, Bool.and_eq_true, decide_eq_true_eq, Option.all_eq_true] at hwide
  obtain ⟨⟨hdst, hauto⟩, hport⟩ := hwide
  unfold onSendto
  dsimp only
  split
  · exact h
  · split
    · split
      · split
        · exact h
        · exact h.of_same (s.queues_directUdpIn ..).same
      · cases s.sessionOfClient dst with
        | some i => exact h
        | none => exact kept_dial h buf hdst hauto hport fun g => Or.inr ⟨_, rfl⟩
    · split
      · exact h
      · split
        · have hc := (s.queues_udpCreate gsock).same
          refine h.of_same (hc.trans ?_)
          unfold bcastEcho
          split
          · exact (queues_directUdpIn ..).same
          · split
            · split
              · exact ⟨rfl, rfl, rfl⟩
              · exact (queues_directUdpIn ..).same
            · exact ⟨rfl, rfl, rfl⟩
        · exact kept_dial h buf hdst hauto hport fun g => Or.inl rfl

theorem kept_onClose {s : UdpHook} (h : s.Kept) (gsock : Nat) : (s.onClose gsock).Kept := by
  refine ⟨fun d hd => ?_, fun d hd => h.framed d (List.mem_of_mem_filter hd),
    AliasTable.drop_lt _ h.vports⟩
  obtain ⟨hd, hne⟩ := List.mem_filter.mp hd
  obtain ⟨i, hi⟩ := h.slot d hd
  have hrow : (s.onClose gsock).g_sl i = s.g_sl i := by
    show (if _ then _ else _) = _
    rw [if_neg]
    rw [hi.2.1, hi.1]
    simpa using hne
  refine ⟨i, ?_⟩
  unfold slotOf
  rw [hrow]
  exact hi

theorem step_forward {s s' : UdpHook} {raw : Bytes} {out : List HookOut}
    (hs : s.step (.forward raw) = some (s', out)) :
    ∃ e rest, s.snap = e :: rest ∧ s.hostedForward e rest raw = (s', out) := by
  obtain ⟨-, hs⟩ := Option.ite_none_right_eq_some.mp hs
  dsimp only at hs
  cases hsnap : s.snap with
  | nil => rw [hsnap] at hs; cases hs
  | cons e rest =>
    rw [hsnap] at hs
    obtain ⟨-, hs⟩ := Option.ite_none_left_eq_some.mp hs
    exact ⟨e, rest, rfl, Option.some.inj hs⟩

theorem step_skip {s s' : UdpHook} {out : List HookOut} (hs : s.step .skip = some (s', out)) :
    ∃ rest, s' = { s with snap := rest } := by
  obtain ⟨-, hs⟩ := Option.ite_none_right_eq_some.mp hs
  dsimp only at hs
  cases hsnap : s.snap with
  | nil => rw [hsnap] at hs; cases hs
  | cons e rest =>
    rw [hsnap] at hs
    cases hs
    exact ⟨rest, rfl⟩

theorem kept_step {s s' : UdpHook} {a : UdpAct} {out : List HookOut} (h : s.Kept)
    (hstep : s.step a = some (s', out)) : s'.Kept := by
  have hs := hstep
  unfold step at hs
  obtain ⟨hwide, hs⟩ := Option.ite_none_right_eq_some.mp hs
  cases a with
  | bind sock vport real proto =>
    cases hs
    simp only [UdpAct.wide, Bool.and_eq_true, decide_eq_true_eq] at hwide
    exact ⟨h.slot, h.framed, AliasTable.add_lt _ h.vports hwide.1⟩
  | sendto os gsock buf dst =>
    cases hs
    exact kept_onSendto h hwide
  | close gsock =>
    cases hs
    exact kept_onClose h gsock
  | ingress os b =>
    have hi := s.same_udpIngress os b
    rw [Option.some.inj hs] at hi
    exact h.of_same hi
  | ensure sock vport =>
    cases hs
    exact h.of_same (s.queues_ensure sock vport).same
  | recv gsock blen =>
    cases hs
    exact h.of_same (s.queues_udpPop gsock blen).same
  | net n =>
    cases hs
    exact h.of_same ⟨rfl, rfl, rfl⟩
  | sweep =>
    cases hs
    exact h.of_same ⟨rfl, rfl, rfl⟩
  | tick ms =>
    cases hs
    exact h.of_same ⟨rfl, rfl, rfl⟩
  | skip =>
    obtain ⟨rest, rfl⟩ := step_skip hstep
    exact h.of_same ⟨rfl, rfl, rfl⟩
  | forward raw =>
    obtain ⟨e, rest, -, he⟩ := step_forward hstep
    cases he
    exact h.of_same ⟨rfl, rfl, rfl⟩

theorem kept_run {s : UdpHook} {tr : List (UdpHook × UdpAct)} (h : Path next init tr s) : s.Kept := by
  refine Path.inv (I := Kept) h kept_init ?_
  intro u a u' hu hs
  obtain ⟨⟨v, out⟩, hv, rfl⟩ := Option.map_eq_some_iff.mp hs
  exact kept_step hu hv

/-! ## the reply -/

/-- row `j` is one that a reply with this port pair is matched with -/
def serves (s : UdpHook) (gport cport : Nat) (j : Fin DT_MAXSLOT) : Prop :=
  (s.g_sl j).used = true ∧ (s.g_sl j).gamePort = gport ∧
    s.g_ta.vport (s.g_sl j).gsock = some cport

structure HostFirst (s : UdpHook) (d : Dial) : Prop where
  /-- the socket is still presented under the port it sent from -/
  presented : s.g_ta.vport d.gsock = some d.triple.cport
  /-- no row of another host with the port pair comes before the row of this one -/
  first : ∀ j, s.serves d.dst.port d.triple.cport j → ∃ i ≤ j, s.slotOf d i
  room : s.hasRoom d.gsock = true

/-- from `s` to `t`, the datagram has come to the socket's queue and no other queue has changed -/
def Queued (s t : UdpHook) (gsock : Nat) (d : Dgram) : Prop :=
  t.queueOf gsock = s.queueOf gsock ++ [d] ∧ ∀ h ≠ gsock, t.queueOf h = s.queueOf h

theorem flowRow_some {s : UdpHook} {gport cport : Nat} {k : Fin DT_MAXSLOT} :
    s.flowRow gport cport = some k ↔
      s.serves gport cport k ∧ ∀ j < k, ¬ s.serves gport cport j := by
  unfold flowRow serves
  rw [first_eq_some_iff]
  simp only [Bool.and_eq_true, beq_iff_eq, ← Bool.not_eq_true, and_assoc]

theorem udpIngress_s2c {s : UdpHook} {os : Os} {b : Bytes} {g : UdpGame}
    (hop : udpOp b = U_GAME_S2C) (hg : dtGame b = some g) : (s.udpIngress os b).1 = s.s2cIn g := by
  have hok : udpHeaderOk b 10 = true := (Option.ite_none_right_eq_some.mp hg).1
  unfold udpIngress
  rw [if_neg (fun h => h hok), hop, hg]
  rfl

theorem s2cIn_some {s : UdpHook} {g : UdpGame} {k : Fin DT_MAXSLOT}
    (h : s.flowRow g.triple.gport g.triple.cport = some k) :
    s.s2cIn g = s.udpPush (s.g_sl k).gsock ⟨g.raw, (s.g_sl k).orig⟩ := by
  unfold s2cIn
  rw [h]

theorem s2cIn_none {s : UdpHook} {g : UdpGame}
    (h : s.flowRow g.triple.gport g.triple.cport = none) : s.s2cIn g = s := by
  unfold s2cIn
  rw [h]

theorem not_queued_self {s : UdpHook} {gsock : Nat} {d : Dgram} : ¬ Queued s s gsock d := by
  intro h
  have hlen := congrArg List.length h.1
  rw [List.length_append] at hlen
  exact absurd hlen (by simp)

theorem queued_push_iff {s : UdpHook} {g gsock : Nat} {d e : Dgram} :
    Queued s (s.udpPush g d) gsock e ↔ g = gsock ∧ d = e ∧ s.hasRoom gsock = true := by
  unfold Queued
  constructor
  · rintro ⟨h1, h2⟩
    rw [queueOf_udpPush] at h1
    by_cases hc : gsock = g ∧ s.hasRoom g = true
    · rw [if_pos hc] at h1
      have hd := List.append_cancel_left h1
      exact ⟨hc.1.symm, List.head_eq_of_cons_eq hd, hc.1 ▸ hc.2⟩
    · rw [if_neg hc] at h1
      have hlen := congrArg List.length h1
      rw [List.length_append] at hlen
      exact absurd hlen (by simp)
  · rintro ⟨rfl, rfl, hroom⟩
    refine ⟨?_, fun h hh => ?_⟩
    · rw [queueOf_udpPush, if_pos ⟨rfl, hroom⟩]
    · rw [queueOf_udpPush, if_neg (fun e => hh e.1)]

/-- the reply is queued for the socket with the address of the host iff the host's row comes first -/
theorem queued_s2cIn_iff {s : UdpHook} {d : Dial} {g : UdpGame} (h : s.Kept) (hd : d ∈ s.dials)
    (ht : g.triple = d.triple) :
    Queued s (s.s2cIn g) d.gsock ⟨g.raw, d.dst⟩ ↔ s.HostFirst d := by
  have hport := (h.framed d hd).gport
  constructor
  · intro hq
    cases hrow : s.flowRow g.triple.gport g.triple.cport with
    | none =>
      rw [s2cIn_none hrow] at hq
      exact absurd hq not_queued_self
    | some k =>
      rw [s2cIn_some hrow, queued_push_iff] at hq
      obtain ⟨hs, hsrc, hroom⟩ := hq
      rw [ht, hport, flowRow_some] at hrow
      obtain ⟨⟨h1, h2, h3⟩, hfirst⟩ := hrow
      have hslot : s.slotOf d k := ⟨h1, hs, h2, congrArg Dgram.src hsrc⟩
      refine ⟨hs ▸ h3, fun j hj => ⟨k, ?_, hslot⟩, hroom⟩
      by_contra hlt
      exact hfirst j (not_le.mp hlt) hj
  · rintro ⟨hpres, hfirst, hroom⟩
    obtain ⟨i, hi⟩ := h.slot d hd
    have hserves : ∀ i, s.slotOf d i → s.serves d.dst.port d.triple.cport i :=
      fun i hi => ⟨hi.1, hi.2.2.1, by rw [hi.2.1]; exact hpres⟩
    have hsome : ∃ k, s.flowRow d.dst.port d.triple.cport = some k := by
      cases hn : s.flowRow d.dst.port d.triple.cport with
      | some k => exact ⟨k, rfl⟩
      | none =>
        have hno := first_eq_none_iff.mp hn i
        simp [hi.1, hi.2.1, hi.2.2.1, hpres] at hno
    obtain ⟨k, hk⟩ := hsome
    obtain ⟨hk1, hk2⟩ := flowRow_some.mp hk
    obtain ⟨i', hle, hi'⟩ := hfirst k hk1
    have e : i' = k := by
      by_contra hne
      exact hk2 i' (lt_of_le_of_ne hle hne) (hserves i' hi')
    subst e
    rw [s2cIn_some (by rw [ht, hport]; exact hk), queued_push_iff]
    refine ⟨hi'.2.1, ?_, hroom⟩
    rw [hi'.2.2.2]

/-- the relay notes the flow of a dialed datagram under its triple -/
theorem flowTags_dial {r : Relay} {d : Dial} {player : Addr} {t : Triple} {tags : List DestTag}
    (h : Framed d) (hf : r.flowTags d.frame player = some (t, tags)) : t = d.triple := by
  obtain ⟨raw, hfits, hframe⟩ := h.frame
  unfold Relay.flowTags at hf
  rcases hframe with e | ⟨dest, e⟩
  · rw [e, udpOp_encode, if_neg (by decide), if_pos rfl, decodeUdpGame_encode hfits] at hf
    exact (congrArg Prod.fst (Option.some.inj hf)).symm
  · rw [e, udpOp_encodePdat, if_pos rfl] at hf
    obtain ⟨x, hx, hx'⟩ := Option.map_eq_some_iff.mp hf
    rw [decodePdat_encode hfits] at hx
    rw [← Option.some.inj hx] at hx'
    exact (congrArg Prod.fst hx').symm

/-- **Who answered?**  A socket of the hook has dialed a host, `d`; the relay `r` has noted the flow
of the datagram with triple `t`, and later, as `r'`, passes on an S2C with this triple.  The hook
queues it for the socket, with the address of the host and nowhere else, exactly when the row of
the host is the first one that fits. -/
theorem reply_attributed_iff {s : UdpHook} {tr : List (UdpHook × UdpAct)} {d : Dial}
    {r r' : Relay} {player host : Addr} {t : Triple} {tags : List DestTag} {reply : Bytes}
    {g : UdpGame} {o : Out} (hrun : Path next init tr s) (hd : d ∈ s.dials)
    (hflow : r.flowTags d.frame player = some (t, tags)) (hop : udpOp reply = U_GAME_S2C)
    (hg : decodeUdpGame reply = some g) (ht : g.triple = t)
    (ho : o ∈ (r'.handleUdpPayload reply host).2) (os : Os) :
    Queued s (s.udpIngress os o.data).1 d.gsock ⟨g.raw, d.dst⟩ ↔ s.HostFirst d := by
  have hkept := kept_run hrun
  have htriple := ht.trans (flowTags_dial (hkept.framed d hd) hflow)
  rw [Relay.data_of_s2c hop ho, udpIngress_s2c hop (dtGame_of_decode hg)]
  exact queued_s2cIn_iff hkept hd htriple

/-! ## two hosts on one port -/

/-- node `x` of the virtual network `10.77.0.0/24` is `10.77.0.x`; we are node 2 -/
def lanNet : Net where
  g_myvirt := 0x0A4D0002
  g_lan_only := true
  machineIp := none
  virtNode := fun a => if a / 256 = 0x0A4D00 then a % 256 else 0
  isLocal := fun _ => false
  isBcast := fun a => a % 256 = 255
  lanTarget := fun _ => true

/-- the app's socket is bound to port 40000 -/
def boundOs : Os := ⟨fun _ => some 40000, fun _ => SOCK_DGRAM, 0, fun _ => none, 0, []⟩

/-- the server on node `x` -/
def serverAt (x : Nat) : SockaddrIn := ⟨0x0A4D0000 + x, 27015⟩

/-- a server browser: one socket asks the server on every node of the list -/
def browse (nodes : List Nat) : List UdpAct :=
  .net lanNet :: nodes.map fun x => .sendto boundOs 5 [7] (serverAt x)

def askedTriple : Triple := ⟨27015, dotted 0x0A4D0002, 40000⟩

def askedFrame (x : Nat) : Bytes := encodePdat x ⟨askedTriple, [7]⟩

/-- node `x` answers with its number -/
def serverAnswer (x : Nat) : Bytes :=
  encodeUdpGame U_GAME_S2C ⟨askedTriple, [UInt8.ofNat x]⟩

def dialOf (x : Nat) : Dial := ⟨5, serverAt x, askedTriple, askedFrame x⟩

/-- node 3 joins the relay of `hostAndPlayer`, and the player's datagrams arrive there -/
def relayed (nodes : List Nat) : List RelayAct :=
  Relay.hostAndPlayer ++
    ([.accept 3 "10.0.0.7", .node 3 [3, 0, 0, 0, 0, 0, 3, 0x13, 0x88, 0]] : List RelayAct) ++
    nodes.map fun x => RelayAct.datagram (askedFrame x) "10.0.0.8" 6000

/-- where the relay hears node 3 -/
def thirdAddr : Addr := .udp "10.0.0.7" 5000

/-- one server was asked, and its answer has its address -/
theorem reply_attributed_one : ∃ tr s tr' r, Path next init tr s ∧
    Path Relay.next (Relay.init [] [] 0 0) tr' r ∧ s.HostFirst (dialOf 3) ∧
    (r.handleUdpPayload (serverAnswer 3) thirdAddr).2 = [.sendto (serverAnswer 3) Relay.playerAddr] ∧
    Queued s (s.udpIngress boundOs (serverAnswer 3)).1 5 ⟨[3], serverAt 3⟩ := by
  have hrun : (run next init (browse [3])).isSome = true := by decide
  obtain ⟨s, hs⟩ := Option.isSome_iff_exists.mp hrun
  have hrelay : (run Relay.next (Relay.init [] [] 0 0) (relayed [3])).isSome = true := by
    decide
  obtain ⟨r, hr⟩ := Option.isSome_iff_exists.mp hrelay
  have hhook : ∀ s ∈ run next init (browse [3]), dialOf 3 ∈ s.dials ∧
      s.g_ta.vport 5 = some 40000 ∧ s.hasRoom 5 = true ∧ ((s.g_sl 0).used = true ∧
        (s.g_sl 0).gsock = 5 ∧ (s.g_sl 0).gamePort = 27015 ∧ (s.g_sl 0).orig = serverAt 3) := by
    decide +kernel
  obtain ⟨hd, hpres, hroom, hslot⟩ := hhook s hs
  have hout : ∀ r ∈ run Relay.next (Relay.init [] [] 0 0) (relayed [3]),
      r.flowTags (askedFrame 3) Relay.playerAddr = some (askedTriple, [.n 3]) ∧
      (r.handleUdpPayload (serverAnswer 3) thirdAddr).2
        = [.sendto (serverAnswer 3) Relay.playerAddr] := by decide
  obtain ⟨hflow, hsent⟩ := hout r hr
  have hg : decodeUdpGame (serverAnswer 3) = some ⟨askedTriple, [3]⟩ := by decide
  have hfirst : s.HostFirst (dialOf 3) := ⟨hpres, fun j _ => ⟨0, Fin.zero_le j, hslot⟩, hroom⟩
  have ho : Out.sendto (serverAnswer 3) Relay.playerAddr ∈
      (r.handleUdpPayload (serverAnswer 3) thirdAddr).2 := by
    rw [hsent]
    exact List.mem_singleton_self _
  have hiff := reply_attributed_iff (path_run hs) hd hflow (by decide) hg rfl ho boundOs
  exact ⟨_, s, _, r, path_run hs, path_run hr, hfirst, hsent, hiff.mpr hfirst⟩

/-- two servers on one port were asked, and the answer of the second is queued with the address of
the first -/
theorem reply_misattributed : ∃ tr s tr' r, Path next init tr s ∧
    Path Relay.next (Relay.init [] [] 0 0) tr' r ∧ dialOf 1 ∈ s.dials ∧ dialOf 3 ∈ s.dials ∧
    r.flowTags (askedFrame 3) Relay.playerAddr = some (askedTriple, [.n 3]) ∧
    (r.handleUdpPayload (serverAnswer 3) thirdAddr).2 = [.sendto (serverAnswer 3) Relay.playerAddr] ∧
    s.queueOf 5 = [] ∧
    (s.udpIngress boundOs (serverAnswer 3)).1.queueOf 5 = [⟨[3], serverAt 1⟩] ∧
    ¬ Queued s (s.udpIngress boundOs (serverAnswer 3)).1 5 ⟨[3], serverAt 3⟩ := by
  have hrun : (run next init (browse [1, 3])).isSome = true := by decide
  obtain ⟨s, hs⟩ := Option.isSome_iff_exists.mp hrun
  have hrelay : (run Relay.next (Relay.init [] [] 0 0) (relayed [1, 3])).isSome = true := by
    decide
  obtain ⟨r, hr⟩ := Option.isSome_iff_exists.mp hrelay
  have hhook : ∀ s ∈ run next init (browse [1, 3]), dialOf 1 ∈ s.dials ∧ dialOf 3 ∈ s.dials ∧
      s.queueOf 5 = [] ∧
      (s.udpIngress boundOs (serverAnswer 3)).1.queueOf 5 = [⟨[3], serverAt 1⟩] := by
    decide +kernel
  obtain ⟨hd1, hd3, hempty, hq⟩ := hhook s hs
  have hout : ∀ r ∈ run Relay.next (Relay.init [] [] 0 0) (relayed [1, 3]),
      r.flowTags (askedFrame 3) Relay.playerAddr = some (askedTriple, [.n 3]) ∧
      (r.handleUdpPayload (serverAnswer 3) thirdAddr).2
        = [.sendto (serverAnswer 3) Relay.playerAddr] := by decide
  obtain ⟨hflow, hsent⟩ := hout r hr
  refine ⟨_, s, _, r, path_run hs, path_run hr, hd1, hd3, hflow, hsent, hempty, hq, ?_⟩
  intro hqueued
  have h := hqueued.1
  rw [hq, hempty] at h
  exact absurd h (by decide)

end UdpHook

end ShadowLan
