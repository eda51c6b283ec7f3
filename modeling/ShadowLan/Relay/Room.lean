import ShadowLan.Relay.Members
import ShadowLan.Relay.Queue
import ShadowLan.Relay.Reply
import ShadowLan.Wire.Game

/-!
# The room

The relay with the beacons: a `T_BCAST` on one control connection goes on to the others.  A stranger
is a control connection that no node is noted for, or an address that is no endpoint of a link.

* `bcast`           the `T_BCAST` branch of `handle_peer`;
* `Stranger`        the steps that no member takes;
* `Isolated`        a step reaches no link, and leaves the tables of the UDP tunnel alone;
* `Harmless`        the condition on a stranger's step: there is nobody to pass it on to, or it is
                    malformed, filtered or without a way back;
* `isolated_run`    in a run whose strangers are harmless, every step of theirs is isolated;
* `members_run`     and the relay is as if they had never been there.
-/

namespace ShadowLan

def encode_bcast_from (node disc_port src_port : Nat) (raw : Bytes) : Bytes :=
  packI node ++ packH disc_port ++ packH src_port ++ raw

structure Room where
  relay : Relay
  /-- empty: every discovery port is allowed -/
  disc_ports : List Nat
  beaconers : Dict Writer Nat

inductive RoomAct where
  | relay (a : RelayAct)
  /-- a frame `T_BCAST` -/
  | bcast (w : Writer) (payload : Bytes)

/-- what the relay transmits: on the UDP tunnel, or a frame on a control connection -/
inductive RoomOut where
  | tunnel (o : Out)
  | frame (w : Writer) (mtype : UInt8) (payload : Bytes)

def RoomOut.reaches (x : LinkRef) : RoomOut → Prop
  | .tunnel o => o.reaches named x
  | .frame w _ _ => w = x.writer

instance (x : LinkRef) : (o : RoomOut) → Decidable (o.reaches x)
  | .tunnel o => inferInstanceAs (Decidable (o.reaches named x))
  | .frame w _ _ => inferInstanceAs (Decidable (w = x.writer))

namespace Room

def init (token : Bytes) (allowed disc : List Nat) (subnet clock : Nat) : Room where
  relay := .init token allowed subnet clock
  disc_ports := disc
  beaconers := .empty

variable (s : Room)

def discAllowed (dport : Nat) : Bool := s.disc_ports = [] || dport ∈ s.disc_ports

/-- the links that a beacon of `w` goes to, from `src_node`, an endpoint only once -/
def bcastTo (w : Writer) (src_node : Nat) : List (Option Nat × Addr) → List LinkRef → List Writer
  | _, [] => []
  | sent, x :: xs =>
    let wnode := s.relay.writer_node.get? x.writer
    if x.writer = w || s.relay.isClosing x.writer then bcastTo w src_node sent xs
    else if src_node ≠ 0 ∧ wnode = some src_node then bcastTo w src_node sent xs
    else
      match s.relay.linkEndpoint x.writer x.link with
      | some ep =>
        if (wnode, ep) ∈ sent then bcastTo w src_node sent xs
        else x.writer :: bcastTo w src_node ((wnode, ep) :: sent) xs
      | none => x.writer :: bcastTo w src_node sent xs

/-- attributed if both ends have registered, else the frame as it came -/
def beacon (src_node dport sport : Nat) (payload : Bytes) (v : Writer) : RoomOut :=
  if src_node ≠ 0 ∧ (s.relay.writer_node.get? v).isSome = true then
    .frame v T_BCAST_FROM (encode_bcast_from src_node dport sport (payload.drop 4))
  else .frame v T_BCAST payload

def bcast (w : Writer) (payload : Bytes) : Room × List RoomOut :=
  match unpackH (slice payload 0 2), unpackH (slice payload 2 4) with
  | some dport, some sport =>
    if s.discAllowed dport then
      let src_node := (s.relay.writer_node.get? w).getD 0
      ({ s with beaconers := s.beaconers.set w s.relay.clock },
        (s.bcastTo w src_node [] s.relay.allLinks).map (s.beacon src_node dport sport payload))
    else (s, [])
  | _, _ => (s, [])

/-- the `finally` of `handle_peer` for the beacons of `w`, when its handler has ended -/
def forget (t : Relay) (w : Writer) : Dict Writer Nat :=
  if (t.players.get? w).isNone then s.beaconers.pop w else s.beaconers

def step : RoomAct → Option (Room × List RoomOut)
  | .relay a =>
    (s.relay.step a).map fun r =>
      ({ s with
          relay := r.1
          beaconers :=
            match a with
            | .node w _ | .gone w => s.forget r.1 w
            | _ => s.beaconers },
        r.2.map .tunnel)
  | .bcast w payload => (s.relay.players.get? w).map fun _ => s.bcast w payload

def next (a : RoomAct) : Option Room := (s.step a).map Prod.fst

/-! ## strangers -/

/-- the game and ping datagrams -/
def isTraffic (data : Bytes) : Bool :=
  [U_GAME_C2S, U_GAME_S2C, U_GAME_P2P, U_ICMP_REQ, U_ICMP_REP].contains (udpOp data)

def Stranger : RoomAct → Prop
  | .bcast w _ => s.relay.writer_node.get? w = none
  | .relay (.tun w data) => isTraffic data = true ∧ s.relay.writer_node.get? w = none
  | .relay (.datagram data ip port) =>
    isTraffic data = true ∧ ∀ x ∈ s.relay.allLinks, ¬ named x (.udp ip port)
  | _ => False

/-- nothing reaches a link, and the tables stay as they are -/
def Isolated (a : RoomAct) : Prop :=
  ∀ r ∈ s.step a, (∀ o ∈ r.2, ∀ x ∈ s.relay.allLinks, ¬ o.reaches x) ∧
    r.1.relay.known_udp = s.relay.known_udp ∧ r.1.relay.udp_flows = s.relay.udp_flows ∧
    r.1.relay.learned = s.relay.learned

end Room

namespace Relay
variable (s : Relay)

/-- the flow that an S2C from an address without a node belongs to -/
def strayFlow (addr : Addr) (t : Triple) : Option Flow :=
  (s.udp_flows.get? (.a addr, t)).or
    ((freshest (fun e => e.1.2 = t && s.isFresh e.2.seen FLOW_TTL) (fun e => e.2.seen)
      s.udp_flows.items).map Prod.snd)

/-- a stranger's datagram leads nowhere: it is malformed, its port is filtered, the node that it
names has no other endpoint, or there is no flow that it could answer -/
def Harmless (data : Bytes) (addr : Addr) : Prop :=
  if udpOp data = U_GAME_C2S then
    ∀ g ∈ decodeUdpGame data, s.portAllowed g.triple.gport = false
  else if udpOp data = U_GAME_P2P then
    ∀ p ∈ decodePdat data, s.portAllowed p.2.triple.gport = true → s.targetsOf p.1 addr = []
  else if udpOp data = U_GAME_S2C then
    ∀ g ∈ decodeUdpGame data, ∀ fl ∈ s.strayFlow addr g.triple,
      FLOW_TTL < s.clock - fl.seen ∨ fl.player = addr
  else
    ∀ f ∈ decodeIcmp data, f.src = 0 ∨ f.dest = f.src ∨
      if f.dest = 0 then f.mtype ≠ U_ICMP_REQ else s.targetsOf f.dest addr = []

instance (data : Bytes) (addr : Addr) : Decidable (s.Harmless data addr) := by
  unfold Harmless
  infer_instance

end Relay

namespace Room
variable (s : Room)

/-- the condition on a stranger's step -/
def Harmless : RoomAct → Prop
  | .bcast w payload =>
    payload.length < 4 ∨ (∀ dport ∈ unpackH (slice payload 0 2), s.discAllowed dport = false) ∨
      ∀ x ∈ s.relay.allLinks, x.writer = w ∨ s.relay.isClosing x.writer = true
  | .relay (.datagram data ip port) => s.relay.Harmless data (.udp ip port)
  | .relay _ => True

instance : (a : RoomAct) → Decidable (s.Stranger a)
  | .bcast w _ => inferInstanceAs (Decidable (s.relay.writer_node.get? w = none))
  | .relay (.tun w data) =>
    inferInstanceAs (Decidable (isTraffic data = true ∧ s.relay.writer_node.get? w = none))
  | .relay (.datagram data ip port) =>
    inferInstanceAs (Decidable
      (isTraffic data = true ∧ ∀ x ∈ s.relay.allLinks, ¬ named x (.udp ip port)))
  | .relay (.accept _ _) | .relay (.close _) | .relay (.node _ _) | .relay (.udpMode _)
  | .relay (.gone _) | .relay (.tick _) => isFalse id

instance : (a : RoomAct) → Decidable (s.Harmless a)
  | .bcast w payload =>
    inferInstanceAs (Decidable (payload.length < 4 ∨
      (∀ dport ∈ unpackH (slice payload 0 2), s.discAllowed dport = false) ∨
      ∀ x ∈ s.relay.allLinks, x.writer = w ∨ s.relay.isClosing x.writer = true))
  | .relay (.datagram data ip port) => inferInstanceAs (Decidable (s.relay.Harmless data (.udp ip port)))
  | .relay (.accept _ _) | .relay (.close _) | .relay (.node _ _) | .relay (.udpMode _)
  | .relay (.tun _ _) | .relay (.gone _) | .relay (.tick _) => isTrue trivial

end Room

/-! ## datagrams of strangers -/

namespace Relay
variable {s : Relay} {addr : Addr}

/-- the address is no endpoint of a link -/
theorem nodeByUdpAddr_stranger (h : ∀ x ∈ s.allLinks, ¬ named x addr) :
    s.nodeByUdpAddr addr = none := by
  cases hn : s.nodeByUdpAddr addr with
  | none => rfl
  | some nid =>
    rcases nodeByUdpAddr_some hn with ⟨x, hx, -, ha⟩ | ⟨-, x, hx, -, ha⟩
    · exact absurd (Or.inl ha) (h x hx)
    · exact absurd (Or.inr ha) (h x hx)

theorem recordUdpProof_stranger (hn : s.nodeByUdpAddr addr = none) : s.recordUdpProof addr = s := by
  unfold recordUdpProof
  rw [hn]

theorem flowFor_stranger (hn : s.nodeByUdpAddr addr = none) (t : Triple) :
    (s.flowFor addr t).map Prod.snd = s.strayFlow addr t := by
  unfold flowFor strayFlow
  rw [hn]
  dsimp only
  cases s.udp_flows.get? (.a addr, t) with
  | none =>
    rw [Option.map_none, Option.none_or, Option.bind_none, Option.none_or, Option.none_or]
  | some fl =>
    rw [Option.map_some, Option.some_or, Option.some_or, Option.some_or]
    rfl

theorem handleC2s_filtered {data : Bytes}
    (h : ∀ g ∈ decodeUdpGame data, s.portAllowed g.triple.gport = false) :
    s.handleC2s data addr = (s, []) := by
  unfold handleC2s
  cases hd : decodeUdpGame data with
  | none => rfl
  | some g =>
    have hp := h g hd
    simp [hp]

theorem handleP2p_nowhere {data : Bytes} (hn : s.nodeByUdpAddr addr = none)
    (h : ∀ p ∈ decodePdat data, s.portAllowed p.2.triple.gport = true → s.targetsOf p.1 addr = []) :
    s.handleP2p data addr = (s, []) := by
  rw [handleP2p_eq]
  cases hd : decodePdat data with
  | none => rfl
  | some p =>
    obtain ⟨dest, g⟩ := p
    dsimp only
    by_cases hp : s.portAllowed g.triple.gport = true
    · have ht : s.targetsOf dest addr = [] := h (dest, g) hd hp
      rw [if_neg (by simp [hp]), if_pos ht, recordUdpProof_stranger hn]
    · rw [if_pos (by simpa using hp)]

theorem handleS2c_unasked {data : Bytes} (hn : s.nodeByUdpAddr addr = none)
    (h : ∀ g ∈ decodeUdpGame data, ∀ fl ∈ s.strayFlow addr g.triple,
      FLOW_TTL < s.clock - fl.seen ∨ fl.player = addr) : s.handleS2c data addr = (s, []) := by
  unfold handleS2c
  cases hd : decodeUdpGame data with
  | none => rfl
  | some g =>
    dsimp only
    rcases Option.eq_none_or_eq_some (s.flowFor addr g.triple) with hf | ⟨x, hf⟩
    · simp only [hf]
    · have hstray : s.strayFlow addr g.triple = some x.2 := by
        rw [← flowFor_stranger hn, hf]
        rfl
      simp only [hf]
      rcases h g hd x.2 hstray with hold | hown
      · rw [if_pos hold]
      · rw [if_pos hown, ite_self]

theorem handleIcmp_nowhere {data : Bytes} (hn : s.nodeByUdpAddr addr = none)
    (h : ∀ f ∈ decodeIcmp data, f.src = 0 ∨ f.dest = f.src ∨
      if f.dest = 0 then f.mtype ≠ U_ICMP_REQ else s.targetsOf f.dest addr = []) :
    s.handleIcmp data addr = (s, []) := by
  unfold handleIcmp icmpSource
  rw [hn]
  cases hd : decodeIcmp data with
  | none => rfl
  | some f =>
    dsimp only
    by_cases hsrc : f.src = 0
    · rw [if_pos hsrc]
      rfl
    · rw [if_neg hsrc]
      show (if f.dest = 0 then _ else if f.dest = f.src then _ else _) = _
      rcases h f hd with h0 | heq | hto
      · exact absurd h0 hsrc
      · rw [if_neg (heq ▸ hsrc), if_pos heq]
      · by_cases hdest : f.dest = 0
        · rw [if_pos hdest] at hto
          rw [if_pos hdest, if_pos hto]
        · rw [if_neg hdest] at hto
          rw [if_neg hdest]
          simp only [hto, if_true, ite_self]

/-- **A stranger's datagram that leads nowhere changes nothing.** -/
theorem handleUdpPayload_harmless {data : Bytes} (hlinks : ∀ x ∈ s.allLinks, ¬ named x addr)
    (ht : Room.isTraffic data = true) (h : s.Harmless data addr) :
    s.handleUdpPayload data addr = (s, []) := by
  have hn := nodeByUdpAddr_stranger hlinks
  unfold handleUdpPayload
  rw [recordUdpProof_stranger hn]
  unfold Harmless at h
  unfold Room.isTraffic at ht
  rw [List.contains_iff_mem] at ht
  split
  · rfl
  · simp only [List.mem_cons, List.not_mem_nil, or_false] at ht
    rcases ht with hop | hop | hop | hop | hop <;> rw [hop] at h ⊢
    · exact handleC2s_filtered h
    · exact handleS2c_unasked hn h
    · exact handleP2p_nowhere hn h
    · exact handleIcmp_nowhere hn h
    · exact handleIcmp_nowhere hn h

end Relay

/-! ## steps of strangers -/

namespace Room
variable {s : Room}

theorem mem_bcastTo {w v : Writer} {src_node : Nat} {xs : List LinkRef} {sent : List (Option Nat × Addr)}
    (h : v ∈ s.bcastTo w src_node sent xs) :
    v ≠ w ∧ s.relay.isClosing v = false ∧ ∃ x ∈ xs, x.writer = v := by
  induction xs generalizing sent with
  | nil => exact absurd h List.not_mem_nil
  | cons x xs ih =>
    have hrest : ∀ {sent}, v ∈ s.bcastTo w src_node sent xs →
        v ≠ w ∧ s.relay.isClosing v = false ∧ ∃ y ∈ x :: xs, y.writer = v := fun hv => by
      obtain ⟨h1, h2, y, hy, he⟩ := ih hv
      exact ⟨h1, h2, y, List.mem_cons_of_mem x hy, he⟩
    have hhead : ¬ (x.writer = w || s.relay.isClosing x.writer) = true → v = x.writer →
        v ≠ w ∧ s.relay.isClosing v = false ∧ ∃ y ∈ x :: xs, y.writer = v := fun hx hv => by
      rw [Bool.or_eq_true, not_or, decide_eq_true_iff, Bool.not_eq_true] at hx
      rw [hv]
      exact ⟨hx.1, hx.2, x, List.mem_cons_self, rfl⟩
    unfold bcastTo at h
    dsimp only at h
    split at h
    · exact hrest h
    next hx =>
      split at h
      · exact hrest h
      · split at h
        · split at h
          · exact hrest h
          · rcases List.mem_cons.mp h with hv | hv
            · exact hhead hx hv
            · exact hrest hv
        · rcases List.mem_cons.mp h with hv | hv
          · exact hhead hx hv
          · exact hrest hv

theorem bcast_relay (w : Writer) (payload : Bytes) : (s.bcast w payload).1.relay = s.relay := by
  unfold bcast
  split
  · split <;> rfl
  · rfl

theorem bcast_harmless {w : Writer} {payload : Bytes} (h : s.Harmless (.bcast w payload)) :
    (s.bcast w payload).2 = [] := by
  unfold bcast
  split
  next dport sport hd hs =>
    rcases h with hlen | hport | hlinks
    · have hlong := (unpackH_slice hs).1
      omega
    · rw [if_neg (by simp [hport dport hd])]
    · split
      · rw [List.map_eq_nil_iff, List.eq_nil_iff_forall_not_mem]
        intro v hv
        obtain ⟨hw, hc, x, hx, rfl⟩ := mem_bcastTo hv
        rcases hlinks x hx with hown | hclosing
        · exact hw hown
        · rw [hc] at hclosing
          cases hclosing
      · rfl
  · rfl

/-- **A harmless stranger is not noticed**: nothing is transmitted, and the relay stays as it is. -/
theorem step_harmless {a : RoomAct} {r : Room × List RoomOut} (hs : s.Stranger a)
    (h : s.Harmless a) (hr : s.step a = some r) : r.2 = [] ∧ r.1.relay = s.relay := by
  cases a with
  | bcast w payload =>
    obtain ⟨ip, -, rfl⟩ := Option.map_eq_some_iff.mp hr
    exact ⟨bcast_harmless h, bcast_relay w payload⟩
  | relay a =>
    obtain ⟨x, hx, rfl⟩ := Option.map_eq_some_iff.mp hr
    have hquiet : x = (s.relay, []) := by
      cases a with
      | datagram data ip port =>
        rw [← Option.some.inj hx]
        exact Relay.handleUdpPayload_harmless hs.2 hs.1 h
      | tun w data =>
        obtain ⟨ip, -, rfl⟩ := Option.map_eq_some_iff.mp hx
        unfold Relay.tunFrame Relay.tunAddr
        rw [hs.2]
        rfl
      | accept | close | node | udpMode | gone | tick => exact hs.elim
    rw [hquiet]
    exact ⟨rfl, rfl⟩

theorem isolated_of_harmless {a : RoomAct} (hs : s.Stranger a) (h : s.Harmless a) :
    s.Isolated a := by
  intro r hr
  obtain ⟨hout, hrelay⟩ := step_harmless hs h hr
  rw [hout, hrelay]
  exact ⟨fun o ho => absurd ho List.not_mem_nil, rfl, rfl, rfl⟩

/-! ## runs -/

def member (x : Room × RoomAct) : Option (Relay × RelayAct) :=
  match x.2 with
  | .relay a => if x.1.Stranger (.relay a) then none else some (x.1.relay, a)
  | .bcast _ _ => none

/-- the steps of the relay in a run that no stranger takes -/
def members (tr : List (Room × RoomAct)) : List (Relay × RelayAct) := tr.filterMap member

theorem members_snoc (tr : List (Room × RoomAct)) (x : Room × RoomAct) :
    members (tr ++ [x]) = members tr ++ (member x).toList := by
  unfold members
  rw [List.filterMap_append]
  cases hx : member x with
  | none =>
    rw [List.filterMap_cons_none hx]
    rfl
  | some y =>
    rw [List.filterMap_cons_some hx]
    rfl

theorem next_relay {u : Room} {a : RelayAct} (h : s.next (.relay a) = some u) :
    s.relay.next a = some u.relay := by
  obtain ⟨r, hr, rfl⟩ := Option.map_eq_some_iff.mp h
  obtain ⟨x, hx, rfl⟩ := Option.map_eq_some_iff.mp hr
  exact Option.map_eq_some_iff.mpr ⟨x, hx, rfl⟩

theorem next_bcast {u : Room} {w : Writer} {payload : Bytes} (h : s.next (.bcast w payload) = some u) :
    u.relay = s.relay := by
  obtain ⟨r, hr, rfl⟩ := Option.map_eq_some_iff.mp h
  obtain ⟨ip, -, rfl⟩ := Option.map_eq_some_iff.mp hr
  exact bcast_relay w payload

/-- the members alone come to the same tables -/
theorem members_run {token : Bytes} {allowed disc : List Nat} {subnet clock : Nat}
    {tr : List (Room × RoomAct)} (h : Path next (init token allowed disc subnet clock) tr s)
    (hok : ∀ x ∈ tr, x.1.Stranger x.2 → x.1.Harmless x.2) :
    Path Relay.next (.init token allowed subnet clock) (members tr) s.relay := by
  induction h with
  | nil => exact .nil
  | @snoc tr u v a hp hl ih =>
    have ih' := ih fun x hx => hok x (List.mem_append_left _ hx)
    have hlast := hok (u, a) (List.mem_append_right _ List.mem_cons_self)
    rw [members_snoc]
    cases a with
    | bcast w payload =>
      rw [next_bcast hl]
      exact (List.append_nil _).symm ▸ ih'
    | relay a =>
      by_cases hs : u.Stranger (.relay a)
      · have hnone : member (u, .relay a) = none := if_pos hs
        obtain ⟨r, hr, rfl⟩ := Option.map_eq_some_iff.mp hl
        rw [hnone, (step_harmless hs (hlast hs) hr).2]
        exact (List.append_nil _).symm ▸ ih'
      · have hsome : member (u, .relay a) = some (u.relay, a) := if_neg hs
        rw [hsome]
        exact ih'.snoc (next_relay hl)

/-- **The room is closed to harmless strangers.**  In every run in which each step of a stranger is
malformed, filtered or without anybody to pass it on to, no such step reaches a link or changes the
tables of the UDP tunnel; the relay is where the steps of the members alone bring it. -/
theorem isolated_run {token : Bytes} {allowed disc : List Nat} {subnet clock : Nat}
    {tr : List (Room × RoomAct)} {s : Room}
    (h : Path next (init token allowed disc subnet clock) tr s)
    (hok : ∀ x ∈ tr, x.1.Stranger x.2 → x.1.Harmless x.2) :
    (∀ x ∈ tr, x.1.Stranger x.2 → x.1.Isolated x.2) ∧
      Path Relay.next (.init token allowed subnet clock) (members tr) s.relay :=
  ⟨fun x hx hs => isolated_of_harmless hs (hok x hx hs), members_run h hok⟩

/-- a member with the key, and a stranger whose beacon and whose datagrams lead nowhere -/
def knocks : List RoomAct :=
  [.relay (.accept 1 "10.0.0.9"), .relay (.node 1 [3, 0, 1, 0x6B, 0, 0, 0, 1, 0x13, 0x88, 0]),
    .relay (.accept 2 "10.0.0.8"), .bcast 2 [0x11, 0x5D, 0, 9, 65],
    .relay (.datagram [0x56, 0x4E, 3, 1, 0x11, 0x5D, 0, 0, 0, 7, 65] "10.0.0.8" 7000),
    .relay (.datagram [0x56, 0x4E, 3, 3, 0, 0, 0, 5, 0x11, 0x5C, 0, 0, 0, 7, 65] "10.0.0.8" 7000)]

theorem isolated_knocks : ∃ s, run next (init [0x6B] [4444] [4444] 0 0) knocks = some s ∧
    (∀ x ∈ trace next (init [0x6B] [4444] [4444] 0 0) knocks,
      x.1.Stranger x.2 → x.1.Isolated x.2) ∧
    Path Relay.next (.init [0x6B] [4444] 0 0)
      (members (trace next (init [0x6B] [4444] [4444] 0 0) knocks)) s.relay := by
  have hrun : (run next (init [0x6B] [4444] [4444] 0 0) knocks).isSome = true := by decide
  obtain ⟨s, hs⟩ := Option.isSome_iff_exists.mp hrun
  have hok : ∀ x ∈ trace next (init [0x6B] [4444] [4444] 0 0) knocks,
      x.1.Stranger x.2 → x.1.Harmless x.2 := by
    decide
  exact ⟨s, hs, isolated_run (path_run hs) hok⟩

/-- a member with the key, and a connection that never shows it -/
def crier : List RoomAct :=
  [.relay (.accept 1 "10.0.0.9"), .relay (.node 1 [3, 0, 1, 0x6B, 0, 0, 0, 1, 0x13, 0x88, 0]),
    .relay (.accept 2 "10.0.0.8")]

/-- the beacon of a connection without the key goes to the member -/
theorem crier_heard : ∃ s, run next (init [0x6B] [] [] 0 0) crier = some s ∧
    s.Stranger (.bcast 2 [0x11, 0x5C, 0, 9, 65]) ∧
    ¬ s.Isolated (.bcast 2 [0x11, 0x5C, 0, 9, 65]) := by
  have hrun : (run next (init [0x6B] [] [] 0 0) crier).isSome = true := by decide
  obtain ⟨s, hs⟩ := Option.isSome_iff_exists.mp hrun
  have hend : ∀ s ∈ run next (init [0x6B] [] [] 0 0) crier,
      s.Stranger (.bcast 2 [0x11, 0x5C, 0, 9, 65]) ∧
      ∃ r ∈ s.step (.bcast 2 [0x11, 0x5C, 0, 9, 65]),
        ∃ o ∈ r.2, ∃ x ∈ s.relay.allLinks, o.reaches x := by
    decide
  obtain ⟨hstranger, r, hr, o, ho, x, hx, hreach⟩ := hend s hs
  exact ⟨s, hs, hstranger, fun hiso => (hiso r hr).1 o ho x hx hreach⟩

end Room

end ShadowLan
