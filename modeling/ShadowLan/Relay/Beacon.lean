import ShadowLan.Hook.Interop
import ShadowLan.Relay.Stall

/-!
# Where a beacon goes

A `T_BCAST` goes through the send queues of the links it is for.  The loop skips the links of the
source's node and the connections that are closing, and gives each endpoint of a node one copy.

* `Lobby`           the room with the send queue of every control connection;
* `BackedUp`        a queue that takes no droppable frame, however short;
* `Fits`            a frame that goes into what is left of `WQ_DROP_BYTES`;
* `bcastTo_eq`      the loop is the library's `distinctBy`, with the endpoint as the key;
* `beacon_fan_out`  who gets a copy, and what is in it.

The length of a `T_BCAST` is bounded by `tcp_read` alone, at 8 MiB, so a beacon can be one that no
queue takes.
-/

namespace ShadowLan

namespace SendQ
variable {s : SendQ} {mtype : UInt8} {payload : Bytes}

/-- what waits in the queue of the writer -/
def waiting (s : SendQ) : List (Option Bytes) :=
  match s.entry with
  | none => []
  | some e => s.items e.q

/-- `control queue backed up`: the queue is at its count of frames, or its object is full -/
def BackedUp (s : SendQ) : Prop :=
  match s.entry with
  | none => False
  | some e => e.cnt ≥ WQ_MAXFRAMES ∨ s.isFull e.q = true

/-- the bytes that the entry counts -/
def byts (s : SendQ) : Int := (s.entry.map Entry.byts).getD 0

/-- with the droppable frame `f` the queue is within `WQ_DROP_BYTES` -/
def Fits (s : SendQ) (f : Bytes) : Prop := s.byts + f.length ≤ WQ_DROP_BYTES

theorem opened_byts (s : SendQ) : s.opened.2.byts = s.byts := by
  unfold opened byts
  cases s.entry <;> rfl

/-- the entry names a queue that there is -/
def Housed (s : SendQ) : Prop := ∀ e, s.entry = some e → e.q < s.queues.length

theorem Housed.put (h : s.Housed) (q : Nat) (f : Bytes) (d : Bool) (cnt byts : Int) :
    (s.put q f d cnt byts).1.Housed := by
  unfold SendQ.put
  split
  · exact h
  · intro e he
    obtain ⟨e', he', rfl⟩ := setSize_entry he
    have hlen : (s.append q (some f)).queues.length = s.queues.length := List.length_set
    exact hlen.symm ▸ h e' he'

theorem Housed.rSend (h : s.Housed) (mtype : UInt8) (payload : Bytes) (d : Option Bool) :
    (s.rSend mtype payload d).1.Housed := by
  have hopen : s.opened.1.Housed := by
    unfold opened
    split
    · exact h
    · intro e he
      rw [← Option.some.inj he]
      show s.queues.length < (s.queues ++ [[]]).length
      rw [List.length_append]
      exact Nat.lt_succ_self _
  unfold SendQ.rSend
  dsimp only
  split
  · exact hopen
  · unfold attempt
    split
    · exact hopen
    · exact hopen.put _ _ _ _ _

/-- a queue that is made for the first frame, or the one there is -/
structure Taking (s : SendQ) (f : Bytes) (e : Entry) (t : SendQ) : Prop where
  entry : t.entry = some e
  lt : e.q < t.queues.length
  few : e.cnt < WQ_MAXFRAMES
  small : e.byts + f.length ≤ WQ_DROP_BYTES
  space : t.isFull e.q = false
  waiting : t.items e.q = s.waiting

theorem opened_taking {f : Bytes} (h : s.Housed) (hroom : ¬ s.BackedUp) (hfit : s.Fits f) :
    s.Taking f s.opened.2 s.opened.1 := by
  have hsmall : s.opened.2.byts + f.length ≤ WQ_DROP_BYTES := s.opened_byts ▸ hfit
  revert hsmall
  unfold BackedUp at hroom
  unfold opened
  cases he : s.entry with
  | some e =>
    intro hsmall
    rw [he] at hroom
    dsimp only at hroom ⊢
    rw [not_or, Bool.not_eq_true] at hroom
    obtain ⟨hcnt, hfull⟩ := hroom
    refine ⟨he, h e he, by omega, hsmall, hfull, ?_⟩
    unfold waiting
    rw [he]
  | none =>
    intro hsmall
    dsimp only
    have hitems : ∀ t : SendQ, t.queues = s.queues ++ [[]] → t.items s.queues.length = [] := by
      intro t ht
      unfold items
      rw [ht, List.getD_eq_getElem?_getD, List.getElem?_concat_length]
      rfl
    refine ⟨rfl, ?_, ?_, ?_, ?_, ?_⟩
    · rw [List.length_append]
      exact Nat.lt_succ_self _
    · show (0 : Int) < WQ_MAXFRAMES
      decide
    · exact hsmall
    · unfold isFull
      rw [hitems _ rfl]
      rfl
    · unfold waiting
      rw [hitems _ rfl, he]

/-- a droppable frame that finds room is queued, and the call returns at once -/
theorem rSend_room (h : s.Housed) (hroom : ¬ s.BackedUp) (hfit : s.Fits (frame mtype payload)) :
    (s.rSend mtype payload none).2 = .returned ∧
      (s.rSend mtype payload none).1.waiting = s.waiting ++ [some (frame mtype payload)] := by
  have hr := opened_taking h hroom hfit
  have hkeep : ¬ ((DROPPABLE.contains mtype = true) ∧ (s.opened.2.cnt ≥ WQ_MAXFRAMES ∨
      s.opened.2.byts + (frame mtype payload).length > WQ_DROP_BYTES)) := by
    have hcnt := hr.few
    have hbyt := hr.small
    rintro ⟨-, hbad | hbad⟩ <;> omega
  have hnot : ¬ s.opened.2.Over := by
    have hcnt := hr.few
    have hbyt := hr.small
    have hmax : (WQ_DROP_BYTES : Int) ≤ WQ_MAXBYTES := by decide
    rintro (hbad | hbad) <;> omega
  have hput : s.rSend mtype payload none = ((s.opened.1.append s.opened.2.q
      (some (frame mtype payload))).setSize (s.opened.2.cnt + 1)
        (s.opened.2.byts + (frame mtype payload).length), .returned) := by
    unfold rSend
    dsimp only [Option.getD_none]
    rw [if_neg hkeep]
    unfold attempt SendQ.put
    rw [if_neg hnot, hr.space, if_neg Bool.false_ne_true]
  rw [hput]
  refine ⟨rfl, ?_⟩
  have hentry : ((s.opened.1.append s.opened.2.q (some (frame mtype payload))).setSize
      (s.opened.2.cnt + 1) (s.opened.2.byts + (frame mtype payload).length)).entry =
        some { s.opened.2 with
          cnt := s.opened.2.cnt + 1
          byts := s.opened.2.byts + (frame mtype payload).length } :=
    congrArg (Option.map _) hr.entry
  unfold waiting
  rw [hentry]
  show (s.opened.1.append s.opened.2.q _).items s.opened.2.q = _
  rw [items_append, if_pos ⟨rfl, hr.lt⟩, hr.waiting]
  rfl

theorem opened_waiting (s : SendQ) : s.opened.1.waiting = s.waiting := by
  unfold opened waiting
  cases he : s.entry with
  | some e =>
    dsimp only
    rw [he]
  | none =>
    dsimp only
    unfold items
    rw [List.getD_eq_getElem?_getD, List.getElem?_concat_length]
    rfl

/-- a droppable frame that does not fit is dropped -/
theorem rSend_tooLong (hd : DROPPABLE.contains mtype = true)
    (hfit : ¬ s.Fits (frame mtype payload)) :
    (s.rSend mtype payload none).1.waiting = s.waiting := by
  have hover : s.opened.2.byts + (frame mtype payload).length > WQ_DROP_BYTES := by
    rw [s.opened_byts]
    exact not_le.mp hfit
  unfold rSend
  dsimp only [Option.getD_none]
  rw [if_pos ⟨hd, Or.inr hover⟩]
  exact s.opened_waiting

end SendQ

/-! ## the loop -/

namespace Room
variable (s : Room) (w : Writer) (n : Nat)

/-- the link is one that the loop does not skip -/
def hears (x : LinkRef) : Bool :=
  x.writer ≠ w && !s.relay.isClosing x.writer && !(n ≠ 0 && s.relay.writer_node.get? x.writer = some n)

/-- what the copies are counted by: the node and its endpoint -/
def copyKey (x : LinkRef) : Option (Option Nat × Addr) :=
  (s.relay.linkEndpoint x.writer x.link).map fun ep => (s.relay.writer_node.get? x.writer, ep)

/-- **The loop gives each endpoint of a node one copy.** -/
theorem bcastTo_eq (sent : List (Option Nat × Addr)) (xs : List LinkRef) :
    s.bcastTo w n sent xs =
      (distinctBy s.copyKey sent (xs.filter (s.hears w n))).map LinkRef.writer := by
  induction xs generalizing sent with
  | nil => rfl
  | cons x xs ih =>
    unfold bcastTo
    dsimp only
    by_cases h1 : (decide (x.writer = w) || s.relay.isClosing x.writer) = true
    · have hno : ¬ s.hears w n x = true := by
        unfold hears
        rw [Bool.or_eq_true, decide_eq_true_iff] at h1
        rcases h1 with h1 | h1 <;> simp [h1]
      rw [if_pos h1, List.filter_cons_of_neg hno, ih]
    rw [if_neg h1]
    rw [Bool.or_eq_true, decide_eq_true_iff, not_or, Bool.not_eq_true] at h1
    by_cases h2 : n ≠ 0 ∧ s.relay.writer_node.get? x.writer = some n
    · have hno : ¬ s.hears w n x = true := by
        unfold hears
        simp [h2]
      rw [if_pos h2, List.filter_cons_of_neg hno, ih]
    have hyes : s.hears w n x = true := by
      have hother := not_and_or.mp h2
      rw [not_ne_iff] at hother
      unfold hears
      simp [h1, hother]
    rw [if_neg h2, List.filter_cons_of_pos hyes]
    unfold distinctBy copyKey
    cases s.relay.linkEndpoint x.writer x.link with
    | none =>
      show x.writer :: _ = x.writer :: _
      rw [ih]
      rfl
    | some ep =>
      dsimp only [Option.map_some]
      split
      · rw [ih]
        rfl
      · rw [ih]
        rfl

end Room

structure Lobby where
  room : Room
  queues : Writer → SendQ
  housed : ∀ w, (queues w).Housed

namespace Lobby
variable (s : Lobby)

def send (o : RoomOut) : Lobby :=
  match o with
  | .frame v mtype payload =>
    { s with
      queues := fun w => if w = v then ((s.queues v).rSend mtype payload none).1 else s.queues w
      housed := fun w => by
        split
        · exact (s.housed v).rSend mtype payload none
        · exact s.housed w }
  | .tunnel _ => s

/-- the `T_BCAST` branch, with what it queues -/
def bcast (w : Writer) (payload : Bytes) : Lobby :=
  let r := s.room.bcast w payload
  r.2.foldl send { s with room := r.1 }

end Lobby

namespace Relay
variable {s : Relay}

/-- a node of the wire: 0 stands for none -/
def NodeId (n : Nat) : Prop := n ≠ 0 ∧ n < 4294967296

/-- each link is at the node that `writer_node` names -/
def InStep (s : Relay) : Prop := ∀ x ∈ s.allLinks, s.writer_node.get? x.writer = some x.node

theorem nodup_allLinks (s : Relay) : s.allLinks.Nodup := by
  unfold allLinks
  rw [List.nodup_flatMap]
  constructor
  · intro e _
    apply List.Nodup.map _ (List.Nodup.of_map _ e.2.links.nodup)
    intro x y h
    exact Prod.ext (congrArg LinkRef.writer h) (congrArg LinkRef.link h)
  · apply (List.pairwise_map.mp s.nodes.nodup).imp
    intro e e' hne x hx hx'
    obtain ⟨y, -, rfl⟩ := List.mem_map.mp hx
    obtain ⟨z, -, hz⟩ := List.mem_map.mp hx'
    exact hne (congrArg LinkRef.node hz).symm

/-- then a connection is in the list once -/
theorem InStep.inj (h : s.InStep) {x y : LinkRef} (hx : x ∈ s.allLinks) (hy : y ∈ s.allLinks)
    (hw : x.writer = y.writer) : x = y := by
  have hn : x.node = y.node := Option.some.inj ((h x hx).symm.trans (hw ▸ h y hy))
  obtain ⟨n, w, l⟩ := x
  obtain ⟨n', w', l'⟩ := y
  obtain rfl : n = n' := hn
  obtain rfl : w = w' := hw
  have hx := mem_allLinks.mp hx
  have hy := mem_allLinks.mp hy
  unfold nodeLinks at hx hy
  cases he : s.nodes.get? n with
  | none =>
    rw [he] at hx
    cases hx
  | some ent =>
    rw [he] at hx hy
    exact congrArg (LinkRef.mk n w) (ent.links.val_unique hx hy)

theorem nodeId_run {token : Bytes} {allowed : List Nat} {subnet clock : Nat}
    {tr : List (Relay × RelayAct)} (h : Path next (init token allowed subnet clock) tr s) :
    ∀ x ∈ s.allLinks, NodeId x.node := by
  have hall : AllNodes NodeId s := by
    refine h.inv (I := AllNodes NodeId) nofun fun u a v hu hst => ?_
    exact hu.next hst fun _ _ hf h0 => ⟨h0, decodeCtlNode_node hf⟩
  intro x hx
  obtain ⟨ent, he, -⟩ := holds_iff.mp (holds_iff_allLinks.mpr ⟨x, hx, rfl, rfl⟩)
  exact hall x.node ent he

end Relay

namespace Room
variable {s : Room}

theorem next_room {token : Bytes} {allowed disc : List Nat} {subnet clock : Nat}
    {tr : List (Room × RoomAct)} (h : Path next (init token allowed disc subnet clock) tr s) :
    ∃ tr', Path Relay.next (.init token allowed subnet clock) tr' s.relay := by
  induction h with
  | nil => exact ⟨[], .nil⟩
  | @snoc tr u v a hp hl ih =>
    obtain ⟨tr', ih⟩ := ih
    cases a with
    | relay a => exact ⟨_, ih.snoc (next_relay hl)⟩
    | bcast w payload => exact ⟨tr', next_bcast hl ▸ ih⟩

/-- the links that the copies go to -/
def copies (s : Room) (w : Writer) (n : Nat) : List LinkRef :=
  distinctBy s.copyKey [] (s.relay.allLinks.filter (s.hears w n))

variable {w : Writer} {n : Nat}

theorem copies_sublist (s : Room) (w : Writer) (n : Nat) :
    (s.copies w n).Sublist s.relay.allLinks :=
  (distinctBy_sublist _ _).trans List.filter_sublist

/-- a connection is one of the copies once -/
theorem copies_nodup (hstep : s.relay.InStep) : ((s.copies w n).map LinkRef.writer).Nodup := by
  have hsub := s.copies_sublist w n
  exact List.Nodup.map_on (fun x hx y hy h => hstep.inj (hsub.subset hx) (hsub.subset hy) h)
    (hsub.nodup (Relay.nodup_allLinks _))

/-- what a beacon becomes: a frame for each of the copies, or nothing -/
theorem bcast_out (s : Room) (w : Writer) (payload : Bytes) : (s.bcast w payload).2 = [] ∨
    ∃ f : LinkRef → UInt8 × Bytes,
      (s.bcast w payload).2 = (s.copies w ((s.relay.writer_node.get? w).getD 0)).map fun x =>
        .frame x.writer (f x).1 (f x).2 := by
  unfold bcast
  split
  · next dport sport _ _ =>
    split
    · refine Or.inr ⟨fun x => if (s.relay.writer_node.get? w).getD 0 ≠ 0 ∧
          (s.relay.writer_node.get? x.writer).isSome = true then
        (T_BCAST_FROM, encode_bcast_from ((s.relay.writer_node.get? w).getD 0) dport sport
          (payload.drop 4)) else (T_BCAST, payload), ?_⟩
      dsimp only
      rw [bcastTo_eq, List.map_map]
      apply List.map_congr_left
      intro x _
      show s.beacon _ _ _ _ x.writer = _
      unfold beacon
      split <;> rfl
    · exact Or.inl rfl
  · exact Or.inl rfl

theorem hears_iff {x : LinkRef} : s.hears w n x = true ↔ x.writer ≠ w ∧
    s.relay.isClosing x.writer = false ∧ ¬ (n ≠ 0 ∧ s.relay.writer_node.get? x.writer = some n) := by
  unfold hears
  simp [and_assoc, Classical.or_iff_not_imp_left]

theorem copies_hears {x : LinkRef} (hx : x ∈ s.copies w n) : s.relay.isClosing x.writer = false ∧
    ¬ (n ≠ 0 ∧ s.relay.writer_node.get? x.writer = some n) := by
  have h := (List.mem_filter.mp ((distinctBy_sublist _ _).subset hx)).2
  exact (hears_iff.mp h).2

section
variable {x₀ x y : LinkRef}

theorem copyKey_eq (hstep : s.relay.InStep) (hx : x ∈ s.relay.allLinks) : s.copyKey x =
    (s.relay.linkEndpoint x.writer x.link).map fun ep => (some x.node, ep) := by
  unfold copyKey
  rw [hstep x hx]

/-- no link of the beacon's own node is a copy -/
theorem copies_node (hstep : s.relay.InStep) (hn : n ≠ 0) (hx : x ∈ s.copies w n) :
    x.node ≠ n := by
  rintro rfl
  exact (copies_hears hx).2 ⟨hn, hstep x ((s.copies_sublist _ _).subset hx)⟩

/-- an open link of another node is not skipped -/
theorem heard_of_open (hstep : s.relay.InStep) (hx₀ : x₀ ∈ s.relay.allLinks)
    (hx : x ∈ s.relay.allLinks) (hnode : x.node ≠ x₀.node)
    (hopen : s.relay.isClosing x.writer = false) :
    x ∈ s.relay.allLinks.filter (s.hears x₀.writer x₀.node) := by
  refine List.mem_filter.mpr ⟨hx, hears_iff.mpr ⟨fun e => ?_, hopen, fun h => ?_⟩⟩
  · exact hnode (congrArg LinkRef.node (hstep.inj hx hx₀ e))
  · exact hnode (Option.some.inj ((hstep x hx).symm.trans h.2))

/-- without an endpoint it gets a copy of its own -/
theorem copies_direct (hstep : s.relay.InStep) (hx₀ : x₀ ∈ s.relay.allLinks)
    (hx : x ∈ s.relay.allLinks) (hnode : x.node ≠ x₀.node)
    (hopen : s.relay.isClosing x.writer = false)
    (hno : s.relay.linkEndpoint x.writer x.link = none) : x ∈ s.copies x₀.writer x₀.node := by
  apply mem_distinctBy_of_none (heard_of_open hstep hx₀ hx hnode hopen)
  rw [copyKey_eq hstep hx, hno]
  rfl

/-- every node with an open link gets a copy -/
theorem copies_cover (hstep : s.relay.InStep) (hx₀ : x₀ ∈ s.relay.allLinks)
    (hx : x ∈ s.relay.allLinks) (hnode : x.node ≠ x₀.node)
    (hopen : s.relay.isClosing x.writer = false) :
    ∃ y ∈ s.copies x₀.writer x₀.node, y.node = x.node := by
  cases hep : s.relay.linkEndpoint x.writer x.link with
  | none => exact ⟨x, copies_direct hstep hx₀ hx hnode hopen hep, rfl⟩
  | some ep =>
    have hk : s.copyKey x = some (some x.node, ep) := by
      rw [copyKey_eq hstep hx, hep]
      rfl
    obtain ⟨y, hy, hky⟩ :=
      distinctBy_covers (heard_of_open hstep hx₀ hx hnode hopen) hk List.not_mem_nil
    rw [copyKey_eq hstep ((s.copies_sublist _ _).subset hy)] at hky
    obtain ⟨ep', -, e⟩ := Option.map_eq_some_iff.mp hky
    exact ⟨y, hy, Option.some.inj (congrArg Prod.fst e)⟩

/-- an endpoint of a node gets one copy -/
theorem copies_unique (hstep : s.relay.InStep) (hx : x ∈ s.copies w n) (hy : y ∈ s.copies w n)
    {ep : Addr} (hnode : x.node = y.node)
    (hex : s.relay.linkEndpoint x.writer x.link = some ep)
    (hey : s.relay.linkEndpoint y.writer y.link = some ep) : x = y := by
  have hsub := s.copies_sublist w n
  have hkx : s.copyKey x = some (some x.node, ep) := by
    rw [copyKey_eq hstep (hsub.subset hx), hex]
    rfl
  have hky : s.copyKey y = some (some x.node, ep) := by
    rw [copyKey_eq hstep (hsub.subset hy), hey, hnode]
    rfl
  exact distinctBy_unique hx hy hkx hky

end

end Room

namespace Lobby
variable {s : Lobby}

/-- each queue takes the frame that goes to it once -/
theorem foldl_send {mtype : UInt8} {payload : Bytes} {vs : List Writer} (hnd : vs.Nodup) (s : Lobby)
    (v : Writer) : ((vs.map fun v => RoomOut.frame v mtype payload).foldl send s).queues v =
      if v ∈ vs then ((s.queues v).rSend mtype payload none).1 else s.queues v := by
  induction vs generalizing s with
  | nil => rfl
  | cons u vs ih =>
    obtain ⟨hu, hnd⟩ := List.nodup_cons.mp hnd
    have hsend : (s.send (.frame u mtype payload)).queues v =
        if v = u then ((s.queues u).rSend mtype payload none).1 else s.queues v := rfl
    rw [List.map_cons, List.foldl_cons, ih hnd, hsend]
    by_cases hv : v = u
    · rw [if_pos hv, if_neg (hv ▸ hu), if_pos (hv ▸ List.mem_cons_self), hv]
    · rw [if_neg hv]
      have hmem : v ∈ u :: vs ↔ v ∈ vs := by
        rw [List.mem_cons, or_iff_right hv]
      by_cases hin : v ∈ vs
      · rw [if_pos hin, if_pos (hmem.mpr hin)]
      · rw [if_neg hin, if_neg (fun h => hin (hmem.mp h))]

/-- one copy more is waiting in the queue of `v` -/
def Gets (s t : Lobby) (v : Writer) (f : Bytes) : Prop :=
  (t.queues v).waiting = (s.queues v).waiting ++ [some f]

/-- the frame that a beacon of node `n` becomes -/
def attributed (n dport sport : Nat) (payload : Bytes) : Bytes :=
  frame T_BCAST_FROM (encode_bcast_from n dport sport (payload.drop 4))

section
variable {w : Writer} {n dport sport : Nat} {payload : Bytes}

/-- the copies, and no other queue, take the attributed frame -/
theorem bcast_queues (hstep : s.room.relay.InStep) (hn : n ≠ 0)
    (hw : s.room.relay.writer_node.get? w = some n)
    (hd : unpackH (slice payload 0 2) = some dport) (hs : unpackH (slice payload 2 4) = some sport)
    (hdisc : s.room.discAllowed dport = true) (v : Writer) :
    (s.bcast w payload).queues v =
      if v ∈ (s.room.copies w n).map LinkRef.writer then
        ((s.queues v).rSend T_BCAST_FROM (encode_bcast_from n dport sport (payload.drop 4)) none).1
      else s.queues v := by
  have hout : (s.room.bcast w payload).2 = ((s.room.copies w n).map LinkRef.writer).map fun v =>
      .frame v T_BCAST_FROM (encode_bcast_from n dport sport (payload.drop 4)) := by
    unfold Room.bcast
    rw [hd, hs]
    dsimp only
    rw [if_pos hdisc, hw, Option.getD_some, Room.bcastTo_eq]
    apply List.map_congr_left
    intro v hv
    obtain ⟨x, hx, rfl⟩ := List.mem_map.mp hv
    unfold Room.beacon
    rw [hstep x ((s.room.copies_sublist w n).subset hx)]
    exact if_pos ⟨hn, rfl⟩
  unfold bcast
  dsimp only
  rw [hout, foldl_send (Room.copies_nodup hstep)]

theorem bcast_gets (hstep : s.room.relay.InStep) (hn : n ≠ 0)
    (hw : s.room.relay.writer_node.get? w = some n)
    (hd : unpackH (slice payload 0 2) = some dport) (hs : unpackH (slice payload 2 4) = some sport)
    (hdisc : s.room.discAllowed dport = true)
    (hroom : ∀ x ∈ s.room.relay.allLinks, ¬ (s.queues x.writer).BackedUp)
    (hfit : ∀ x ∈ s.room.relay.allLinks,
      (s.queues x.writer).Fits (attributed n dport sport payload))
    {x : LinkRef} (hx : x ∈ s.room.copies w n) :
    s.Gets (s.bcast w payload) x.writer (attributed n dport sport payload) := by
  unfold Gets
  rw [bcast_queues hstep hn hw hd hs hdisc, if_pos (List.mem_map_of_mem hx)]
  have hlink := (s.room.copies_sublist w n).subset hx
  exact (SendQ.rSend_room (s.housed _) (hroom x hlink) (hfit x hlink)).2

theorem bcast_same (hstep : s.room.relay.InStep) (hn : n ≠ 0)
    (hw : s.room.relay.writer_node.get? w = some n)
    (hd : unpackH (slice payload 0 2) = some dport) (hs : unpackH (slice payload 2 4) = some sport)
    (hdisc : s.room.discAllowed dport = true) {v : Writer}
    (hv : v ∉ (s.room.copies w n).map LinkRef.writer) :
    (s.bcast w payload).queues v = s.queues v := by
  rw [bcast_queues hstep hn hw hd hs hdisc, if_neg hv]

end

/-- **Complete, and once for each machine.**  A beacon from a link of node `n`, with every link at the
node that `writer_node` names, no queue backed up and a copy that fits each queue: every queue takes
one frame or stays as it is; no link of `n` gets it; every other node with an open link gets it on one;
a node's endpoint gets it once, and every open link without an endpoint gets it; and a hook reads in it
the node `n`, both ports and the payload.  In every run the nodes are such that this applies. -/
theorem beacon_fan_out :
    (∀ token allowed disc subnet clock tr (r : Room),
      Path Room.next (.init token allowed disc subnet clock) tr r →
        ∀ x ∈ r.relay.allLinks, Relay.NodeId x.node) ∧
    ∀ (s : Lobby) (x₀ : LinkRef) (payload : Bytes) (dport sport : Nat), s.room.relay.InStep →
      x₀ ∈ s.room.relay.allLinks → Relay.NodeId x₀.node →
      unpackH (slice payload 0 2) = some dport → unpackH (slice payload 2 4) = some sport →
      s.room.discAllowed dport = true →
      (∀ x ∈ s.room.relay.allLinks, ¬ (s.queues x.writer).BackedUp) →
      (∀ x ∈ s.room.relay.allLinks,
        (s.queues x.writer).Fits (attributed x₀.node dport sport payload)) →
      let t := s.bcast x₀.writer payload
      let f := attributed x₀.node dport sport payload
      (∀ v, t.queues v = s.queues v ∨
        s.Gets t v f ∧ ∃ x ∈ s.room.relay.allLinks, x.writer = v ∧ s.room.relay.isClosing v = false) ∧
      (∀ x ∈ s.room.relay.allLinks, x.node = x₀.node → t.queues x.writer = s.queues x.writer) ∧
      (∀ x ∈ s.room.relay.allLinks, x.node ≠ x₀.node → s.room.relay.isClosing x.writer = false →
        ∃ y ∈ s.room.relay.allLinks, y.node = x.node ∧ s.room.relay.isClosing y.writer = false ∧
          s.Gets t y.writer f) ∧
      (∀ x ∈ s.room.relay.allLinks, ∀ y ∈ s.room.relay.allLinks, ∀ ep,
        t.queues x.writer ≠ s.queues x.writer → t.queues y.writer ≠ s.queues y.writer →
        x.node = y.node → s.room.relay.linkEndpoint x.writer x.link = some ep →
        s.room.relay.linkEndpoint y.writer y.link = some ep → x = y) ∧
      (∀ x ∈ s.room.relay.allLinks, x.node ≠ x₀.node → s.room.relay.isClosing x.writer = false →
        s.room.relay.linkEndpoint x.writer x.link = none → s.Gets t x.writer f) ∧
      hookRead (.ctl T_BCAST_FROM (encode_bcast_from x₀.node dport sport (payload.drop 4))) =
        some (.bcastFrom x₀.node dport sport (payload.drop 4)) := by
  refine ⟨fun token allowed disc subnet clock tr r h => ?_, ?_⟩
  · obtain ⟨tr', h'⟩ := Room.next_room h
    exact Relay.nodeId_run h'
  intro s x₀ payload dport sport hstep hx₀ hid hd hs hdisc hroom hfit
  dsimp only
  have hw := hstep x₀ hx₀
  have hgets : ∀ x ∈ s.room.copies x₀.writer x₀.node,
      s.Gets (s.bcast x₀.writer payload) x.writer (attributed x₀.node dport sport payload) :=
    fun x hx => bcast_gets hstep hid.1 hw hd hs hdisc hroom hfit hx
  have hsame : ∀ {v}, v ∉ (s.room.copies x₀.writer x₀.node).map LinkRef.writer →
      (s.bcast x₀.writer payload).queues v = s.queues v :=
    fun hv => bcast_same hstep hid.1 hw hd hs hdisc hv
  -- a link whose queue has changed is one of the copies
  have hcopy : ∀ x ∈ s.room.relay.allLinks,
      (s.bcast x₀.writer payload).queues x.writer ≠ s.queues x.writer →
        x ∈ s.room.copies x₀.writer x₀.node := by
    intro x hx hne
    by_contra hno
    apply hne
    apply hsame
    intro hv
    obtain ⟨y, hy, e⟩ := List.mem_map.mp hv
    exact hno (hstep.inj ((s.room.copies_sublist _ _).subset hy) hx e ▸ hy)
  refine ⟨?_, ?_, ?_, ?_, ?_, ?_⟩
  · intro v
    by_cases hv : v ∈ (s.room.copies x₀.writer x₀.node).map LinkRef.writer
    · obtain ⟨x, hx, rfl⟩ := List.mem_map.mp hv
      have hmem := (s.room.copies_sublist _ _).subset hx
      exact Or.inr ⟨hgets x hx, x, hmem, rfl, (Room.copies_hears hx).1⟩
    · exact Or.inl (hsame hv)
  · intro x hx hnode
    by_contra hne
    exact Room.copies_node hstep hid.1 (hcopy x hx hne) hnode
  · intro x hx hnode hopen
    obtain ⟨y, hy, e⟩ := Room.copies_cover hstep hx₀ hx hnode hopen
    exact ⟨y, (s.room.copies_sublist _ _).subset hy, e, (Room.copies_hears hy).1, hgets y hy⟩
  · intro x hx y hy ep hnx hny hnode hex hey
    exact Room.copies_unique hstep (hcopy x hx hnx) (hcopy y hy hny) hnode hex hey
  · intro x hx hnode hopen hno
    exact hgets x (Room.copies_direct hstep hx₀ hx hnode hopen hno)
  · exact hookRead_build (.bcastFrom x₀.node dport sport (payload.drop 4))
      ⟨hid.2, unpackH_lt hd, unpackH_lt hs⟩

theorem housed_init : SendQ.init.Housed := nofun

/-- node 1, and node 2 with two connections from one endpoint -/
def redialers : List RoomAct :=
  [.relay (.accept 1 "10.0.0.9"), .relay (.node 1 [3, 0, 0, 0, 0, 0, 1, 0x13, 0x88, 0]),
    .relay (.accept 2 "10.0.0.8"), .relay (.node 2 [3, 0, 0, 0, 0, 0, 2, 0x1E, 0x61, 0]),
    .relay (.accept 3 "10.0.0.8"), .relay (.node 3 [3, 0, 0, 0, 0, 0, 2, 0x1E, 0x61, 0])]

/-- what `redialers` leave behind -/
theorem redialers_end : ∃ r, run Room.next (.init [] [] [] 0 0) redialers = some r ∧
    r.relay.InStep ∧ (∃ x ∈ r.relay.allLinks, x.writer = 1 ∧ x.node = 1) ∧
    (∃ x ∈ r.relay.allLinks, x.node = 2 ∧ r.relay.isClosing x.writer = false) ∧
    r.discAllowed 4444 = true := by
  have hrun : (run Room.next (.init [] [] [] 0 0) redialers).isSome = true := by decide
  obtain ⟨r, hr⟩ := Option.isSome_iff_exists.mp hrun
  have hend : ∀ r ∈ run Room.next (.init [] [] [] 0 0) redialers,
      (∀ x ∈ r.relay.allLinks, r.relay.writer_node.get? x.writer = some x.node) ∧
      (∃ x ∈ r.relay.allLinks, x.writer = 1 ∧ x.node = 1) ∧
      (∃ x ∈ r.relay.allLinks, x.node = 2 ∧ r.relay.isClosing x.writer = false) ∧
      r.discAllowed 4444 = true := by
    decide
  exact ⟨r, hr, hend r hr⟩

/-- the room with nothing in any queue -/
def idle (r : Room) : Lobby := ⟨r, fun _ => .init, fun _ => housed_init⟩

theorem beacon_redialers : ∃ r, run Room.next (.init [] [] [] 0 0) redialers = some r ∧
    ∃ y ∈ r.relay.allLinks, y.node = 2 ∧
      Gets (idle r) (bcast (idle r) 1 [0x11, 0x5C, 0, 9, 65]) y.writer
        (attributed 1 4444 9 [0x11, 0x5C, 0, 9, 65]) := by
  obtain ⟨r, hr, hstep, ⟨x₀, hx₀, hw, hn⟩, ⟨x, hx, h2, hopen⟩, hdisc⟩ := redialers_end
  have hsmall : SendQ.init.Fits (attributed 1 4444 9 [0x11, 0x5C, 0, 9, 65]) := by
    show (0 : Int) + (attributed 1 4444 9 [0x11, 0x5C, 0, 9, 65]).length ≤ WQ_DROP_BYTES
    decide
  have hid : Relay.NodeId x₀.node := by
    rw [hn]
    exact ⟨by decide, by decide⟩
  have hall := beacon_fan_out.2 (idle r) x₀ [0x11, 0x5C, 0, 9, 65] 4444 9 hstep hx₀ hid rfl rfl hdisc
    (fun _ _ => not_false) (fun _ _ => hn ▸ hsmall)
  obtain ⟨y, hy, hynode, -, hgets⟩ := hall.2.2.1 x hx (by rw [h2, hn]; decide) hopen
  rw [hw, hn] at hgets
  exact ⟨r, hr, y, hy, hynode.trans h2, hgets⟩

theorem length_attributed (n dport sport : Nat) {payload : Bytes} (h : 4 ≤ payload.length) :
    (attributed n dport sport payload).length = payload.length + 9 := by
  have hdrop : (payload.drop 4).length + 4 = payload.length := by
    rw [List.length_drop]
    omega
  show (packI _ ++ _ :: (packI n ++ packH dport ++ packH sport ++ payload.drop 4)).length = _
  simp only [List.length_append, List.length_cons, List.length_nil, packI, packH]
  omega

/-- a beacon of 64 KiB -/
def longBeacon : Bytes := [0x11, 0x5C, 0, 9] ++ List.replicate 65536 65

/-- the relay is idle, and a beacon that `tcp_read` takes reaches nobody -/
theorem beacon_tooLong : ∃ r, run Room.next (.init [] [] [] 0 0) redialers = some r ∧
    tcpRead (frame T_BCAST longBeacon) = .frame T_BCAST longBeacon [] ∧ r.relay.InStep ∧
    (∃ x ∈ r.relay.allLinks, x.writer = 1 ∧ x.node = 1) ∧ r.discAllowed 4444 = true ∧
    (∀ v, ¬ ((idle r).queues v).BackedUp ∧ ((idle r).queues v).waiting = []) ∧
    (∃ x ∈ r.relay.allLinks, x.node = 2 ∧ r.relay.isClosing x.writer = false) ∧
    ∀ y ∈ r.relay.allLinks, ¬ Gets (idle r) (bcast (idle r) 1 longBeacon) y.writer
      (attributed 1 4444 9 longBeacon) := by
  obtain ⟨r, hr, hstep, ⟨x₀, hx₀, hw, hn⟩, hother, hdisc⟩ := redialers_end
  have hlen : longBeacon.length = 65540 := by
    rw [longBeacon, List.length_append, List.length_replicate]
    exact congrArg (· + 65536) (rfl : List.length [0x11, 0x5C, 0, 9] = 4)
  have hfit : ¬ SendQ.init.Fits (attributed 1 4444 9 longBeacon) := by
    show ¬ ((0 : Int) + (attributed 1 4444 9 longBeacon).length ≤ WQ_DROP_BYTES)
    rw [length_attributed 1 4444 9 (by rw [hlen]; decide), hlen]
    decide
  have hread : tcpRead (frame T_BCAST longBeacon) = .frame T_BCAST longBeacon [] := by
    have h := tcpRead_frame (p := longBeacon) T_BCAST (by rw [hlen]; decide) []
    rwa [List.append_nil] at h
  refine ⟨r, hr, hread, hstep, ⟨x₀, hx₀, hw, hn⟩, hdisc,
    fun _ => ⟨not_false, rfl⟩, hother, fun y _ hgets => ?_⟩
  have hw1 : r.relay.writer_node.get? 1 = some 1 := by
    have h := hstep x₀ hx₀
    rwa [hw, hn] at h
  have hq : (bcast (idle r) 1 longBeacon).queues y.writer = _ :=
    bcast_queues hstep (n := 1) (by decide) hw1 rfl rfl hdisc y.writer
  -- a queue that is sent the copy drops it
  have hsame : ((bcast (idle r) 1 longBeacon).queues y.writer).waiting = [] := by
    rw [hq]
    split
    · exact SendQ.rSend_tooLong rfl hfit
    · rfl
  exact List.cons_ne_nil _ _ (hgets.symm.trans hsame)

end Lobby

end ShadowLan
