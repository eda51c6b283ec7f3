import Mathlib.Data.Finset.Max
import Mathlib.Data.List.Pairwise
import Mathlib.Data.Prod.Lex
import ShadowLan.Relay.HostClaims
import ShadowLan.Relay.Room
import ShadowLan.Relay.Streams

/-!
# Who gets an unaddressed stream

The claims that come within the grace window of an unaddressed stream are parked, and
`_implicit_grant` picks one.  `handle_stream_open` orders the members that it asks by the pair of the
latest host claim and the latest beacon of a link; the grant goes by host claims alone, and by
arrival among equal ones.

* `pref`            the pair of a node;
* `arrive`          the `T_STJOIN`s come, one after the other;
* `Grants`          the grant goes to this claim, and `STF_BUSY` to all the others;
* `freshest_iff`    whatever the order of arrival, the freshest claim gets the grant: exactly when no
                    two claimants share the latest host claim.
-/

namespace ShadowLan

/-! ## how fresh a node is -/

namespace Room
variable (r : Room)

/-- the latest beacon of the links of a node, 0 without one -/
def beaconOf (n : Nat) : Nat :=
  ((r.relay.nodeLinks n).map fun x => (r.beaconers.get? x.1).getD 0).foldl max 0

/-- the latest host claim and the latest beacon of a node -/
def pref (n : Nat) : Nat × Nat := (r.relay.hostScore n, r.beaconOf n)

/-- no claimant is fresher -/
def Freshest (l : List StClaim) (win : StClaim) : Prop :=
  win ∈ l ∧ ∀ c ∈ l, toLex (r.pref c.2) ≤ toLex (r.pref win.2)

/-- no claimant has a later host claim -/
def Top (l : List StClaim) (c : StClaim) : Prop :=
  c ∈ l ∧ ∀ d ∈ l, r.relay.hostScore d.2 ≤ r.relay.hostScore c.2

end Room

namespace Stream
variable (s : Stream)

def arrive (l : List StClaim) : Stream := l.foldl (fun s c => s.join c.1 c.2) s

/-- the grant reads the host claims of the relay -/
def heeds (r : Room) : Stream := { s with host_claim := r.relay.hostScore }

/-- the losers get `STF_BUSY` and are closed one after the other, and then the winner is granted:
`s` before, `t` when the coroutine is through or suspended in a send, from which it goes on alike -/
inductive Dealt (win : StClaim) : List StClaim → Stream → Stream → Prop
  | granted (s : Stream) : Dealt win [] s (s._grant_claim win.1 win.2)
  | refused {c : StClaim} {rest : List StClaim} {s t : Stream} {k : Tcp} {x : Sent}
      (hsend : (s.conns (.joinee c.1)).send (s.stfail .BUSY) = (k, x)) (hx : x ≠ .waits)
      (h : Dealt win rest ((s.setConn (.joinee c.1) k).close (.joinee c.1)) t) :
      Dealt win (c :: rest) s t
  | waits {c : StClaim} {rest : List StClaim} {s : Stream} {k : Tcp}
      (hsend : (s.conns (.joinee c.1)).send (s.stfail .BUSY) = (k, .waits))
      (h : ∀ (u : Stream) (i : Nat) (t : Stream), u.coros[i]? = some (.busy c rest win) →
        u.step (.wake i) = some t → Dealt win rest ((u.without i).close (.joinee c.1)) t) :
      Dealt win (c :: rest) s ((s.setConn (.joinee c.1) k).spawn (.busy c rest win))

/-- `_implicit_grant` grants `win`, and refuses every other claim of `l` -/
def Grants (l : List StClaim) (win : StClaim) : Prop :=
  ∃ losers, (win :: losers).Perm l ∧
    Dealt win losers { s with claims := [], grant_task := false } s._implicit_grant

/-- an unaddressed stream in its grace window, with the claims that have come -/
structure Parked (l : List StClaim) (s : Stream) : Prop where
  listed : s.listed = true
  opened : s.state = .opened
  implicit : s.implicit = true
  dest : s.dest_node = 0
  joiner : s.joiner = none
  claims : s.claims = l

variable {s} {l : List StClaim}

/-! ## arrivals -/

theorem parked_opened (sid opener_node : Nat) : Parked [] (opened sid opener_node 0) :=
  ⟨rfl, rfl, rfl, rfl, rfl, rfl⟩

theorem Parked.join (h : Parked l s) (c : StClaim) : Parked (l ++ [c]) (s.join c.1 c.2) := by
  obtain ⟨hl, ho, hi, hd, hj, hc⟩ := h
  have hne : ¬ ({ s with joined := c.1 :: s.joined } : Stream).state ≠ .opened := not_not.mpr ho
  unfold Stream.join
  dsimp only
  rw [if_neg hne, if_pos hi]
  split
  · exact ⟨hl, ho, hi, hd, hj, congrArg (· ++ [c]) hc⟩
  · exact ⟨hl, ho, hi, hd, hj, congrArg (· ++ [c]) hc⟩

/-- the claims are parked in the order in which they come -/
theorem Parked.arrive {m : List StClaim} (h : Parked l s) : Parked (l ++ m) (s.arrive m) := by
  induction m generalizing l s with
  | nil => exact (List.append_nil l).symm ▸ h
  | cons c m ih =>
    have hm := ih (h.join c)
    rw [List.append_assoc] at hm
    exact hm

/-! ## dealing -/

/-- the loop over the losers deals as it should, and goes on so whenever it was suspended -/
theorem dealt_busyRound (win : StClaim) (losers : List StClaim) (s : Stream) :
    Dealt win losers s (s.busyRound win losers) := by
  induction losers generalizing s with
  | nil => exact .granted s
  | cons c rest ih =>
    have hround : s.busyRound win (c :: rest) =
        s.send (.joinee c.1) (s.stfail .BUSY) (fun s => s.spawn (.busy c rest win))
          fun _ s => (s.close (.joinee c.1)).busyRound win rest := rfl
    rw [hround]
    refine send_cases (fun k hk => ?_) fun k x hk hx => ?_
    · refine .waits hk fun u i t hu ht => ?_
      have hstep : (u.without i).resume (.busy c rest win) = some t := by
        rw [← ht]
        show _ = u.coros[i]?.bind (u.without i).resume
        rw [hu]
        rfl
      obtain ⟨x, -, rfl⟩ := Option.map_eq_some_iff.mp hstep
      exact ih _
    · exact .refused hk hx (ih _)

/-! ## whose grant it was -/

@[simp] theorem closeEnds_joiner_eq : s.closeEnds.joiner = s.joiner := by
  rw [closeEnds_eq]

@[simp] theorem closeEnds_dest_node : s.closeEnds.dest_node = s.dest_node := by
  rw [closeEnds_eq]

/-- the fields that a grant sets are kept by what comes after it -/
def SameGrant (s t : Stream) : Prop := t.joiner = s.joiner ∧ t.dest_node = s.dest_node

theorem SameGrant.send {w : Who} {o : Piece} {waits : Stream → Stream} {fin : Sent → Stream → Stream}
    (hw : ∀ u : Stream, SameGrant u (waits u)) (hf : ∀ x (u : Stream), SameGrant u (fin x u)) :
    SameGrant s (s.send w o waits fin) :=
  send_cases (Q := SameGrant s) (fun k _ => hw (s.setConn w k)) fun k x _ _ => hf x (s.setConn w k)

theorem sameGrant_pop (s : Stream) : SameGrant s s.pop := by
  unfold pop
  split
  · exact ⟨closeEnds_joiner_eq, closeEnds_dest_node⟩
  · exact ⟨rfl, rfl⟩

theorem sameGrant_fail (s : Stream) (task : Bool) (r : Reason) : SameGrant s (s.fail task r) := by
  unfold fail
  split
  · exact SameGrant.send (fun u => ⟨rfl, rfl⟩) fun x u => sameGrant_pop u
  · exact sameGrant_pop s

theorem sameGrant_confirm (s : Stream) (c : Nat) : SameGrant s (s.confirm c) := by
  have hsend : SameGrant { s with state := .ready } (s.confirm c) := by
    refine SameGrant.send (fun u => ⟨rfl, rfl⟩) fun x u => ?_
    split
    · exact ⟨rfl, rfl⟩
    · exact sameGrant_fail u false .NO_ROUTE
  exact hsend

theorem claim_grant (s : Stream) (c node : Nat) : (s.claim c node).joiner = some c ∧
    (s.claim c node).dest_node = if s.dest_node = 0 then node else s.dest_node := by
  have hstok : ∀ u : Stream, SameGrant u (u.send (.joinee c) u.stok
      (fun s => s.spawn (.stokJoiner c)) fun r s =>
        if r = .ok then s.confirm c else s.fail false .NO_ROUTE) := fun u => by
    refine SameGrant.send (fun u => ⟨rfl, rfl⟩) fun x u => ?_
    split
    · exact sameGrant_confirm u c
    · exact sameGrant_fail u false .NO_ROUTE
  unfold claim
  dsimp only
  split
  · exact hstok _
  · exact hstok _

/-- the end of a deal shows who won: the winner's node is the destination now, or the coroutine
that is suspended has the winner -/
theorem Dealt.winner {win : StClaim} {losers : List StClaim} {t : Stream}
    (h : Dealt win losers s t) (hd : s.dest_node = 0) (hj : s.joiner = none) :
    (t.joiner ≠ none ∧ t.dest_node = win.2) ∨
      (t.joiner = none ∧ ∃ c rest, t.coros = s.coros ++ [Coro.busy c rest win]) := by
  induction h with
  | granted s =>
    have hclaim : s._grant_claim win.1 win.2 = s.claim win.1 win.2 := by
      unfold _grant_claim
      exact if_neg fun hx => hx.1 hd
    obtain ⟨h1, h2⟩ := claim_grant s win.1 win.2
    rw [hclaim, h1, h2, if_pos hd]
    exact Or.inl ⟨nofun, rfl⟩
  | refused _ _ _ ih => exact ih hd hj
  | @waits c rest s k _ _ _ => exact Or.inr ⟨hj, c, rest, rfl⟩

/-- one deal has one winner, but for the name of the node -/
theorem Dealt.unique {win z : StClaim} {losers m : List StClaim} {t : Stream}
    (h : Dealt win losers s t) (h' : Dealt z m s t) (hd : s.dest_node = 0) (hj : s.joiner = none) :
    win.2 = z.2 := by
  rcases h.winner hd hj with ⟨h1, h2⟩ | ⟨h1, c, rest, h2⟩
  · rcases h'.winner hd hj with ⟨-, h3⟩ | ⟨h3, -⟩
    · exact h2.symm.trans h3
    · exact absurd h3 h1
  · rcases h'.winner hd hj with ⟨h3, -⟩ | ⟨-, d, rest', h3⟩
    · exact absurd h1 h3
    · have hlast := List.append_cancel_left (h2.symm.trans h3)
      injection hlast with hb
      injection hb with _ _ hw
      exact congrArg Prod.snd hw

/-! ## the pick -/

theorem ranked_perm (s : Stream) (l : List StClaim) : (s.ranked l).Perm l :=
  List.perm_insertionSort _ l

/-- nobody in the list has a later host claim than the one that comes first -/
theorem ranked_head {win : StClaim} {losers : List StClaim} (h : s.ranked l = win :: losers) :
    win ∈ l ∧ ∀ c ∈ l, s.host_claim c.2 ≤ s.host_claim win.2 := by
  have hperm := s.ranked_perm l
  rw [h] at hperm
  refine ⟨hperm.subset List.mem_cons_self, fun c hc => ?_⟩
  have : Std.Total fun a b : StClaim => s.host_claim b.2 ≤ s.host_claim a.2 :=
    ⟨fun a b => le_total _ _⟩
  have : IsTrans StClaim fun a b => s.host_claim b.2 ≤ s.host_claim a.2 :=
    ⟨fun a b c hab hbc => hbc.trans hab⟩
  have hsorted := List.pairwise_insertionSort (fun a b : StClaim => s.host_claim b.2 ≤ s.host_claim a.2) l
  rw [show List.insertionSort _ l = win :: losers from h] at hsorted
  rcases List.mem_cons.mp (hperm.symm.subset hc) with rfl | hc
  · exact le_rfl
  · exact List.rel_of_pairwise_cons hsorted hc

/-- among the latest, the first to come stays first -/
theorem ranked_cons {z : StClaim} (h : ∀ c ∈ l, s.host_claim c.2 ≤ s.host_claim z.2) :
    s.ranked (z :: l) = z :: s.ranked l :=
  List.insertionSort_cons_of_forall_rel _ h

/-- what the grant does with the claims as they were parked -/
theorem Parked.grant (h : Parked l s) {win : StClaim} {losers : List StClaim}
    (hr : s.ranked l = win :: losers) :
    Dealt win losers { s with claims := [], grant_task := false } s._implicit_grant := by
  have heq : s._implicit_grant =
      ({ s with claims := [], grant_task := false } : Stream).busyRound win losers := by
    unfold _implicit_grant
    rw [h.listed, h.opened, h.claims, hr]
    rfl
  rw [heq]
  exact dealt_busyRound win losers _

theorem Parked.heeds (h : Parked l s) (r : Room) : Parked l (s.heeds r) :=
  ⟨h.listed, h.opened, h.implicit, h.dest, h.joiner, h.claims⟩

/-! ## every order of arrival -/

variable {r : Room}

theorem top_of_freshest {win : StClaim} (h : r.Freshest l win) : r.Top l win := by
  refine ⟨h.1, fun c hc => ?_⟩
  rcases Prod.Lex.toLex_le_toLex.mp (h.2 c hc) with hlt | ⟨heq, -⟩
  · exact hlt.le
  · exact heq.le

theorem exists_freshest {c : StClaim} (hc : c ∈ l) : ∃ win, r.Freshest l win := by
  obtain ⟨win, hw, hmax⟩ := l.toFinset.exists_max_image (fun c => toLex (r.pref c.2))
    ⟨c, List.mem_toFinset.mpr hc⟩
  exact ⟨win, List.mem_toFinset.mp hw, fun d hd => hmax d (List.mem_toFinset.mpr hd)⟩

/-- if one claim alone has the latest host claim, it gets the grant -/
theorem grants_of_top (hs : Parked [] s) {m : List StClaim} (hm : m.Perm l) {win : StClaim}
    (hw : r.Freshest l win) (htop : ∀ c d, r.Top l c → r.Top l d → c = d) :
    ((s.arrive m).heeds r).Grants l win := by
  have hp : Parked m ((s.arrive m).heeds r) := (hs.arrive (m := m)).heeds r
  have hperm := (ranked_perm ((s.arrive m).heeds r) m).trans hm
  cases hr : ((s.arrive m).heeds r).ranked m with
  | nil =>
    rw [hr] at hperm
    exact absurd (hperm.symm.subset hw.1) List.not_mem_nil
  | cons z losers =>
    obtain ⟨hz, hmax⟩ := ranked_head hr
    have hztop : r.Top l z := ⟨hm.subset hz, fun c hc => hmax c (hm.symm.subset hc)⟩
    rw [hr, htop z win hztop (top_of_freshest hw)] at hperm
    rw [htop z win hztop (top_of_freshest hw)] at hr
    exact ⟨losers, hperm, hp.grant hr⟩

/-- of those with the latest host claim, the one that comes first gets the grant -/
theorem grants_first (hs : Parked [] s) {z : StClaim} (hz : r.Top l z) {win : StClaim}
    (h : ((s.arrive (z :: l.erase z)).heeds r).Grants l win) : win.2 = z.2 := by
  have hp : Parked (z :: l.erase z) ((s.arrive (z :: l.erase z)).heeds r) :=
    (hs.arrive (m := z :: l.erase z)).heeds r
  have hr := ranked_cons (s := (s.arrive (z :: l.erase z)).heeds r) (l := l.erase z) (z := z)
    fun c hc => hz.2 c (List.mem_of_mem_erase hc)
  obtain ⟨losers, -, hwin⟩ := h
  exact hwin.unique (hp.grant hr) hp.dest hp.joiner

/-- **The freshest claim gets the stream, whatever the order of arrival**, exactly when no two
claimants share the latest host claim: among such the order of arrival decides, not the beacons. -/
theorem freshest_iff (hs : Parked [] s) (hd : l.Pairwise fun c d => r.pref c.2 ≠ r.pref d.2) :
    (∀ m, m.Perm l → ∀ win, r.Freshest l win → ((s.arrive m).heeds r).Grants l win) ↔
      ∀ c d, r.Top l c → r.Top l d → c = d := by
  constructor
  · intro h c d hc hd'
    obtain ⟨win, hw⟩ := exists_freshest (r := r) hc.1
    have hown : ∀ z, r.Top l z → z = win := fun z hz => by
      by_contra hne
      have hnode := grants_first hs hz
        (h (z :: l.erase z) (List.perm_cons_erase hz.1).symm win hw)
      have : Std.Symm fun c d : StClaim => r.pref c.2 ≠ r.pref d.2 := ⟨fun _ _ => Ne.symm⟩
      have hpref := hd.forall hz.1 hw.1 hne
      exact hpref (by rw [hnode])
    rw [hown c hc, hown d hd']
  · exact fun h m hm win hw => grants_of_top hs hm hw h

/-- two hosts; the one that has claimed later wins, although the other has sent a beacon since -/
def twoHosts : List RoomAct :=
  [.relay (.tick 5), .relay (.accept 1 "10.0.0.9"),
    .relay (.node 1 [3, 0, 0, 0, 0, 0, 6, 0x13, 0x88, 1]), .relay (.tick 5),
    .relay (.accept 2 "10.0.0.8"), .relay (.node 2 [3, 0, 0, 0, 0, 0, 8, 0x13, 0x88, 1]),
    .relay (.tick 5), .bcast 1 [0x11, 0x5C, 0, 9, 65]]

theorem freshest_twoHosts : ∃ r, run Room.next (.init [] [] [] 0 0) twoHosts = some r ∧
    r.pref 6 = (5, 15) ∧ r.pref 8 = (10, 0) ∧
    ∀ m, m.Perm [(0, 6), (1, 8)] → ∀ win, r.Freshest [(0, 6), (1, 8)] win →
      (((opened 9 7 0).arrive m).heeds r).Grants [(0, 6), (1, 8)] win := by
  have hrun : (run Room.next (.init [] [] [] 0 0) twoHosts).isSome = true := by decide
  obtain ⟨r, hr⟩ := Option.isSome_iff_exists.mp hrun
  have hend : ∀ r ∈ run Room.next (.init [] [] [] 0 0) twoHosts,
      r.pref 6 = (5, 15) ∧ r.pref 8 = (10, 0) := by
    decide
  obtain ⟨h6, h8⟩ := hend r hr
  have hscore : r.relay.hostScore 6 = 5 ∧ r.relay.hostScore 8 = 10 :=
    ⟨congrArg Prod.fst h6, congrArg Prod.fst h8⟩
  have hd : [((0, 6) : StClaim), (1, 8)].Pairwise fun c d => r.pref c.2 ≠ r.pref d.2 := by
    simp [h6, h8]
  refine ⟨r, hr, h6, h8, (freshest_iff (parked_opened 9 7) hd).mpr fun c d hc hd => ?_⟩
  have hown : ∀ z, r.Top [((0, 6) : StClaim), (1, 8)] z → z = (1, 8) := fun z hz => by
    rcases List.mem_cons.mp hz.1 with rfl | h
    · have := hz.2 (1, 8) (by simp)
      simp [hscore] at this
    · exact List.mem_singleton.mp h
  rw [hown c hc, hown d hd]

/-- two hosts without a host claim, of which the second has sent a beacon -/
def twoBeacons : List RoomAct :=
  [.relay (.accept 1 "10.0.0.9"), .relay (.node 1 [3, 0, 0, 0, 0, 0, 8, 0x13, 0x88, 0]),
    .relay (.accept 2 "10.0.0.8"), .relay (.node 2 [3, 0, 0, 0, 0, 0, 6, 0x13, 0x88, 0]),
    .relay (.tick 5), .bcast 2 [0x11, 0x5C, 0, 9, 65]]

/-- the fresher host comes second, and is refused -/
theorem twoBeacons_stale : ∃ r, run Room.next (.init [] [] [] 0 0) twoBeacons = some r ∧
    r.pref 8 = (0, 0) ∧ r.pref 6 = (0, 5) ∧ r.Freshest [(0, 8), (1, 6)] (1, 6) ∧
    ¬ (((opened 9 7 0).arrive [(0, 8), (1, 6)]).heeds r).Grants [(0, 8), (1, 6)] (1, 6) := by
  have hrun : (run Room.next (.init [] [] [] 0 0) twoBeacons).isSome = true := by decide
  obtain ⟨r, hr⟩ := Option.isSome_iff_exists.mp hrun
  have hend : ∀ r ∈ run Room.next (.init [] [] [] 0 0) twoBeacons,
      r.pref 8 = (0, 0) ∧ r.pref 6 = (0, 5) := by
    decide
  obtain ⟨h8, h6⟩ := hend r hr
  have hscore : r.relay.hostScore 8 = 0 ∧ r.relay.hostScore 6 = 0 :=
    ⟨congrArg Prod.fst h8, congrArg Prod.fst h6⟩
  refine ⟨r, hr, h8, h6, ⟨by simp, fun c hc => ?_⟩, fun h => ?_⟩
  · rcases List.mem_cons.mp hc with rfl | hc
    · rw [h8, h6]
      decide
    · rw [List.mem_singleton.mp hc]
  · have htop : r.Top [((0, 8) : StClaim), (1, 6)] (0, 8) := ⟨by simp, by simp [hscore]⟩
    exact absurd (grants_first (parked_opened 9 7) htop h) (by decide)

end Stream

end ShadowLan
