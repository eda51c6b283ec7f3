import ShadowLan.Client.Bridge

/-!
# The joinee's end of a stream

`stream_join` claims a stream at the relay and bridges it to the local game.

* `Bridge.Hosted`      what every step keeps, by where the handler stands;
* `Bridge.JoinLaw`     what the relay and the game are told;
* `Bridge.Tidy`        the condition on a step for the game's connection;
* `join_run`           the law, over any run;
* `join_closed_iff`    every connection is closed in the end, exactly when all steps are `Tidy`.
-/

namespace ShadowLan
namespace Bridge
open Tcp

variable {b b' : Bridge} {lead : List Piece}

/-! ## what `stream_join` keeps -/

/-- the game has not been reached, and was dialed `n` times at this port -/
structure Unbridged (lport n : Nat) (b : Bridge) : Prop where
  bridged : b.bridged = false
  game : b.game = .fresh
  dials : b.dials = List.replicate n lport

/-- `T_STOK` was read, and the game is being dialed or could not be reached -/
structure Called (node sid n : Nat) (b : Bridge) : Prop where
  heard : b.Heard []
  said : match b.pc with
    | .bridge left => Tcp.Uttered [stjoin node sid] b.relay ∧ n + left = 3
    | .pause left => Tcp.Uttered [stjoin node sid] b.relay ∧ n + left = 4
    | .refuse | .ended => Tcp.Uttered [stjoin node sid, hostFailed sid] b.relay ∧ n = 4
    | _ => False

/-- the game is there, and its bytes go behind `T_STJOINED` -/
structure Bridged (node sid lport : Nat) (b : Bridge) : Prop where
  piped : Piped [stjoin node sid, stjoined sid] b
  bridged : b.bridged = true
  dials : ∃ n ≤ 4, b.dials = List.replicate n lport
  pc : match b.pc with
    | .confirm | .pipe .. | .reap | .ended => True
    | _ => False

/-- what every step of `stream_join` keeps -/
inductive Hosted (node sid lport : Nat) (b : Bridge) : Prop
  | idle (h : Idle b) (hg : Unbridged lport 0 b)
  | asking (h : Asking [stjoin node sid] b) (hg : Unbridged lport 0 b)
  | called (n : Nat) (h : Called node sid n b) (hg : Unbridged lport n b)
  | bridged (h : Bridged node sid lport b)

section
variable {node sid lport n : Nat}

theorem Unbridged.same (h : Unbridged lport n b) (hb : b'.bridged = b.bridged) (hg : b'.game = b.game)
    (hd : b'.dials = b.dials) : Unbridged lport n b' :=
  ⟨hb.trans h.bridged, hg.trans h.game, hd.trans h.dials⟩

theorem Called.fed (h : Called node sid n b) (hf : Fed b b') (hpc : b'.pc = b.pc) :
    Called node sid n b' := by
  obtain ⟨d, hr⟩ := hf.relay
  refine ⟨h.heard.fed hf, ?_⟩
  have hs := h.said
  rw [hpc]
  cases hp : b.pc with
  | bridge | pause | refuse | ended =>
    rw [hp] at hs
    exact hs.imp_left fun hu => hu.grows hr.toGrows
  | _ =>
    rw [hp] at hs
    exact hs

theorem Hosted.net (h : Hosted node sid lport b) {x : End} {e : Tcp.Ev} (hn : b.net x e = some b') :
    Hosted node sid lport b' := by
  obtain ⟨hf, he, hd, hg⟩ := net_cases hn
  have hsame : ∀ {n}, Unbridged lport n b → Unbridged lport n b' := fun hu =>
    hu.same (by rw [he]) (hg hu.bridged) (by rw [he])
  have hpc : b'.pc = b.pc := by rw [he]
  cases h with
  | idle h hu =>
    exact .idle ⟨(hd h.dialed).trans h.relay, by rw [he]; exact h.dialed, by rw [hpc]; exact h.pc⟩
      (hsame hu)
  | asking h hu => exact .asking (h.fed hf (Or.inl hpc)) (hsame hu)
  | called n h hu => exact .called n (h.fed hf hpc) (hsame hu)
  | bridged h =>
    exact .bridged ⟨h.piped.fed hf, by rw [he]; exact h.bridged, by rw [he]; exact h.dials,
      by rw [hpc]; exact h.pc⟩

/-- the relay does not let the handler go on, or the handler gives up -/
theorem Asking.over (h : Asking [stjoin node sid] b) (hu : Unbridged lport 0 b) :
    Hosted node sid lport b.joinOver :=
  .asking (h.fed (fed_joinOver b) (Or.inr rfl)) (hu.same rfl rfl rfl)

theorem Asking.hosted (h : Asking [stjoin node sid] b) (hu : Unbridged lport 0 b)
    (hh : b.hear claimed joinOver = some b') : Hosted node sid lport b' := by
  rcases hear_cases hh with ⟨hpc, d, k, ht, hd, rfl⟩ | ⟨d, k, hpc, ht, rfl⟩ | rfl
  · exact .asking (h.header hpc ht hd) (hu.same rfl rfl rfl)
  · have hsaid : Tcp.Uttered [stjoin node sid] k := h.said.grows ht.grows
    have hstop : Hosted node sid lport (joinOver { b with relay := k }) :=
      .asking ⟨hsaid.grows (Tcp.grows_close k), trivial⟩ (hu.same rfl rfl rfl)
    cases d with
    | nil => exact hstop
    | cons t p =>
      by_cases he : t = T_STOK
      · have hc : claimed { b with relay := k } (t :: p) = { b with relay := k, pc := .bridge 3 } :=
          if_pos he
        rw [hc]
        exact .called 0 ⟨h.body hpc ht (by rw [he]) _, hsaid, rfl⟩ (hu.same rfl rfl rfl)
      · have hc : claimed { b with relay := k } (t :: p) = joinOver { b with relay := k } := if_neg he
        rw [hc]
        exact hstop
  · exact h.over hu

/-- the pumps run, or are over -/
theorem Bridged.over (h : Bridged node sid lport b) : Bridged node sid lport b.joinOver :=
  ⟨h.piped.fed (fed_joinOver b), h.bridged, h.dials, trivial⟩

/-- `T_STJOIN` is sent -/
theorem Unbridged.connected (hu : Unbridged lport 0 b) : Hosted node sid lport
    ({ b with relay := .fresh, dialed := true }.tell (stjoin node sid) .announce listen joinOver) := by
  refine tell_cases ?_ ?_ ?_
  · intro k r hk
    obtain ⟨h1, h2⟩ := uttered_fresh hk
    exact .asking ⟨h1, h2⟩ (hu.same rfl rfl rfl)
  · intro k r hk
    obtain ⟨h1, h2⟩ := uttered_fresh hk
    exact .asking ⟨h1, h2⟩ (hu.same rfl rfl rfl)
  · intro k r hk
    exact .asking ⟨(uttered_fresh hk).1.grows (Tcp.grows_close k), trivial⟩ (hu.same rfl rfl rfl)

/-- the game took the connection, and `T_STJOINED` is sent -/
theorem Called.connected (h : Called node sid n b) (hu : Unbridged lport n b) {left : Nat}
    (hpc : b.pc = .bridge left) : Hosted node sid lport
    ({ b with game := .fresh, bridged := true, dials := b.dials ++ [lport] }.tell (stjoined sid)
      .confirm pipe_stream joinOver) := by
  have hs := h.said
  rw [hpc] at hs
  have hdials : b.dials ++ [lport] = List.replicate (n + 1) lport := by
    rw [hu.dials, List.replicate_succ']
  have hpiped : ∀ k r, b.relay.send (stjoined sid) = (k, r) → ∀ pc,
      Piped [stjoin node sid, stjoined sid] { b with
        relay := k, game := .fresh, bridged := true, dials := b.dials ++ [lport], pc := pc } := by
    intro k r hk pc
    have hr := Tcp.send_reads b.relay (stjoined sid)
    rw [hk] at hr
    obtain ⟨d, p, h1, h2, h3⟩ := h.heard
    refine ⟨⟨[], ⟨d, p, h1, h2, ?_⟩, ?_⟩, ⟨[], rfl, (hs.1.send hk).taken⟩⟩
    · show k.sent = d ++ T_STOK :: p ++ ([] ++ k.inb)
      rw [hr.1, hr.2, h3]
    · have hf : Tcp.Uttered [] Tcp.fresh := Or.inl rfl
      exact hf.taken
  have hn : n + 1 ≤ 4 := by omega
  refine tell_cases ?_ ?_ ?_
  · intro k r hk
    exact .bridged ⟨hpiped k r hk _, rfl, ⟨_, hn, hdials⟩, trivial⟩
  · intro k r hk
    exact .bridged ⟨hpiped k r hk _, rfl, ⟨_, hn, hdials⟩, trivial⟩
  · intro k r hk
    have hb : Bridged node sid lport { b with
        relay := k, game := .fresh, bridged := true, dials := b.dials ++ [lport], pc := .ended } :=
      ⟨hpiped k r hk _, rfl, ⟨_, hn, hdials⟩, trivial⟩
    exact .bridged hb.over

/-- the game refused the connection -/
theorem Called.refused (h : Called node sid n b) (hu : Unbridged lport n b) {left : Nat}
    (hpc : b.pc = .bridge left) :
    Hosted node sid lport { b with dials := b.dials ++ [lport], pc := .pause left } := by
  have hs := h.said
  rw [hpc] at hs
  refine .called (n + 1) ⟨h.heard, hs.1, ?_⟩ ⟨hu.bridged, hu.game, ?_⟩
  · show n + 1 + left = 4
    omega
  · show b.dials ++ [lport] = _
    rw [hu.dials, List.replicate_succ']

/-- the game refused four times, and `T_STFAIL` is sent -/
theorem Called.failed (h : Called node sid n b) (hu : Unbridged lport n b) (hpc : b.pc = .pause 0) :
    Hosted node sid lport (b.tell (hostFailed sid) .refuse joinOver joinOver) := by
  have hs := h.said
  rw [hpc] at hs
  have hheard : ∀ k r, b.relay.send (hostFailed sid) = (k, r) → ∀ pc,
      Heard { b with relay := k, pc := pc } [] := by
    intro k r hk pc
    have hr := Tcp.send_reads b.relay (hostFailed sid)
    rw [hk] at hr
    obtain ⟨d, p, h1, h2, h3⟩ := h.heard
    refine ⟨d, p, h1, h2, ?_⟩
    show k.sent = d ++ T_STOK :: p ++ ([] ++ k.inb)
    rw [hr.1, hr.2, h3]
  have hover : ∀ k r, b.relay.send (hostFailed sid) = (k, r) →
      Hosted node sid lport (joinOver { b with relay := k }) := by
    intro k r hk
    have hc := (hheard k r hk .ended).fed (fed_joinOver _)
    exact .called n ⟨hc, (hs.1.send hk).grows (Tcp.grows_close k), hs.2⟩ (hu.same rfl rfl rfl)
  refine tell_cases ?_ hover hover
  intro k r hk
  exact .called n ⟨hheard k r hk _, hs.1.send hk, hs.2⟩ (hu.same rfl rfl rfl)

theorem Hosted.connected (h : Hosted node sid lport b)
    (hs : b.joinAt node sid lport .connected = some b') : Hosted node sid lport b' := by
  cases h with
  | idle h hu =>
    rcases h.pc with hpc | hpc
    · simp only [joinAt, hpc] at hs
      rw [← Option.some.inj hs]
      have hc : Hosted node sid lport ({ b with relay := .fresh, dialed := true }.tell
          (stjoin node sid) .announce listen joinOver) := hu.connected
      rw [hpc] at hc
      exact hc
    · simp [joinAt, hpc] at hs
  | asking h hu =>
    have hr := h.read
    cases hpc : b.pc <;> simp [joinAt, hpc] at hs hr
  | called n h hu =>
    have hr := h.said
    cases hpc : b.pc with
    | bridge left =>
      have hc := h.connected hu hpc
      simp only [joinAt, hpc] at hs
      rw [hpc, Option.some.inj hs] at hc
      exact hc
    | _ => simp [joinAt, hpc] at hs hr
  | bridged h =>
    have hr := h.pc
    cases hpc : b.pc <;> simp [joinAt, hpc] at hs hr

theorem Hosted.refused (h : Hosted node sid lport b)
    (hs : b.joinAt node sid lport .refused = some b') : Hosted node sid lport b' := by
  cases h with
  | idle h hu =>
    rcases h.pc with hpc | hpc
    · simp only [joinAt, hpc] at hs
      rw [← Option.some.inj hs]
      exact .idle ⟨h.relay, h.dialed, Or.inr rfl⟩ (hu.same rfl rfl rfl)
    · simp [joinAt, hpc] at hs
  | asking h hu =>
    have hr := h.read
    cases hpc : b.pc <;> simp [joinAt, hpc] at hs hr
  | called n h hu =>
    have hr := h.said
    cases hpc : b.pc with
    | bridge left =>
      simp only [joinAt, hpc] at hs
      rw [← Option.some.inj hs]
      exact h.refused hu hpc
    | _ => simp [joinAt, hpc] at hs hr
  | bridged h =>
    have hr := h.pc
    cases hpc : b.pc <;> simp [joinAt, hpc] at hs hr

theorem Hosted.expire (h : Hosted node sid lport b)
    (hs : b.joinAt node sid lport .expire = some b') : Hosted node sid lport b' := by
  cases h with
  | idle h hu => rcases h.pc with hpc | hpc <;> simp [joinAt, hpc] at hs
  | asking h hu =>
    have hover := h.over hu
    have hr := h.read
    cases hpc : b.pc with
    | header | verdict =>
      simp only [joinAt, hpc] at hs
      rw [← Option.some.inj hs]
      exact hover
    | _ => simp [joinAt, hpc] at hs hr
  | called n h hu =>
    have hr := h.said
    cases hpc : b.pc <;> simp [joinAt, hpc] at hs hr
  | bridged h =>
    have hr := h.pc
    cases hpc : b.pc <;> simp [joinAt, hpc] at hs hr

theorem Hosted.pump (h : Hosted node sid lport b) {back : Bool}
    (hs : b.joinAt node sid lport (.pump back) = some b') : Hosted node sid lport b' := by
  have hp : b.pumpStep back = some b' := hs
  have hpipe : ∃ t k, b.pc = .pipe t k := by
    unfold Bridge.pumpStep at hp
    cases hpc : b.pc with
    | pipe t k => exact ⟨t, k, rfl⟩
    | _ => simp [hpc] at hp
  obtain ⟨t, k, hpc⟩ := hpipe
  cases h with
  | idle h hu => rcases h.pc with hc | hc <;> simp [hpc] at hc
  | asking h hu =>
    have hr := h.read
    simp [hpc] at hr
  | called n h hu =>
    have hr := h.said
    simp [hpc] at hr
  | bridged h =>
    obtain ⟨h1, h2, t', k', h3⟩ := h.piped.pumpStep hp
    refine .bridged ⟨h1, by rw [h2]; exact h.bridged, by rw [h2]; exact h.dials, ?_⟩
    rw [h3]
    trivial

theorem Hosted.wake (h : Hosted node sid lport b)
    (hs : b.joinAt node sid lport .wake = some b') : Hosted node sid lport b' := by
  cases h with
  | idle h hu => rcases h.pc with hpc | hpc <;> simp [joinAt, hpc] at hs
  | asking h hu =>
    have hover := h.over hu
    have hr := h.read
    cases hpc : b.pc with
    | announce =>
      simp only [joinAt, hpc] at hs hr
      rcases told_cases hs with rfl | rfl
      · exact .asking ⟨h.said, hr⟩ (hu.same rfl rfl rfl)
      · exact hover
    | header | verdict =>
      simp only [joinAt, hpc] at hs
      exact h.hosted hu hs
    | _ => simp [joinAt, hpc] at hs hr
  | called n h hu =>
    have hr := h.said
    cases hpc : b.pc with
    | pause left =>
      simp only [hpc] at hr
      cases left with
      | zero =>
        simp only [joinAt, hpc] at hs
        rw [← Option.some.inj hs]
        exact h.failed hu hpc
      | succ left =>
        simp only [joinAt, hpc] at hs
        rw [← Option.some.inj hs]
        exact .called n ⟨h.heard, hr.1, by omega⟩ (hu.same rfl rfl rfl)
    | refuse =>
      simp only [joinAt, hpc] at hs hr
      have hover : Hosted node sid lport b.joinOver := by
        refine .called n ⟨h.heard.fed (fed_joinOver b), ?_⟩ (hu.same rfl rfl rfl)
        exact hr.imp_left fun hu => hu.grows (Tcp.grows_close b.relay)
      rcases told_cases hs with rfl | rfl <;> exact hover
    | _ => simp [joinAt, hpc] at hs hr
  | bridged h =>
    have hr := h.pc
    cases hpc : b.pc with
    | confirm =>
      simp only [joinAt, hpc] at hs
      rcases told_cases hs with rfl | rfl
      · exact .bridged ⟨⟨h.piped.there, h.piped.back⟩, h.bridged, h.dials, trivial⟩
      · exact .bridged h.over
    | pipe t k =>
      simp only [joinAt, hpc, pumped] at hs
      obtain ⟨-, hs⟩ := Option.ite_none_right_eq_some.mp hs
      rw [← Option.some.inj hs]
      exact .bridged ⟨⟨h.piped.there, h.piped.back⟩, h.bridged, h.dials, trivial⟩
    | reap =>
      simp only [joinAt, hpc] at hs
      rw [← Option.some.inj hs]
      have hclosed : Bridged node sid lport b.pipeClosed :=
        ⟨h.piped.fed (fed_pipeClosed b), h.bridged, h.dials, trivial⟩
      exact .bridged hclosed.over
    | _ => simp [joinAt, hpc] at hs hr

theorem hosted_step {a : Act} (h : Hosted node sid lport b)
    (hs : b.joinAt node sid lport a = some b') : Hosted node sid lport b' := by
  cases a with
  | net x e => exact h.net hs
  | connected => exact h.connected hs
  | refused => exact h.refused hs
  | wake => exact h.wake hs
  | expire => exact h.expire hs
  | pump back => exact h.pump hs

theorem hosted_joining : Hosted node sid lport joining :=
  .idle ⟨rfl, rfl, Or.inl rfl⟩ ⟨rfl, rfl, rfl⟩

/-- what the relay and the game are told by `stream_join` -/
structure JoinLaw (node sid lport : Nat) (b : Bridge) : Prop where
  /-- frames in their order, and the game's bytes behind `T_STJOINED` alone -/
  said : b.relay.out <+: [stjoin node sid, hostFailed sid] ∨
    ∃ ds, (∀ o ∈ ds, o.isRaw) ∧ b.relay.out <+: stjoin node sid :: stjoined sid :: ds ∧
      rawOf ds <+: b.game.sent
  /-- the game is dialed at its port, four times at most, and only when the claim stands -/
  dialed : ∃ n ≤ 4, b.dials = List.replicate n lport ∧ (0 < n → ∃ x, b.Heard x)
  /-- `T_STFAIL` is for a game that refused four times -/
  failed : hostFailed sid ∈ b.relay.out → b.bridged = false ∧ b.dials = List.replicate 4 lport
  /-- the game gets what follows `T_STOK` -/
  given : (∀ o ∈ b.game.out, o.isRaw) ∧
    (rawOf b.game.out ≠ [] → ∃ x, b.Heard x ∧ rawOf b.game.out <+: x)

theorem hostFailed_notMem {ds : List Piece} (hd : ∀ o ∈ ds, o.isRaw) :
    hostFailed sid ∉ stjoin node sid :: stjoined sid :: ds := by
  intro h
  rcases List.mem_cons.mp h with h | h
  · exact absurd (Piece.frame.inj h).1 (by decide)
  rcases List.mem_cons.mp h with h | h
  · exact absurd (Piece.frame.inj h).1 (by decide)
  · exact hd _ h

theorem Unbridged.given (h : Unbridged lport n b) : (∀ o ∈ b.game.out, o.isRaw) ∧
    (rawOf b.game.out ≠ [] → ∃ x, b.Heard x ∧ rawOf b.game.out <+: x) := by
  rw [h.game]
  exact ⟨fun _ h => absurd h List.not_mem_nil, fun h => absurd rfl h⟩

/-- nothing was said but `T_STJOIN` -/
theorem Unbridged.law (hu : Unbridged lport 0 b) (ho : b.relay.out <+: [stjoin node sid]) :
    JoinLaw node sid lport b where
  said := Or.inl (ho.trans (List.prefix_append _ _))
  dialed := ⟨0, by omega, hu.dials, fun h => absurd h (lt_irrefl 0)⟩
  failed hm := by
    have he := List.mem_singleton.mp (ho.subset hm)
    exact absurd (Piece.frame.inj he).1 (by decide)
  given := hu.given

theorem Hosted.law (h : Hosted node sid lport b) : JoinLaw node sid lport b := by
  cases h with
  | idle h hu =>
    refine hu.law ?_
    rw [h.relay]
    exact List.nil_prefix
  | asking h hu => exact hu.law h.said.initial
  | called n h hu =>
    have hn : n ≤ 4 ∧ b.relay.out <+: [stjoin node sid, hostFailed sid] ∧
        (hostFailed sid ∈ b.relay.out → n = 4) := by
      have hs := h.said
      cases hpc : b.pc with
      | bridge left | pause left =>
        simp only [hpc] at hs
        refine ⟨by omega, hs.1.initial.trans (List.prefix_append _ _), fun hm => ?_⟩
        have he := List.mem_singleton.mp (hs.1.initial.subset hm)
        exact absurd (Piece.frame.inj he).1 (by decide)
      | refuse | ended =>
        simp only [hpc] at hs
        exact ⟨by omega, hs.1.initial, fun _ => hs.2⟩
      | _ => simp [hpc] at hs
    exact ⟨Or.inl hn.2.1, ⟨n, hn.1, hu.dials, fun _ => ⟨[], h.heard⟩⟩,
      fun hm => ⟨hu.bridged, by rw [hu.dials, hn.2.2 hm]⟩, hu.given⟩
  | bridged h =>
    obtain ⟨hraw, x, hx, hp⟩ := h.piped.given
    obtain ⟨ds, h1, h2, h3⟩ := h.piped.said
    obtain ⟨n, hn, hd⟩ := h.dials
    exact ⟨Or.inr ⟨ds, h1, h2, h3⟩, ⟨n, hn, hd, fun _ => ⟨x, hx⟩⟩,
      fun hm => absurd (h2.subset hm) (hostFailed_notMem h1), hraw, fun _ => ⟨x, hx, hp⟩⟩

/-- **The joinee's side.**  Whatever the relay, the game and the network do, and in any order -/
theorem join_run {tcp_remote : PortMap} {gport : Nat} {t : Bridge} {tr : List (Bridge × Act)}
    (h : Path (stream_join node sid tcp_remote gport) joining tr t) :
    JoinLaw node sid (tcp_remote.toLocal gport) t :=
  (h.inv hosted_joining fun _ _ _ hi hs => hosted_step hi hs).law

end

/-- a game that is played at port 2300 and listens at port 2301 -/
def moved : PortMap := ⟨⟨[(2301, 2300)], by decide⟩, by decide⟩

/-- the game refuses once, and says a word before the relay does -/
def slowGame : List Act :=
  [.connected, .net .relay (.arrive (frame T_STOK [0, 0, 0, 9] ++ [1, 2])), .wake, .wake, .refused,
   .wake, .connected, .net .game (.arrive [3]), .pump true, .pump false]

theorem join_slowGame : ∃ t, run (stream_join 8 9 moved 2300) joining slowGame = some t ∧
    (t.relay.out = [stjoin 8 9, stjoined 9, .raw [3]] ∧ t.dials = [2301, 2301]) ∧
    JoinLaw 8 9 (moved.toLocal 2300) t := by
  have hsome : (run (stream_join 8 9 moved 2300) joining slowGame).isSome = true := by decide
  obtain ⟨t, ht⟩ := Option.isSome_iff_exists.mp hsome
  have hend : ∀ u ∈ run (stream_join 8 9 moved 2300) joining slowGame,
      u.relay.out = [stjoin 8 9, stjoined 9, .raw [3]] ∧ u.dials = [2301, 2301] := by
    decide
  exact ⟨t, ht, hend t ht, join_run (path_run ht)⟩

/-! ## the connection to the relay -/

section
variable {node sid lport : Nat}

theorem Hosted.dial (h : Hosted node sid lport b) (hpc : b.pc = .dial) : Idle b := by
  cases h with
  | idle h _ => exact h
  | asking h _ =>
    have hr := h.read
    simp [hpc] at hr
  | called n h _ =>
    have hr := h.said
    simp [hpc] at hr
  | bridged h =>
    have hr := h.pc
    simp [hpc] at hr

theorem grown_joinAt (h : Hosted node sid lport b) {a : Act} (hn : ∀ x e, a ≠ .net x e)
    (hs : b.joinAt node sid lport a = some b') : Grown b b' := by
  cases a with
  | net x e => exact absurd rfl (hn x e)
  | connected =>
    cases hpc : b.pc with
    | dial =>
      have hg : Grown b ({ b with relay := .fresh, dialed := true }.tell (stjoin node sid)
          .announce listen joinOver) :=
        (grown_fresh (h.dial hpc).relay).trans (grown_tell grown_listen grown_joinOver)
      simp only [joinAt, hpc] at hs
      rw [hpc, Option.some.inj hs] at hg
      exact hg
    | bridge left =>
      have hbridged : Grown b { b with
          game := .fresh, bridged := true, dials := b.dials ++ [lport] } := grown_same rfl
      have hg : Grown b ({ b with game := .fresh, bridged := true, dials := b.dials ++ [lport] }.tell
          (stjoined sid) .confirm pipe_stream joinOver) :=
        hbridged.trans (grown_tell grown_pipe_stream grown_joinOver)
      simp only [joinAt, hpc] at hs
      rw [hpc, Option.some.inj hs] at hg
      exact hg
    | _ => simp [joinAt, hpc] at hs
  | refused =>
    cases hpc : b.pc with
    | dial | bridge =>
      simp only [joinAt, hpc] at hs
      rw [← Option.some.inj hs]
      exact grown_same rfl
    | _ => simp [joinAt, hpc] at hs
  | expire =>
    cases hpc : b.pc with
    | header | verdict =>
      simp only [joinAt, hpc] at hs
      rw [← Option.some.inj hs]
      exact grown_joinOver b
    | _ => simp [joinAt, hpc] at hs
  | pump back => exact grown_pump hs
  | wake =>
    cases hpc : b.pc with
    | announce =>
      simp only [joinAt, hpc] at hs
      exact grown_told grown_listen grown_joinOver hs
    | header | verdict =>
      simp only [joinAt, hpc] at hs
      exact grown_hear grown_claimed grown_joinOver hs
    | pause left =>
      cases left <;> simp only [joinAt, hpc] at hs <;> rw [← Option.some.inj hs]
      · exact grown_tell grown_joinOver grown_joinOver
      · exact grown_same rfl
    | refuse =>
      simp only [joinAt, hpc] at hs
      exact grown_told grown_joinOver grown_joinOver hs
    | confirm =>
      simp only [joinAt, hpc] at hs
      exact grown_told grown_pipe_stream grown_joinOver hs
    | pipe t k =>
      simp only [joinAt, hpc] at hs
      exact grown_pumped hs
    | reap =>
      simp only [joinAt, hpc] at hs
      rw [← Option.some.inj hs]
      exact (grown_pipeClosed b).trans (grown_joinOver _)
    | _ => simp [joinAt, hpc] at hs

theorem join_grown (h : Hosted node sid lport b) {a : Act}
    (hs : b.joinAt node sid lport a = some b') : b.relay.out <+: b'.relay.out ∧
      (b'.relay.sent = b.relay.sent ∨
        ∃ d, a = .net .relay (.arrive d) ∧ b'.relay.sent = b.relay.sent ++ d) :=
  grown_cases (fun _ _ he => by rw [he] at hs; exact hs) fun hn => grown_joinAt h hn hs

end

/-! ## what `stream_join` leaves open -/

section
variable {node sid lport n : Nat}

/-- the bridged game is not forgotten: `T_STJOINED` and its `drain` do not raise, or the game's
connection is closing anyway -/
def Tidy (sid : Nat) (b : Bridge) : Act → Prop
  | .connected => match b.pc with
    | .bridge _ => (b.relay.send (stjoined sid)).2 ≠ .raised
    | _ => True
  | .wake => b.pc = .confirm → b.relay.drained = some .raised → b.game.closing = true
  | _ => True

instance (sid : Nat) (b : Bridge) : (a : Act) → Decidable (Tidy sid b a)
  | .connected => show Decidable (match b.pc with
      | .bridge _ => (b.relay.send (stjoined sid)).2 ≠ .raised
      | _ => True) from
    match b.pc with
    | .bridge _ => inferInstanceAs (Decidable (_ ≠ _))
    | .dial | .announce | .header | .verdict _ | .pause _ | .refuse | .confirm | .pipe .. | .reap
    | .ended => instDecidableTrue
  | .wake => inferInstanceAs (Decidable (_ → _ → _))
  | .net .. | .refused | .expire | .pump _ => instDecidableTrue

theorem closed_joinOver (h : b.bridged = false ∨ b.game.closing = true) : Closed b.joinOver := by
  intro _
  refine ⟨fun _ => rfl, fun hb => ?_⟩
  rcases h with h | h
  · exact absurd (h.symm.trans hb) (by simp)
  · exact h

theorem closed_claimed (h : b.bridged = false) (d : Bytes) : Closed (b.claimed d) := by
  cases d with
  | nil => exact closed_joinOver (Or.inl h)
  | cons t p =>
    show Closed (if t = T_STOK then _ else _)
    split
    · exact closed_of_ne (by simp)
    · exact closed_joinOver (Or.inl h)

theorem closed_hear (h : b.bridged = false) (hh : b.hear claimed joinOver = some b') :
    Closed b' := by
  rcases hear_cases hh with ⟨-, d, k, -, -, rfl⟩ | ⟨d, k, -, -, rfl⟩ | rfl
  · exact closed_of_ne (by simp)
  · exact closed_claimed (b := { b with relay := k }) h d
  · exact closed_joinOver (Or.inl h)

/-- before the game is there only the relay has to be closed -/
theorem closed_tell (h : b.bridged = false) {o : Piece} {pc : Pc} {ok : Bridge → Bridge}
    (hpc : pc ≠ .ended) (ho : ∀ b, b.bridged = false → Closed (ok b)) :
    Closed (b.tell o pc ok joinOver) :=
  tell_cases (fun _ _ _ => closed_of_ne hpc) (fun _ _ _ => ho _ h)
    fun _ _ _ => closed_joinOver (Or.inl h)

theorem Hosted.unbridged (h : Hosted node sid lport b)
    (hpc : match b.pc with
      | .confirm | .pipe .. | .reap | .ended => False
      | _ => True) : b.bridged = false := by
  cases h with
  | idle _ hu => exact hu.bridged
  | asking _ hu => exact hu.bridged
  | called _ _ hu => exact hu.bridged
  | bridged h =>
    have hr := h.pc
    cases hp : b.pc <;> simp [hp] at hr hpc

theorem closed_connected (h : Hosted node sid lport b)
    (hs : b.joinAt node sid lport .connected = some b') :
    Closed b' ↔ Tidy sid b .connected := by
  cases hpc : b.pc with
  | dial =>
    have hb := h.unbridged (by rw [hpc]; trivial)
    simp only [joinAt, hpc] at hs
    rw [← Option.some.inj hs]
    refine iff_of_true ?_ ?_
    · refine closed_tell ?_ (by simp) fun b _ => closed_of_ne (by simp [listen])
      exact hb
    · simp only [Tidy, hpc]
  | bridge left =>
    simp only [joinAt, hpc] at hs
    rw [← Option.some.inj hs]
    unfold tell
    rcases hk : b.relay.send (stjoined sid) with ⟨k, r⟩
    have ht : Tidy sid b .connected ↔ r ≠ .raised := by
      simp only [Tidy, hpc, hk]
    rw [ht]
    cases r with
    | ok => exact iff_of_true (closed_of_ne (by simp [pipe_stream])) (by simp)
    | waits => exact iff_of_true (closed_of_ne (by simp)) (by simp)
    | raised =>
      refine iff_of_false (fun hc => ?_) (by simp)
      exact absurd ((hc rfl).2 rfl) (by simp [joinOver, Tcp.fresh])
  | _ => simp [joinAt, hpc] at hs

theorem closed_wake (h : Hosted node sid lport b)
    (hs : b.joinAt node sid lport .wake = some b') : Closed b' ↔ Tidy sid b .wake := by
  have hearly : b.pc ≠ .confirm → Closed b' → (Closed b' ↔ Tidy sid b .wake) := fun hne hc =>
    iff_of_true hc fun he => absurd he hne
  cases hpc : b.pc with
  | announce =>
    have hb := h.unbridged (by rw [hpc]; trivial)
    simp only [joinAt, hpc] at hs
    refine hearly (by simp [hpc]) ?_
    rcases told_cases hs with rfl | rfl
    · exact closed_of_ne (by simp [listen])
    · exact closed_joinOver (Or.inl hb)
  | header | verdict =>
    have hb := h.unbridged (by rw [hpc]; trivial)
    simp only [joinAt, hpc] at hs
    exact hearly (by simp [hpc]) (closed_hear hb hs)
  | pause left =>
    have hb := h.unbridged (by rw [hpc]; trivial)
    refine hearly (by simp [hpc]) ?_
    cases left with
    | zero =>
      simp only [joinAt, hpc] at hs
      rw [← Option.some.inj hs]
      exact closed_tell hb (by simp) fun b hb => closed_joinOver (Or.inl hb)
    | succ left =>
      simp only [joinAt, hpc] at hs
      rw [← Option.some.inj hs]
      exact closed_of_ne (by simp)
  | refuse =>
    have hb := h.unbridged (by rw [hpc]; trivial)
    simp only [joinAt, hpc] at hs
    refine hearly (by simp [hpc]) ?_
    rcases told_cases hs with rfl | rfl <;> exact closed_joinOver (Or.inl hb)
  | confirm =>
    have hb : b.bridged = true := by
      cases h with
      | idle h _ => rcases h.pc with hp | hp <;> simp [hpc] at hp
      | asking h _ =>
        have hr := h.read
        simp [hpc] at hr
      | called n h _ =>
        have hr := h.said
        simp [hpc] at hr
      | bridged h => exact h.bridged
    simp only [joinAt, hpc, told] at hs
    obtain ⟨r, hr, rfl⟩ := Option.map_eq_some_iff.mp hs
    have ht : Tidy sid b .wake ↔ (r = .raised → b.game.closing = true) := by
      unfold Tidy
      rw [hr]
      exact ⟨fun h he => h hpc (by rw [he]), fun h _ he => h (Option.some.inj he)⟩
    rw [ht]
    by_cases he : r = .ok
    · rw [if_pos he]
      exact iff_of_true (closed_of_ne (by simp [pipe_stream])) (by simp [he])
    · rw [if_neg he]
      have hraised := drained_raised hr he
      exact ⟨fun hc _ => (hc rfl).2 hb, fun hc => closed_joinOver (Or.inr (hc hraised))⟩
  | pipe t k =>
    simp only [joinAt, hpc] at hs
    exact hearly (by simp [hpc]) (closed_pumped hs)
  | reap =>
    simp only [joinAt, hpc] at hs
    refine hearly (by simp [hpc]) ?_
    rw [← Option.some.inj hs]
    exact fun _ => ⟨fun _ => rfl, fun _ => rfl⟩
  | _ => simp [joinAt, hpc] at hs

/-- one step closes what the handler leaves behind exactly when it is tidy -/
theorem closed_step (h : Hosted node sid lport b) (hc : Closed b) {a : Act}
    (hs : b.joinAt node sid lport a = some b') : Closed b' ↔ Tidy sid b a := by
  cases a with
  | net x e => exact iff_of_true (hc.net hs) trivial
  | connected => exact closed_connected h hs
  | refused =>
    refine iff_of_true ?_ trivial
    cases hpc : b.pc with
    | dial =>
      have hb := h.unbridged (by rw [hpc]; trivial)
      have hd : b.dialed = false := by
        cases h with
        | idle h _ => exact h.dialed
        | asking h _ =>
          have hr := h.read
          simp [hpc] at hr
        | called n h _ =>
          have hr := h.said
          simp [hpc] at hr
        | bridged h =>
          have hr := h.pc
          simp [hpc] at hr
      simp only [joinAt, hpc] at hs
      rw [← Option.some.inj hs]
      exact fun _ => ⟨fun he => absurd (hd.symm.trans he) (by simp),
        fun he => absurd (hb.symm.trans he) (by simp)⟩
    | bridge left =>
      simp only [joinAt, hpc] at hs
      rw [← Option.some.inj hs]
      exact closed_of_ne (by simp)
    | _ => simp [joinAt, hpc] at hs
  | wake => exact closed_wake h hs
  | expire =>
    refine iff_of_true ?_ trivial
    cases hpc : b.pc with
    | header | verdict =>
      have hb := h.unbridged (by rw [hpc]; trivial)
      simp only [joinAt, hpc] at hs
      rw [← Option.some.inj hs]
      exact closed_joinOver (Or.inl hb)
    | _ => simp [joinAt, hpc] at hs
  | pump back => exact iff_of_true (closed_pump hs) trivial

/-- **What is left open.**  A joinee that is over has closed its connections, unless telling the
relay `T_STJOINED` raised while the game's connection was up. -/
theorem join_closed_iff {tcp_remote : PortMap} {gport : Nat} {t : Bridge} {tr : List (Bridge × Act)}
    (h : Path (stream_join node sid tcp_remote gport) joining tr t) :
    (∀ u ∈ visited tr t, Closed u) ↔ ∀ x ∈ tr, Tidy sid x.1 x.2 := by
  refine h.all_iff_ok (I := fun u => Hosted node sid (tcp_remote.toLocal gport) u ∧ Closed u)
    ⟨hosted_joining, closed_of_ne (by simp [joining])⟩ (fun _ hi => hi.2) ?_ ?_
  · intro u l u' hi hok hs
    exact ⟨hosted_step hi.1 hs, (closed_step hi.1 hi.2 hs).mpr hok⟩
  · intro u l u' hi hno hs hc
    exact hno ((closed_step hi.1 hi.2 hs).mp hc)

end

/-- the relay is lost between `T_STOK` and the game's answer -/
def relayLost : List Act :=
  [.connected, .net .relay (.arrive (frame T_STOK [0, 0, 0, 9])), .wake, .wake,
   .net .relay .fatal, .net .relay (.lost (some .reset)), .connected]

theorem join_relayLost : ∃ t, run (stream_join 8 9 moved 2300) joining relayLost = some t ∧
    ¬ ∀ u ∈ visited (trace (stream_join 8 9 moved 2300) joining relayLost) t, Closed u := by
  have hsome : (run (stream_join 8 9 moved 2300) joining relayLost).isSome = true := by decide
  obtain ⟨t, ht⟩ := Option.isSome_iff_exists.mp hsome
  have hno : ¬ ∀ x ∈ trace (stream_join 8 9 moved 2300) joining relayLost, Tidy 9 x.1 x.2 := by decide
  exact ⟨t, ht, fun hc => hno ((join_closed_iff (path_run ht)).mp hc)⟩

end Bridge

end ShadowLan
