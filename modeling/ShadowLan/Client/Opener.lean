import ShadowLan.Client.Bridge

/-!
# The opener's end of a stream

`on_accept` asks the relay for a stream as the local game connects, and bridges it when the relay
lets it.

* `Bridge.Proxied`       what every step keeps;
* `Bridge.Decided`       the condition on a step for the connection to the relay;
* `accept_closed_iff`    every connection is closed in the end, exactly when all steps are `Decided`.
-/

namespace ShadowLan
namespace Bridge
open Tcp

variable {b b' : Bridge} {lead : List Piece}

/-! ## what `on_accept` keeps -/

/-- nothing was said to the game, and nothing it said was taken -/
structure Untouched (b : Bridge) : Prop where
  out : b.game.out = []
  inb : b.game.inb = b.game.sent

/-- what every step of `on_accept` keeps -/
inductive Proxied (node sid rport : Nat) (b : Bridge) : Prop
  | idle (h : Idle b) (hg : Untouched b)
  | asking (h : Asking [stopen node sid rport] b) (hg : Untouched b)
  | piped (h : Piped [stopen node sid rport] b)
      (hpc : match b.pc with
        | .pipe .. | .reap | .ended => True
        | _ => False)

section
variable {node sid rport : Nat}

theorem Untouched.fed (h : Untouched b) (hf : Fed b b') : Untouched b' := by
  obtain ⟨d, hg⟩ := hf.game
  exact ⟨by rw [hg.out, h.out]; rfl, by rw [hg.inb, hg.sent, h.inb]⟩

theorem Untouched.same (h : Untouched b) (hg : b'.game = b.game) : Untouched b' :=
  ⟨by rw [hg]; exact h.out, by rw [hg]; exact h.inb⟩

theorem Proxied.net (h : Proxied node sid rport b) {x : End} {e : Tcp.Ev} (hn : b.net x e = some b') :
    Proxied node sid rport b' := by
  obtain ⟨hf, he, hd, -⟩ := net_cases hn
  have hpc : b'.pc = b.pc := by rw [he]
  cases h with
  | idle h hg =>
    exact .idle ⟨(hd h.dialed).trans h.relay, by rw [he]; exact h.dialed, by rw [hpc]; exact h.pc⟩
      (hg.fed hf)
  | asking h hg => exact .asking (h.fed hf (Or.inl hpc)) (hg.fed hf)
  | piped h hp => exact .piped (h.fed hf) (by rw [hpc]; exact hp)

theorem Asking.failed (h : Asking [stopen node sid rport] b) (hg : Untouched b) :
    Proxied node sid rport b.openFailed :=
  .asking (h.fed (fed_openFailed b) (Or.inr rfl)) (hg.fed (fed_openFailed b))

/-- `T_STOK` was read: the pumps start with what is left -/
theorem Heard.piped (h : b.Heard []) (hs : Tcp.Uttered lead b.relay) (hg : Untouched b) :
    Piped lead b.pipe_stream where
  there := by
    refine ⟨[], h, [], fun _ h => absurd h List.not_mem_nil, rfl, Or.inl ?_⟩
    exact hg.out
  back := ⟨[], hg.inb.symm, hs.taken⟩

theorem Asking.proxied (h : Asking [stopen node sid rport] b) (hg : Untouched b)
    (hh : b.hear granted openFailed = some b') : Proxied node sid rport b' := by
  rcases hear_cases hh with ⟨hpc, d, k, ht, hd, rfl⟩ | ⟨d, k, hpc, ht, rfl⟩ | rfl
  · exact .asking (h.header hpc ht hd) (hg.same rfl)
  · have hsaid : Tcp.Uttered [stopen node sid rport] k := h.said.grows ht.grows
    cases d with
    | nil => exact .asking ⟨hsaid, trivial⟩ (hg.same rfl)
    | cons t p =>
      by_cases he : t = T_STOK
      · have hc : granted { b with relay := k } (t :: p) = pipe_stream { b with relay := k } :=
          if_pos he
        rw [hc]
        exact .piped ((h.body hpc ht (by rw [he]) b.pc).piped hsaid (hg.same rfl)) trivial
      · have hc : granted { b with relay := k } (t :: p) = pipeClosed { b with relay := k } :=
          if_neg he
        have hg' : Untouched { b with relay := k } := hg.same rfl
        rw [hc]
        exact .asking ⟨hsaid.grows (Tcp.grows_close k), trivial⟩ (hg'.fed (fed_pipeClosed _))
  · exact h.failed hg

/-- `T_STOPEN` is sent -/
theorem Untouched.connected (hg : Untouched b) : Proxied node sid rport
    ({ b with relay := .fresh, dialed := true }.tell (stopen node sid rport) .announce listen
      openFailed) := by
  refine tell_cases ?_ ?_ ?_
  · intro k r hk
    obtain ⟨h1, h2⟩ := uttered_fresh hk
    exact .asking ⟨h1, h2⟩ (hg.same rfl)
  · intro k r hk
    obtain ⟨h1, h2⟩ := uttered_fresh hk
    exact .asking ⟨h1, h2⟩ (hg.same rfl)
  · intro k r hk
    have hg' : Untouched { b with relay := k, dialed := true } := hg.same rfl
    exact .asking ⟨(uttered_fresh hk).1, trivial⟩ (hg'.fed (fed_openFailed _))

theorem Proxied.idle_step (h : Idle b) (hg : Untouched b) {a : Act} (hn : ∀ x e, a ≠ .net x e)
    (hs : b.on_accept node sid rport a = some b') : Proxied node sid rport b' := by
  cases a with
  | net x e => exact absurd rfl (hn x e)
  | connected =>
    rcases h.pc with hpc | hpc
    · have hc : Proxied node sid rport ({ b with relay := .fresh, dialed := true }.tell
          (stopen node sid rport) .announce listen openFailed) := hg.connected
      simp only [on_accept, hpc] at hs
      rw [hpc, Option.some.inj hs] at hc
      exact hc
    · simp [on_accept, hpc] at hs
  | refused =>
    rcases h.pc with hpc | hpc
    · simp only [on_accept, hpc] at hs
      rw [← Option.some.inj hs]
      exact .idle ⟨h.relay, h.dialed, Or.inr rfl⟩ (hg.fed (fed_openFailed b))
    · simp [on_accept, hpc] at hs
  | wake | expire => rcases h.pc with hpc | hpc <;> simp [on_accept, hpc] at hs
  | pump back => rcases h.pc with hpc | hpc <;> simp [on_accept, pumpStep, hpc] at hs

theorem Proxied.asking_step (h : Asking [stopen node sid rport] b) (hg : Untouched b) {a : Act}
    (hn : ∀ x e, a ≠ .net x e) (hs : b.on_accept node sid rport a = some b') :
    Proxied node sid rport b' := by
  have hfail := h.failed hg
  have hr := h.read
  cases a with
  | net x e => exact absurd rfl (hn x e)
  | connected | refused => cases hpc : b.pc <;> simp [on_accept, hpc] at hs hr
  | expire =>
    cases hpc : b.pc with
    | header | verdict =>
      simp only [on_accept, hpc] at hs
      rw [← Option.some.inj hs]
      exact hfail
    | _ => simp [on_accept, hpc] at hs hr
  | pump back => cases hpc : b.pc <;> simp [on_accept, pumpStep, hpc] at hs hr
  | wake =>
    cases hpc : b.pc with
    | announce =>
      simp only [on_accept, hpc] at hs hr
      rcases told_cases hs with rfl | rfl
      · exact .asking ⟨h.said, hr⟩ (hg.same rfl)
      · exact hfail
    | header | verdict =>
      simp only [on_accept, hpc] at hs
      exact h.proxied hg hs
    | _ => simp [on_accept, hpc] at hs hr

theorem Proxied.piped_step (h : Piped [stopen node sid rport] b)
    (hpc : match b.pc with
      | .pipe .. | .reap | .ended => True
      | _ => False) {a : Act} (hn : ∀ x e, a ≠ .net x e)
    (hs : b.on_accept node sid rport a = some b') : Proxied node sid rport b' := by
  cases a with
  | net x e => exact absurd rfl (hn x e)
  | connected | refused | expire => cases hp : b.pc <;> simp [on_accept, hp] at hs hpc
  | pump back =>
    obtain ⟨h1, -, t, k, h3⟩ := h.pumpStep hs
    refine .piped h1 ?_
    rw [h3]
    trivial
  | wake =>
    cases hp : b.pc with
    | pipe t k =>
      simp only [on_accept, hp, pumped] at hs
      obtain ⟨-, hs⟩ := Option.ite_none_right_eq_some.mp hs
      rw [← Option.some.inj hs]
      exact .piped ⟨h.there, h.back⟩ trivial
    | reap =>
      simp only [on_accept, hp] at hs
      rw [← Option.some.inj hs]
      exact .piped (h.fed (fed_pipeClosed b)) trivial
    | _ => simp [on_accept, hp] at hs hpc

theorem proxied_step {a : Act} (h : Proxied node sid rport b)
    (hs : b.on_accept node sid rport a = some b') : Proxied node sid rport b' := by
  by_cases hn : ∃ x e, a = .net x e
  · obtain ⟨x, e, rfl⟩ := hn
    exact h.net hs
  · have hn' : ∀ x e, a ≠ .net x e := fun x e he => hn ⟨x, e, he⟩
    cases h with
    | idle h hg => exact .idle_step h hg hn' hs
    | asking h hg => exact .asking_step h hg hn' hs
    | piped h hpc => exact .piped_step h hpc hn' hs

theorem proxied_accepted : Proxied node sid rport accepted :=
  .idle ⟨rfl, rfl, Or.inl rfl⟩ ⟨rfl, rfl⟩

end

/-! ## the connection to the relay -/

section
variable {node sid rport : Nat}

theorem Proxied.dial (h : Proxied node sid rport b) (hpc : b.pc = .dial) : Idle b := by
  cases h with
  | idle h _ => exact h
  | asking h _ =>
    have hr := h.read
    simp [hpc] at hr
  | piped _ hp => simp [hpc] at hp

theorem grown_on_accept (h : Proxied node sid rport b) {a : Act} (hn : ∀ x e, a ≠ .net x e)
    (hs : b.on_accept node sid rport a = some b') : Grown b b' := by
  cases a with
  | net x e => exact absurd rfl (hn x e)
  | connected =>
    cases hpc : b.pc with
    | dial =>
      have hg : Grown b ({ b with relay := .fresh, dialed := true }.tell (stopen node sid rport)
          .announce listen openFailed) :=
        (grown_fresh (h.dial hpc).relay).trans (grown_tell grown_listen grown_openFailed)
      simp only [on_accept, hpc] at hs
      rw [hpc, Option.some.inj hs] at hg
      exact hg
    | _ => simp [on_accept, hpc] at hs
  | refused =>
    cases hpc : b.pc with
    | dial =>
      simp only [on_accept, hpc] at hs
      rw [← Option.some.inj hs]
      exact grown_openFailed b
    | _ => simp [on_accept, hpc] at hs
  | expire =>
    cases hpc : b.pc with
    | header | verdict =>
      simp only [on_accept, hpc] at hs
      rw [← Option.some.inj hs]
      exact grown_openFailed b
    | _ => simp [on_accept, hpc] at hs
  | pump back => exact grown_pump hs
  | wake =>
    cases hpc : b.pc with
    | announce =>
      simp only [on_accept, hpc] at hs
      exact grown_told grown_listen grown_openFailed hs
    | header | verdict =>
      simp only [on_accept, hpc] at hs
      exact grown_hear grown_granted grown_openFailed hs
    | pipe t k =>
      simp only [on_accept, hpc] at hs
      exact grown_pumped hs
    | reap =>
      simp only [on_accept, hpc] at hs
      rw [← Option.some.inj hs]
      exact grown_pipeClosed b
    | _ => simp [on_accept, hpc] at hs

theorem accept_grown (h : Proxied node sid rport b) {a : Act}
    (hs : b.on_accept node sid rport a = some b') : b.relay.out <+: b'.relay.out ∧
      (b'.relay.sent = b.relay.sent ∨
        ∃ d, a = .net .relay (.arrive d) ∧ b'.relay.sent = b.relay.sent ++ d) :=
  grown_cases (fun _ _ he => by rw [he] at hs; exact hs) fun hn => grown_on_accept h hn hs

end

/-! ## what `on_accept` leaves open -/

section
variable {node sid rport : Nat}

/-- the connection to the relay is not forgotten: the handler is not turned away while it waits for
the verdict, or that connection is closing anyway -/
def Decided (b : Bridge) : Act → Prop
  | .wake => match b.pc with
    | .announce => b.relay.drained = some .raised → b.relay.closing = true
    | .header => b.relay.readexactly 4 = .raised → b.relay.closing = true
    | .verdict mlen => (b.relay.readexactly mlen = .raised → b.relay.closing = true) ∧
        ∀ k, b.relay.readexactly mlen = .got [] k → k.closing = true ∧ b.game.closing = true
    | _ => True
  | .expire => b.relay.closing = true
  | _ => True

/-- a handler that waits for the verdict has both connections -/
structure Up (b : Bridge) : Prop where
  bridged : b.bridged = true
  dialed : match b.pc with
    | .dial => b.dialed = false
    | .announce | .header | .verdict _ => b.dialed = true
    | _ => True

theorem closed_openFailed (hd : b.dialed = true) : Closed b.openFailed ↔ b.relay.closing = true :=
  ⟨fun h => (h rfl).1 hd, fun h _ => ⟨fun _ => h, fun _ => rfl⟩⟩

theorem send_fresh (o : Piece) : Tcp.fresh.send o = ({ Tcp.fresh with out := [o] }, .ok) := rfl

/-- how a handler that gets up goes on -/
theorem up_step {a : Act} (h : Up b) (hs : b.on_accept node sid rport a = some b') : Up b' := by
  have hbr := h.bridged
  have hd := h.dialed
  cases a with
  | net x e =>
    obtain ⟨-, he, -⟩ := net_cases hs
    have hpc : b'.pc = b.pc := by rw [he]
    refine ⟨by rw [he]; exact hbr, ?_⟩
    rw [hpc, he]
    exact hd
  | pump back =>
    have hp : b.pumpStep back = some b' := hs
    unfold pumpStep at hp
    cases hpc : b.pc with
    | pipe t k =>
      rw [hpc] at hp
      cases back <;> obtain ⟨x, -, rfl⟩ := Option.map_eq_some_iff.mp hp <;> exact ⟨hbr, trivial⟩
    | _ => simp [hpc] at hp
  | connected =>
    cases hpc : b.pc with
    | dial =>
      simp only [on_accept, hpc, tell, send_fresh] at hs
      rw [← Option.some.inj hs]
      exact ⟨hbr, rfl⟩
    | _ => simp [on_accept, hpc] at hs
  | refused =>
    cases hpc : b.pc with
    | dial =>
      simp only [on_accept, hpc] at hs
      rw [← Option.some.inj hs]
      exact ⟨hbr, trivial⟩
    | _ => simp [on_accept, hpc] at hs
  | expire =>
    cases hpc : b.pc with
    | header | verdict =>
      simp only [on_accept, hpc] at hs
      rw [← Option.some.inj hs]
      exact ⟨hbr, trivial⟩
    | _ => simp [on_accept, hpc] at hs
  | wake =>
    cases hpc : b.pc with
    | announce =>
      simp only [on_accept, hpc] at hs hd
      rcases told_cases hs with rfl | rfl
      · exact ⟨hbr, hd⟩
      · exact ⟨hbr, trivial⟩
    | header | verdict =>
      simp only [on_accept, hpc] at hs hd
      rcases hear_cases hs with ⟨-, d, k, -, -, rfl⟩ | ⟨d, k, -, -, rfl⟩ | rfl
      · exact ⟨hbr, hd⟩
      · cases d with
        | nil => exact ⟨hbr, trivial⟩
        | cons t p =>
          show Up (if t = T_STOK then _ else _)
          split <;> exact ⟨hbr, trivial⟩
      · exact ⟨hbr, trivial⟩
    | pipe t k =>
      simp only [on_accept, hpc, pumped] at hs
      obtain ⟨-, hs⟩ := Option.ite_none_right_eq_some.mp hs
      rw [← Option.some.inj hs]
      exact ⟨hbr, trivial⟩
    | reap =>
      simp only [on_accept, hpc] at hs
      rw [← Option.some.inj hs]
      exact ⟨hbr, trivial⟩
    | _ => simp [on_accept, hpc] at hs

/-- the verdict is there, or never comes -/
theorem closed_heard (h : Up b) (hs : b.hear granted openFailed = some b')
    (hpc : b.pc = .header ∨ ∃ mlen, b.pc = .verdict mlen) : Closed b' ↔ Decided b .wake := by
  have hbr := h.bridged
  have hd := h.dialed
  rcases hpc with hpc | ⟨mlen, hpc⟩
  · have ht : Decided b .wake ↔ (b.relay.readexactly 4 = .raised → b.relay.closing = true) := by
      simp only [Decided, hpc]
    rw [ht]
    simp only [hear, hpc] at hs hd
    cases hr : b.relay.readexactly 4 with
    | got d k =>
      rw [hr] at hs
      rw [← Option.some.inj hs]
      exact iff_of_true (closed_of_ne (by simp)) (by simp)
    | raised =>
      rw [hr] at hs
      rw [← Option.some.inj hs, closed_openFailed hd]
      exact ⟨fun h _ => h, fun h => h rfl⟩
    | waits => simp [hr] at hs
  · have ht : Decided b .wake ↔ (b.relay.readexactly mlen = .raised → b.relay.closing = true) ∧
        ∀ k, b.relay.readexactly mlen = .got [] k → k.closing = true ∧ b.game.closing = true := by
      simp only [Decided, hpc]
    rw [ht]
    simp only [hear, hpc] at hs hd
    cases hr : b.relay.readexactly mlen with
    | got d k =>
      rw [hr] at hs
      rw [← Option.some.inj hs]
      cases d with
      | nil =>
        constructor
        · intro hc
          refine ⟨by simp, fun k' he => ?_⟩
          obtain ⟨-, rfl⟩ := Tcp.Exactly.got.inj he
          exact ⟨(hc rfl).1 hd, (hc rfl).2 hbr⟩
        · rintro ⟨-, hc⟩ -
          exact ⟨fun _ => (hc k rfl).1, fun _ => (hc k rfl).2⟩
      | cons t p =>
        refine iff_of_true ?_ ⟨by simp, by simp⟩
        show Closed (if t = T_STOK then _ else _)
        split
        · exact closed_of_ne (by simp [pipe_stream])
        · exact closed_pipeClosed _
    | raised =>
      rw [hr] at hs
      rw [← Option.some.inj hs, closed_openFailed hd]
      exact ⟨fun h => ⟨fun _ => h, by simp⟩, fun h => h.1 rfl⟩
    | waits => simp [hr] at hs

/-- one step closes what the handler leaves behind exactly when the verdict was heard -/
theorem decided_step (h : Up b) (hc : Closed b) {a : Act}
    (hs : b.on_accept node sid rport a = some b') : Closed b' ↔ Decided b a := by
  have hd := h.dialed
  cases a with
  | net x e => exact iff_of_true (hc.net hs) trivial
  | pump back => exact iff_of_true (closed_pump hs) trivial
  | connected =>
    refine iff_of_true ?_ trivial
    cases hpc : b.pc with
    | dial =>
      simp only [on_accept, hpc, tell, send_fresh] at hs
      rw [← Option.some.inj hs]
      exact closed_of_ne (by simp [listen])
    | _ => simp [on_accept, hpc] at hs
  | refused =>
    refine iff_of_true ?_ trivial
    cases hpc : b.pc with
    | dial =>
      simp only [on_accept, hpc] at hs hd
      rw [← Option.some.inj hs]
      exact fun _ => ⟨fun he => absurd (hd.symm.trans he) (by simp), fun _ => rfl⟩
    | _ => simp [on_accept, hpc] at hs
  | expire =>
    cases hpc : b.pc with
    | header | verdict =>
      simp only [on_accept, hpc] at hs hd
      rw [← Option.some.inj hs]
      exact closed_openFailed hd
    | _ => simp [on_accept, hpc] at hs
  | wake =>
    cases hpc : b.pc with
    | announce =>
      have ht : Decided b .wake ↔ (b.relay.drained = some .raised → b.relay.closing = true) := by
        simp only [Decided, hpc]
      rw [ht]
      simp only [on_accept, hpc, told] at hs hd
      obtain ⟨r, hr, rfl⟩ := Option.map_eq_some_iff.mp hs
      by_cases he : r = .ok
      · rw [if_pos he, hr, he]
        exact iff_of_true (closed_of_ne (by simp [listen])) (by simp)
      · rw [if_neg he, closed_openFailed hd, hr, drained_raised hr he]
        exact ⟨fun h _ => h, fun h => h rfl⟩
    | header | verdict =>
      simp only [on_accept, hpc] at hs
      exact closed_heard h hs (by simp [hpc])
    | pipe t k =>
      simp only [on_accept, hpc] at hs
      exact iff_of_true (closed_pumped hs) (by simp [Decided, hpc])
    | reap =>
      simp only [on_accept, hpc] at hs
      rw [← Option.some.inj hs]
      exact iff_of_true (closed_pipeClosed b) (by simp [Decided, hpc])
    | _ => simp [on_accept, hpc] at hs

/-- **What is left open.**  An opener that is over has closed both connections, unless it was turned
away while it waited for the verdict and the relay had not closed its own side. -/
theorem accept_closed_iff {t : Bridge} {tr : List (Bridge × Act)}
    (h : Path (on_accept node sid rport) accepted tr t) :
    (∀ u ∈ visited tr t, Closed u) ↔ ∀ x ∈ tr, Decided x.1 x.2 := by
  refine h.all_iff_ok (I := fun u => Up u ∧ Closed u)
    ⟨⟨rfl, rfl⟩, closed_of_ne (by simp [accepted])⟩ (fun _ hi => hi.2) ?_ ?_
  · intro u l u' hi hok hs
    exact ⟨up_step hi.1 hs, (decided_step hi.1 hi.2 hs).mpr hok⟩
  · intro u l u' hi hno hs hc
    exact hno ((decided_step hi.1 hi.2 hs).mp hc)

end

/-- no verdict comes within ten seconds -/
def noVerdict : List Act := [.connected, .expire]

theorem accept_noVerdict : ∃ t, run (on_accept 7 9 2300) accepted noVerdict = some t ∧
    ¬ ∀ u ∈ visited (trace (on_accept 7 9 2300) accepted noVerdict) t, Closed u := by
  have hsome : (run (on_accept 7 9 2300) accepted noVerdict).isSome = true := by decide
  obtain ⟨t, ht⟩ := Option.isSome_iff_exists.mp hsome
  refine ⟨t, ht, fun hc => ?_⟩
  have hmem : ∃ b, (b, Act.expire) ∈ trace (on_accept 7 9 2300) accepted noVerdict ∧
      b.relay.closing = false := ⟨_, List.mem_cons_of_mem _ List.mem_cons_self, rfl⟩
  obtain ⟨b, hb, hopen⟩ := hmem
  have hclosing := (accept_closed_iff (path_run ht)).mp hc _ hb
  exact absurd (hopen.symm.trans hclosing) (by simp)

end Bridge

end ShadowLan
