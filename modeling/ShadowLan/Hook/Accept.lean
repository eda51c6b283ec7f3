import ShadowLan.Lib.Runs
import ShadowLan.Hook.GameUdp

/-!
# Whose connection was accepted?

A stream from another node is served over a connection from this machine: `dt_host_bridge` connects
a socket to the game's port on loopback, and records in the session's row of `g_hs` the local port
of that socket.  When the game accepts a connection from loopback, `dt_acc_post_accept` looks for
the port of the peer in `g_hs` and shows the opener's address instead.

* `accLearn`, `postAccept`   what an accept writes, and what the app is shown;
* `AccHook.step`             the life of the sessions, accepts and closes;
* `Right`                    the opener of the session on the peer's port is shown, and loopback if
                             there is none;
* `Clear`                    the condition on an accept: the session has recorded its port, no row
                             that was taken over claims the port, and there is a row of `g_acc`;
* `right_run`                in every run, an accept that is clear is right.

A session's bridge is there from the `connect` on, before its port is recorded.  What the sessions of
datagrams do is left open.
-/

namespace ShadowLan

abbrev DT_MAXHOST : Nat := 64
abbrev DT_MAXACC : Nat := 64

/-- `struct dt_hosted`; `none` is `DTSOCK_BAD` -/
structure DtHosted where
  used : Bool
  sid : Nat
  real : Option Nat
  fd : Option Nat
  live : Bool
  last : Nat
  dead : Bool
  ovirt : Nat
  gport : Nat
  lport : Nat
  accsp : Nat

/-- a row, and the local port of the socket that its session has connected to the game -/
structure HostedRow extends DtHosted where
  bridge : Option Nat

namespace HostedRow
variable (h : HostedRow)

/-- the session's bridge has local port `p` -/
def owns (p : Nat) : Bool := h.used && h.bridge == some p

/-- the session has recorded its bridge, and its opener has the address `v` -/
def shows (v : Nat) : Bool := h.live && h.ovirt != 0 && h.ovirt == v

/-- a live session in a row whose last session was accepted from port `p` -/
def leftover (p : Nat) : Bool :=
  h.used && h.live && h.ovirt != 0 && h.accsp == p && h.lport != p

end HostedRow

/-- `struct dt_accfd` -/
structure DtAccfd where
  used : Bool
  gsock : Nat
  vnode : Nat
  lport : Nat
  bport : Nat

/-- `recording` are the calls of `dt_host_bridge` past their `connect`, with the session, the socket
and its local port; `accepted` are the app's sockets that `accept` returned -/
structure AccHook where
  g_hs : Fin DT_MAXHOST → HostedRow
  g_us : Fin DT_MAXUSESS → DtUsess
  g_acc : Fin DT_MAXACC → DtAccfd
  recording : List (Nat × Nat × Nat)
  accepted : List Nat
  now : Nat

inductive AccAct where
  /-- `dt_on_streq`, for a port that this process listens on -/
  | streq (sid gport ovirt : Nat)
  /-- the `connect` of `dt_host_bridge`, from local port `p` -/
  | connected (sid s p : Nat)
  /-- the end of the `k`-th of these calls -/
  | record (k : Nat)
  /-- `DT_STJOINED` is out -/
  | joined (sid fd : Nat)
  | hsClose (sid : Nat)
  /-- `dt_hosted_thread` ends the sessions that never got a bridge -/
  | sweep
  | tick (ms : Nat)
  /-- the sessions of datagrams change -/
  | usess (g_us : Fin DT_MAXUSESS → DtUsess)
  /-- the game accepts a connection from port `p` of this machine -/
  | accept (fd p : Nat)
  | close (fd : Nat)

namespace AccHook

def init : AccHook where
  g_hs := fun _ => ⟨⟨false, 0, none, none, false, 0, false, 0, 0, 0, 0⟩, none⟩
  g_us := fun _ => ⟨false, 0, ⟨0, 0⟩, 0, 0, none, 0⟩
  g_acc := fun _ => ⟨false, 0, 0, 0, 0⟩
  recording := []
  accepted := []
  now := 0

variable (S : AccHook)

/-- `dt_hs_by_sid` -/
def hsBySid (sid : Nat) : Option (Fin DT_MAXHOST) := first S.g_hs fun h => h.used && h.sid == sid

def setHs (i : Fin DT_MAXHOST) (h : HostedRow) : AccHook :=
  { S with g_hs := Function.update S.g_hs i h }

/-- the row of a session changes -/
def onHs (sid : Nat) (f : HostedRow → HostedRow) : AccHook :=
  match S.hsBySid sid with
  | some i => S.setHs i (f (S.g_hs i))
  | none => S

/-- the first part of `dt_on_streq`; `accsp` keeps what the row's last session left -/
def streq (sid gport ovirt : Nat) : AccHook :=
  match first S.g_hs fun h => !h.used with
  | some i => S.setHs i { S.g_hs i with
      used := true, sid := sid, real := none, fd := none, live := false, dead := false,
      last := S.now, ovirt := ovirt, gport := gport, lport := 0, bridge := none }
  | none => S

/-! ## accepting -/

/-- the row of `g_hs` that `dt_acc_learn_fd` picks -/
def learnRow (sp listen_port : Nat) : Option (Fin DT_MAXHOST) :=
  first S.g_hs fun h => h.used && h.live && h.ovirt != 0 &&
    ((sp != 0 && h.lport == sp) || (sp != 0 && h.accsp == sp) ||
      (listen_port != 0 && h.lport == listen_port))

/-- the session of datagrams that it falls back on -/
def learnUsess (sp : Nat) : Option (Fin DT_MAXUSESS) :=
  first S.g_us fun u => u.used && u.ovirt != 0 && u.lport == sp

/-- the row of `g_acc` that it writes -/
def accRow (fd : Nat) : Option (Fin DT_MAXACC) := first S.g_acc fun a => !a.used || a.gsock == fd

/-- `g_acc` with the accepted socket -/
def accSet (fd vnode lport bport : Nat) : AccHook :=
  match S.accRow fd with
  | some j => { S with g_acc := Function.update S.g_acc j ⟨true, fd, vnode, lport, bport⟩ }
  | none => S

/-- `dt_acc_learn_fd` -/
def accLearn (fd sp listen_port : Nat) : AccHook :=
  match S.learnRow sp listen_port with
  | some i =>
    (S.setHs i { S.g_hs i with accsp := sp }).accSet fd (S.g_hs i).ovirt (S.g_hs i).lport sp
  | none =>
    match S.learnUsess sp with
    | some i => S.accSet fd (S.g_us i).ovirt (S.g_us i).gamePort sp
    | none => S

/-- `dt_acc_get` -/
def accGet (fd : Nat) : Option SockaddrIn :=
  (first S.g_acc fun a => a.used && a.gsock == fd).map fun j =>
    ⟨(S.g_acc j).vnode, (S.g_acc j).lport⟩

/-- `dt_acc_post_accept` for a peer on loopback, with what the app is shown instead of it -/
def postAccept (fd sp : Nat) : AccHook × Option SockaddrIn :=
  let S := S.accLearn fd sp 0
  (S, S.accGet fd)

/-- `dt_acc_forget` -/
def accForget (fd : Nat) : AccHook :=
  match first S.g_acc fun a => a.used && a.gsock == fd with
  | some j => { S with g_acc := Function.update S.g_acc j { S.g_acc j with used := false } }
  | none => S

/-- one step.  Ports are not 0, and an accepted socket is none that is open. -/
def step : AccAct → Option AccHook
  | .streq sid gport ovirt => some (S.streq sid gport ovirt)
  | .connected sid s p =>
    if p = 0 then none
    else some { S.onHs sid (fun h => if h.live then h else { h with bridge := some p }) with
      recording := S.recording ++ [(sid, s, p)] }
  | .record k => S.recording[k]?.map fun x =>
    { S.onHs x.1 (fun h => { h with
        real := some x.2.1, live := true, last := S.now, lport := x.2.2, bridge := some x.2.2 }) with
      recording := S.recording.eraseIdx k }
  | .joined sid fd => some (S.onHs sid fun h => { h with fd := some fd })
  | .hsClose sid => some (S.onHs sid fun h =>
      { h with used := false, real := none, fd := none, bridge := none })
  | .sweep => some { S with g_hs := fun i =>
      let h := S.g_hs i
      if h.used ∧ ¬ h.live ∧ 30000 < S.now - h.last then { h with used := false, bridge := none }
      else h }
  | .tick ms => some { S with now := S.now + ms }
  | .usess g_us => some { S with g_us := g_us }
  | .accept fd p =>
    if p = 0 ∨ fd ∈ S.accepted then none
    else some { (S.postAccept fd p).1 with accepted := fd :: S.accepted }
  | .close fd => some { S.accForget fd with accepted := S.accepted.erase fd }

/-! ## right and clear -/

/-- the app is shown the opener of the session on port `p`, and the peer itself if there is none -/
structure Right (fd p : Nat) : Prop where
  opener : ∀ i, (S.g_hs i).owns p = true →
    (S.postAccept fd p).2.map SockaddrIn.addr = some (S.g_hs i).ovirt
  loopback : (∀ i, (S.g_hs i).owns p = false) → (S.postAccept fd p).2 = none

/-- The condition on an accept.  If there is a session on port `p`: all such have recorded the port
and are of one opener, there is a free row of `g_acc`, and no row before theirs that was taken over
by another opener's session claims the port.  If there is none: no row that was taken over claims
the port, and no session of datagrams is on it. -/
def Clear (p : Nat) : Prop :=
  match first S.g_hs (·.owns p) with
  | some i =>
    (first S.g_hs fun h => h.owns p && !h.shows (S.g_hs i).ovirt).isNone ∧
      (first S.g_acc fun a => !a.used).isSome ∧
      (first S.g_hs fun h => h.leftover p && h.ovirt != (S.g_hs i).ovirt).all (i < ·)
  | none => (first S.g_hs (·.leftover p)).isNone ∧ (S.learnUsess p).isNone

instance (p : Nat) : Decidable (S.Clear p) := by
  unfold Clear
  split <;> exact instDecidableAnd

/-- if the step is an accept, it is clear -/
def ClearAt : AccAct → Prop
  | .accept _ p => S.Clear p
  | _ => True

instance : (a : AccAct) → Decidable (S.ClearAt a)
  | .accept _ p => inferInstanceAs (Decidable (S.Clear p))
  | .streq .. | .connected .. | .record _ | .joined .. | .hsClose _ | .sweep | .tick _ | .usess _
  | .close _ => instDecidableTrue

/-- if the step is an accept, it is right -/
def RightAt : AccAct → Prop
  | .accept fd p => S.Right fd p
  | _ => True

/-! ## the rows -/

/-- what holds of the rows in a run: a row that is live has recorded its bridge, and the rows of
`g_acc` are of different open sockets -/
structure Ok : Prop where
  live : ∀ i, (S.g_hs i).used = true → (S.g_hs i).live = true →
    (S.g_hs i).bridge = some (S.g_hs i).lport
  acc : ∀ j, (S.g_acc j).used = true → (S.g_acc j).gsock ∈ S.accepted
  apart : ∀ j k, (S.g_acc j).used = true → (S.g_acc k).used = true →
    (S.g_acc j).gsock = (S.g_acc k).gsock → j = k
  nodup : S.accepted.Nodup

variable {S} {S' : AccHook}

theorem ok_init : init.Ok := ⟨nofun, nofun, nofun, List.nodup_nil⟩

/-- the rows of sessions change, and nothing else does -/
theorem Ok.hosted (h : S.Ok) {g_hs : Fin DT_MAXHOST → HostedRow}
    (hl : ∀ i, (g_hs i).used = true → (g_hs i).live = true → (g_hs i).bridge = some (g_hs i).lport) :
    ({ S with g_hs := g_hs } : AccHook).Ok :=
  ⟨hl, h.acc, h.apart, h.nodup⟩

theorem Ok.setHs (h : S.Ok) {i : Fin DT_MAXHOST} {r : HostedRow}
    (hr : r.used = true → r.live = true → r.bridge = some r.lport) : (S.setHs i r).Ok := by
  refine h.hosted fun j hu hl => ?_
  by_cases hj : j = i
  · rw [hj, Function.update_self] at hu hl ⊢
    exact hr hu hl
  · rw [Function.update_of_ne hj] at hu hl ⊢
    exact h.live j hu hl

theorem Ok.onHs (h : S.Ok) (sid : Nat) {f : HostedRow → HostedRow}
    (hf : ∀ r : HostedRow, (r.used = true → r.live = true → r.bridge = some r.lport) →
      (f r).used = true → (f r).live = true → (f r).bridge = some (f r).lport) : (S.onHs sid f).Ok := by
  unfold AccHook.onHs
  cases S.hsBySid sid with
  | none => exact h
  | some i => exact h.setHs (hf _ (h.live i))

/-- what `Ok` reads -/
theorem Ok.congr {T : AccHook} (h : S.Ok) (hs : T.g_hs = S.g_hs) (ha : T.g_acc = S.g_acc)
    (hf : T.accepted = S.accepted) : T.Ok := by
  obtain ⟨g_hs, g_us, g_acc, recording, accepted, now⟩ := T
  cases hs
  cases ha
  cases hf
  exact ⟨h.live, h.acc, h.apart, h.nodup⟩

/-! ### accepted sockets -/

/-- a new socket has no row -/
theorem Ok.noRow (h : S.Ok) {fd : Nat} (hfd : fd ∉ S.accepted) :
    first S.g_acc (fun a => a.used && a.gsock == fd) = none := by
  rw [first_eq_none_iff]
  intro j
  cases hu : (S.g_acc j).used with
  | false => rfl
  | true =>
    have hne : (S.g_acc j).gsock ≠ fd := fun heq => hfd (heq ▸ h.acc j hu)
    rw [beq_false_of_ne hne]
    rfl

theorem Ok.accSet (h : S.Ok) {fd : Nat} (hfd : fd ∉ S.accepted) (vnode lport bport : Nat) :
    ({ S.accSet fd vnode lport bport with accepted := fd :: S.accepted } : AccHook).Ok := by
  have hnodup : (fd :: S.accepted).Nodup := List.nodup_cons.mpr ⟨hfd, h.nodup⟩
  unfold AccHook.accSet
  cases hj : S.accRow fd with
  | none => exact ⟨h.live, fun j hu => List.mem_cons_of_mem _ (h.acc j hu), h.apart, hnodup⟩
  | some j =>
    have hother : ∀ k, k ≠ j → (S.g_acc k).used = true → (S.g_acc k).gsock ≠ fd :=
      fun k _ hu heq => hfd (heq ▸ h.acc k hu)
    refine ⟨h.live, fun k hu => ?_, fun k l hk hl heq => ?_, hnodup⟩
    · change (Function.update S.g_acc j _ k).used = true at hu
      show (Function.update S.g_acc j _ k).gsock ∈ _
      by_cases hkj : k = j
      · rw [hkj, Function.update_self]
        exact List.mem_cons_self
      · rw [Function.update_of_ne hkj] at hu ⊢
        exact List.mem_cons_of_mem _ (h.acc k hu)
    · change (Function.update S.g_acc j _ k).used = true at hk
      change (Function.update S.g_acc j _ l).used = true at hl
      change (Function.update S.g_acc j _ k).gsock = (Function.update S.g_acc j _ l).gsock at heq
      by_cases hkj : k = j
      · by_cases hlj : l = j
        · rw [hkj, hlj]
        · rw [hkj, Function.update_self, Function.update_of_ne hlj] at heq
          rw [Function.update_of_ne hlj] at hl
          exact absurd heq.symm (hother l hlj hl)
      · rw [Function.update_of_ne hkj] at hk heq
        by_cases hlj : l = j
        · rw [hlj, Function.update_self] at heq
          exact absurd heq (hother k hkj hk)
        · rw [Function.update_of_ne hlj] at hl heq
          exact h.apart k l hk hl heq

/-- what was written for a new socket is what is shown, if there is a free row -/
theorem Ok.accGet_accSet (h : S.Ok) {fd : Nat} (hfd : fd ∉ S.accepted)
    (hroom : first S.g_acc (fun a => !a.used) ≠ none) (vnode lport bport : Nat) :
    (S.accSet fd vnode lport bport).accGet fd = some ⟨vnode, lport⟩ := by
  obtain ⟨m, hm⟩ := Option.ne_none_iff_exists'.mp hroom
  obtain ⟨j, -, hj⟩ := first_isSome (T := S.g_acc) (p := fun a => !a.used || a.gsock == fd)
    (Bool.or_eq_true_iff.mpr (Or.inl (first_mem hm)))
  have hrow : S.accRow fd = some j := hj
  unfold AccHook.accSet
  rw [hrow]
  show (first (Function.update S.g_acc j ⟨true, fd, vnode, lport, bport⟩)
    fun a => a.used && a.gsock == fd).map _ = _
  rw [first_update_new (h.noRow hfd) (by simp)]
  show some (SockaddrIn.mk (Function.update S.g_acc j ⟨true, fd, vnode, lport, bport⟩ j).vnode
    (Function.update S.g_acc j ⟨true, fd, vnode, lport, bport⟩ j).lport) = _
  rw [Function.update_self]

theorem Ok.accForget (h : S.Ok) (fd : Nat) :
    ({ S.accForget fd with accepted := S.accepted.erase fd } : AccHook).Ok := by
  have hnodup := h.nodup.erase fd
  have hkeep : ∀ k, (S.g_acc k).used = true → (S.g_acc k).gsock ≠ fd →
      (S.g_acc k).gsock ∈ S.accepted.erase fd := fun k hu hne =>
    (List.mem_erase_of_ne hne).mpr (h.acc k hu)
  unfold AccHook.accForget
  cases hj : first S.g_acc (fun a => a.used && a.gsock == fd) with
  | none =>
    refine ⟨h.live, fun k hu => hkeep k hu fun heq => ?_, h.apart, hnodup⟩
    have hno := first_eq_none_iff.mp hj k
    rw [hu, heq, beq_self_eq_true] at hno
    cases hno
  | some j =>
    have ht : ((S.g_acc j).used && (S.g_acc j).gsock == fd) = true := first_mem hj
    obtain ⟨hju, hjg⟩ := Bool.and_eq_true_iff.mp ht
    have hoff : ∀ k, (Function.update S.g_acc j { S.g_acc j with used := false } k).used = true →
        k ≠ j ∧ (S.g_acc k).used = true := fun k hu => by
      by_cases hkj : k = j
      · rw [hkj, Function.update_self] at hu
        cases hu
      · rw [Function.update_of_ne hkj] at hu
        exact ⟨hkj, hu⟩
    refine ⟨h.live, fun k hu => ?_, fun k l hk hl heq => ?_, hnodup⟩
    · obtain ⟨hkj, hu⟩ := hoff k hu
      show (Function.update S.g_acc j _ k).gsock ∈ _
      rw [Function.update_of_ne hkj]
      exact hkeep k hu fun heq => hkj (h.apart k j hu hju (heq.trans (beq_iff_eq.mp hjg).symm))
    · obtain ⟨hkj, hku⟩ := hoff k hk
      obtain ⟨hlj, hlu⟩ := hoff l hl
      change (Function.update S.g_acc j _ k).gsock = (Function.update S.g_acc j _ l).gsock at heq
      rw [Function.update_of_ne hkj, Function.update_of_ne hlj] at heq
      exact h.apart k l hku hlu heq

theorem Ok.postAccept (h : S.Ok) {fd : Nat} (hfd : fd ∉ S.accepted) (p : Nat) :
    ({ (S.postAccept fd p).1 with accepted := fd :: S.accepted } : AccHook).Ok := by
  show ({ S.accLearn fd p 0 with accepted := fd :: S.accepted } : AccHook).Ok
  unfold AccHook.accLearn
  cases S.learnRow p 0 with
  | some i =>
    have hrow : (S.setHs i { S.g_hs i with accsp := p }).Ok := h.setHs (h.live i)
    exact hrow.accSet hfd _ _ _
  | none =>
    cases S.learnUsess p with
    | some i => exact h.accSet hfd _ _ _
    | none => exact ⟨h.live, fun j hu => List.mem_cons_of_mem _ (h.acc j hu), h.apart,
        List.nodup_cons.mpr ⟨hfd, h.nodup⟩⟩

theorem Ok.step {a : AccAct} (h : S.Ok) (hs : S.step a = some S') : S'.Ok := by
  cases a with
  | streq sid gport ovirt =>
    rw [← Option.some.inj hs]
    unfold AccHook.streq
    split
    · exact h.setHs nofun
    · exact h
  | connected sid s p =>
    obtain ⟨-, hs⟩ := Option.ite_none_left_eq_some.mp hs
    rw [← Option.some.inj hs]
    refine (h.onHs sid (f := fun h => if h.live then h else { h with bridge := some p })
      fun r hr hu hl => ?_).congr rfl rfl rfl
    by_cases hlive : r.live = true
    · rw [if_pos hlive] at hu ⊢
      exact hr hu hlive
    · rw [if_neg hlive] at hl
      exact absurd hl hlive
  | record k =>
    obtain ⟨x, -, rfl⟩ := Option.map_eq_some_iff.mp hs
    exact (h.onHs x.1 (f := fun h => { h with
      real := some x.2.1, live := true, last := S.now, lport := x.2.2, bridge := some x.2.2 })
      fun _ _ _ _ => rfl).congr rfl rfl rfl
  | joined sid fd =>
    rw [← Option.some.inj hs]
    exact h.onHs sid fun _ hr => hr
  | hsClose sid =>
    rw [← Option.some.inj hs]
    exact h.onHs sid fun _ _ hu => nomatch hu
  | sweep =>
    rw [← Option.some.inj hs]
    refine h.hosted fun i hu hl => ?_
    dsimp only at hu hl ⊢
    split at hu
    · cases hu
    next hno =>
      rw [if_neg hno] at hl ⊢
      exact h.live i hu hl
  | tick ms | usess g_us =>
    rw [← Option.some.inj hs]
    exact h.congr rfl rfl rfl
  | accept fd p =>
    obtain ⟨hno, hs⟩ := Option.ite_none_left_eq_some.mp hs
    rw [← Option.some.inj hs]
    exact h.postAccept (fun hm => hno (Or.inr hm)) p
  | close fd =>
    rw [← Option.some.inj hs]
    exact h.accForget fd

/-- **An accept that is clear is right.** -/
theorem Ok.right (h : S.Ok) {fd p : Nat} (hfd : fd ∉ S.accepted) (hp : p ≠ 0) (hc : S.Clear p) :
    S.Right fd p := by
  have hnone := h.noRow hfd
  -- the row that is picked has the port in `lport` or in `accsp`
  have hrow : ∀ i, S.learnRow p 0 = some i →
      (S.g_hs i).owns p = true ∨ (S.g_hs i).leftover p = true := fun i hi => by
    have ht := first_mem hi
    simp only [Bool.and_eq_true, Bool.or_eq_true, bne_iff_ne, beq_iff_eq] at ht
    obtain ⟨⟨⟨hu, hl⟩, ho⟩, ht⟩ := ht
    by_cases hlp : (S.g_hs i).lport = p
    · left
      unfold HostedRow.owns
      rw [hu, h.live i hu hl, hlp]
      exact beq_self_eq_true _
    · right
      have hacc : (S.g_hs i).accsp = p := by
        rcases ht with (ht | ht) | ht
        · exact absurd ht.2 hlp
        · exact ht.2
        · exact absurd rfl ht.1
      simp [HostedRow.leftover, hu, hl, ho, hacc, hlp]
  unfold AccHook.Clear at hc
  rcases Option.eq_none_or_eq_some (first S.g_hs (·.owns p)) with hf | ⟨i, hf⟩
  · rw [hf] at hc
    have hc := And.intro (Option.isNone_iff_eq_none.mp hc.1) (Option.isNone_iff_eq_none.mp hc.2)
    have hnorow : S.learnRow p 0 = none := by
      rcases Option.eq_none_or_eq_some (S.learnRow p 0) with hl | ⟨i, hl⟩
      · exact hl
      · have h1 := first_eq_none_iff.mp hf i
        have h2 := first_eq_none_iff.mp hc.1 i
        rcases hrow i hl with ho | ho
        · exact absurd (h1.symm.trans ho) Bool.false_ne_true
        · exact absurd (h2.symm.trans ho) Bool.false_ne_true
    have hshown : (S.postAccept fd p).2 = none := by
      show (S.accLearn fd p 0).accGet fd = none
      unfold AccHook.accLearn
      rw [hnorow, hc.2]
      unfold AccHook.accGet
      rw [hnone]
      rfl
    exact ⟨fun k hk => absurd ((first_eq_none_iff.mp hf k).symm.trans hk) Bool.false_ne_true,
      fun _ => hshown⟩
  · rw [hf] at hc
    obtain ⟨hrec, hroom, hleft⟩ := hc
    have hrec := Option.isNone_iff_eq_none.mp hrec
    have hroom := Option.ne_none_iff_isSome.mpr hroom
    have hshows : ∀ k, (S.g_hs k).owns p = true →
        (S.g_hs k).live = true ∧ (S.g_hs k).ovirt ≠ 0 ∧ (S.g_hs k).ovirt = (S.g_hs i).ovirt :=
      fun k hk => by
        have hno := first_eq_none_iff.mp hrec k
        rw [hk, Bool.true_and, Bool.not_eq_false'] at hno
        simp only [HostedRow.shows, Bool.and_eq_true, bne_iff_ne, beq_iff_eq] at hno
        exact ⟨hno.1.1, hno.1.2, hno.2⟩
    have hown : (S.g_hs i).owns p = true := first_mem hf
    obtain ⟨hlive, hne, -⟩ := hshows i hown
    obtain ⟨hu, hb⟩ := Bool.and_eq_true_iff.mp hown
    have hlp : (S.g_hs i).lport = p :=
      Option.some.inj ((h.live i hu hlive).symm.trans (beq_iff_eq.mp hb))
    obtain ⟨m, hmi, hm⟩ := first_isSome (T := S.g_hs) (i := i) (p := fun h =>
      h.used && h.live && h.ovirt != 0 && ((p != 0 && h.lport == p) || (p != 0 && h.accsp == p) ||
        ((0 : Nat) != 0 && h.lport == 0))) (by simp [hu, hlive, hne, hlp, hp])
    have hv : (S.g_hs m).ovirt = (S.g_hs i).ovirt := by
      rcases hrow m hm with ho | ho
      · exact (hshows m ho).2.2
      · by_contra hdiff
        obtain ⟨j, hjm, hj⟩ := first_isSome (T := S.g_hs) (i := m)
          (p := fun h => h.leftover p && h.ovirt != (S.g_hs i).ovirt) (by simp [ho, hdiff])
        rw [hj] at hleft
        exact absurd (of_decide_eq_true hleft) (not_lt.mpr (hjm.trans hmi))
    have hshown : (S.postAccept fd p).2 = some ⟨(S.g_hs m).ovirt, (S.g_hs m).lport⟩ := by
      show (S.accLearn fd p 0).accGet fd = _
      have hsel : S.learnRow p 0 = some m := hm
      unfold AccHook.accLearn
      rw [hsel]
      have hset : (S.setHs m { S.g_hs m with accsp := p }).Ok := h.setHs (h.live m)
      exact hset.accGet_accSet hfd hroom _ _ _
    refine ⟨fun k hk => ?_, fun hno => absurd ((hno i).symm.trans hown) Bool.false_ne_true⟩
    rw [hshown, (hshows k hk).2.2, ← hv]
    rfl

/-- **The right opener.**  In every run, an accept that is clear is right. -/
theorem right_run {tr : List (AccHook × AccAct)} {S : AccHook} (hp : Path AccHook.step init tr S) :
    ∀ x ∈ tr, x.1.ClearAt x.2 → x.1.RightAt x.2 := by
  rintro ⟨T, a⟩ hx hc
  have hstep : ∀ u l u', u.Ok → True → AccHook.step u l = some u' → u'.Ok :=
    fun _ _ _ h _ hs => h.step hs
  have hok : T.Ok :=
    hp.all_of_ok ok_init (fun _ h => h) hstep (fun _ _ => trivial) T (mem_visited hx)
  obtain ⟨u, hu⟩ := hp.enabled hx
  cases a with
  | accept fd p =>
    obtain ⟨hno, -⟩ := Option.ite_none_left_eq_some.mp hu
    exact hok.right (fun hm => hno (Or.inr hm)) (fun h0 => hno (Or.inl h0)) hc
  | _ => trivial

/-! ### three accepts -/

/-- a session of node `10.77.0.2` is bridged from port 40001, which the game accepts as socket 7 -/
def bridged : List AccAct :=
  [.streq 5 27015 0x0A4D0002, .connected 5 9 40001, .record 0, .accept 7 40001]

def ownMachine : List AccAct := bridged ++ [AccAct.accept 8 40002]

/-- the game also accepts a connection of its own machine -/
theorem right_bridged : ∃ tr S, Path AccHook.step init tr S ∧
    S.accGet 7 = some ⟨0x0A4D0002, 40001⟩ ∧ S.accGet 8 = none ∧
    ∀ x ∈ tr, x.1.RightAt x.2 := by
  have hrun : (run AccHook.step init ownMachine).isSome = true := by decide +kernel
  obtain ⟨S, hS⟩ := Option.isSome_iff_exists.mp hrun
  have hend : ∀ S ∈ run AccHook.step init ownMachine,
      S.accGet 7 = some ⟨0x0A4D0002, 40001⟩ ∧ S.accGet 8 = none := by
    decide +kernel
  have hclear : ∀ x ∈ trace AccHook.step init ownMachine, x.1.ClearAt x.2 := by decide +kernel
  exact ⟨_, S, path_run hS, (hend S hS).1, (hend S hS).2, fun x hx =>
    right_run (path_run hS) x hx (hclear x hx)⟩

/-- the session ends, and the row is taken over by one of node `10.77.0.3` -/
def takenOver : List AccAct :=
  bridged ++ ([.close 7, .hsClose 5, .streq 6 27015 0x0A4D0003, .connected 6 9 40003,
    .record 0] : List AccAct)

/-- the game accepts before the bridge has recorded its port; and a connection of its own machine
from the port that the row's last session had is shown with the new session's opener -/
theorem wrong_accepts :
    (∃ tr S, Path AccHook.step init tr S ∧ (S.g_hs 0).owns 40001 = true ∧
      (S.postAccept 7 40001).2 = none ∧ ¬ S.Right 7 40001) ∧
    ∃ tr S, Path AccHook.step init tr S ∧ (S.g_hs 0).bridge = some 40003 ∧
      (S.postAccept 7 40001).2 = some ⟨0x0A4D0003, 40003⟩ ∧ ¬ S.Right 7 40001 := by
  constructor
  · have hrun : (run AccHook.step init [.streq 5 27015 0x0A4D0002, .connected 5 9 40001]).isSome
        = true := by decide
    obtain ⟨S, hS⟩ := Option.isSome_iff_exists.mp hrun
    have hend : ∀ S ∈ run AccHook.step init [.streq 5 27015 0x0A4D0002, .connected 5 9 40001],
        (S.g_hs 0).owns 40001 = true ∧ (S.postAccept 7 40001).2 = none := by
      decide +kernel
    obtain ⟨hown, hnone⟩ := hend S hS
    refine ⟨_, S, path_run hS, hown, hnone, fun hr => ?_⟩
    have h := hr.opener 0 hown
    rw [hnone] at h
    cases h
  · have hrun : (run AccHook.step init takenOver).isSome = true := by decide +kernel
    obtain ⟨S, hS⟩ := Option.isSome_iff_exists.mp hrun
    have hend : ∀ S ∈ run AccHook.step init takenOver, (S.g_hs 0).bridge = some 40003 ∧
        (S.postAccept 7 40001).2 = some ⟨0x0A4D0003, 40003⟩ ∧
        first S.g_hs (·.owns 40001) = none := by
      decide +kernel
    obtain ⟨hb, hshown, hno⟩ := hend S hS
    refine ⟨_, S, path_run hS, hb, hshown, fun hr => ?_⟩
    have h := hr.loopback (first_eq_none_iff.mp hno)
    rw [hshown] at h
    cases h

end AccHook

end ShadowLan
