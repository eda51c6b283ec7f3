import ShadowLan.Hook.GameUdp
import ShadowLan.Hook.Ledger

/-!
# `bind()`

A hooked bind claims the port in the ledger of the node first, and then binds for real.  When that
fails the claim is undone: `slp_release` clears every row of the port that is recorded for this
process, whether this call wrote it or not.

* `BindHook.bind`       `bind` of the Linux hook;
* `BindHook.NoTrace`    the rows that other open sockets hold and the alias table are as before;
* `BindHook.Touches`    the rows that a claim and its release change;
* `bind_error_iff`      a failed bind leaves no trace exactly when no other open socket holds such a
                        row, or the claim was refused.

The sockets and what they hold are those of the ledger before the call.
-/

namespace ShadowLan

def INADDR_ANY : Nat := 0

/-- `errno` of a bind -/
inductive BindErr where
  | EADDRINUSE
  | other (errno : Nat)
  deriving DecidableEq

/-- answers of the operating system to a bind -/
structure BindOs where
  bind : SockaddrIn → Except BindErr Unit
  /-- `dt_sock_type`, negative when it fails -/
  sockType : Nat → Int
  /-- `SO_REUSEADDR`; `none` when `getsockopt` fails -/
  reuse : Nat → Option Int
  /-- the port of the socket once it is bound; `none` when `getsockname` fails -/
  port : Nat → Option Nat

/-- a socket whose type is unknown is a stream socket -/
def BindOs.proto (os : BindOs) (s : Nat) : Int :=
  if os.sockType s < 0 then (SOCK_STREAM : Int) else os.sockType s

def BindOs.reuseaddr (os : BindOs) (s : Nat) : Int := (os.reuse s).getD 0

/-- a process with the hook, and the ledger of its machine -/
structure BindHook where
  g_direct : Bool
  me : Proc
  /-- `slp_attach` -/
  attached : Bool
  ledger : Ledger
  udp : UdpHook

/-- the row that a claim of `me` writes -/
def slpTarget (procs : List Proc) (me : Proc) (e : Slp) (vport proto : Int) : Option (Fin SLP_MAX) :=
  match first e fun x => x.is (me.port vport proto) with
  | some i => if slpAlive procs (e i) = false then some i else none
  | none => slpSlot procs e

namespace BindHook
variable (H : BindHook)

/-! ## the ledger -/

def claim (vport proto reuse real : Int) : BindHook × Int :=
  if H.attached then
    let r := slpClaim H.ledger.procs H.me H.ledger.e vport proto reuse real
    ({ H with ledger := { H.ledger with e := r.1 } }, r.2)
  else (H, -2)

def release (vport proto : Int) : BindHook :=
  if H.attached then
    { H with ledger := { H.ledger with e := slpRelease H.me H.ledger.e vport proto } }
  else H

/-- `slp_used() > 0` -/
def slpUsed : Bool := H.attached && (first H.ledger.e fun x => x.used).isSome

/-- `slp_taken` -/
def slpTaken (vport : Int) : Bool :=
  H.attached && (first H.ledger.e fun x => x.used && x.node == H.me.node && x.vport == vport).isSome

/-! ## `bind` -/

/-- `dt_alias_add` -/
def aliasAdd (s vport real : Nat) (proto : Int) : BindHook :=
  { H with udp := { H.udp with g_ta := H.udp.g_ta.add s vport real (uchar proto) } }

/-- `if (bindv) dt_alias_bindv(s)` -/
def aliasBindv (s : Nat) (bindv : Bool) : BindHook :=
  if bindv then { H with udp := { H.udp with g_ta := H.udp.g_ta.bindv s } } else H

/-- `if (..) dt_udp_entry(s, 1)` -/
def udpEntry (s : Nat) (wanted : Bool) : BindHook :=
  if wanted then { H with udp := (H.udp.udpCreate s).1 } else H

/-- `dt_udp_entry(s, 1)->vport = vport` -/
def udpVport (s vport : Nat) : BindHook :=
  let r := H.udp.udpCreate s
  { H with udp := match r.2 with
    | some i => { r.1 with g_uq := Function.update r.1.g_uq i { r.1.g_uq i with vport := vport } }
    | none => r.1 }

/-- `dt_bind_alias`; `none` is its -1 -/
def bindAlias (os : BindOs) (s : Nat) (want : SockaddrIn) (isDgram : Bool) : Option BindHook :=
  match os.bind ⟨INADDR_ANY, 0⟩ with
  | .error _ => none
  | .ok () =>
    let H := H.aliasAdd s want.port ((os.port s).getD 0) (if isDgram then SOCK_DGRAM else SOCK_STREAM)
    some (if isDgram then H.udpVport s want.port else H)

/-- `bind` to a port of the app's choice -/
def bindPort (os : BindOs) (s : Nat) (a : SockaddrIn) (bindv : Bool) (proto reuse : Int) :
    BindHook × Except BindErr Unit :=
  let (H, rv) := H.claim a.port proto reuse a.port
  if rv = -1 then (H, .error .EADDRINUSE)
  else
    match os.bind a with
    | .ok () =>
      let H := (H.aliasAdd s a.port a.port proto).udpEntry s (bindv && proto == SOCK_DGRAM)
      (H.aliasBindv s bindv, .ok ())
    | .error .EADDRINUSE =>
      -- the port belongs to another node of this machine
      match H.bindAlias os s a (proto == SOCK_DGRAM) with
      | some H => ((H.aliasBindv s bindv).udpEntry s (proto == SOCK_DGRAM), .ok ())
      | none => (H.release a.port proto, .error .EADDRINUSE)
    | .error e => (H.release a.port proto, .error e)

/-- the ports that `bind(0)` tries -/
def freePorts : List Nat := (List.range 4096).map fun i => 49152 + (H.me.pid % 4096 + i) % 16383

/-- `bind(0)` tries one port after the other, until an error other than `EADDRINUSE`; `none` is
none of them -/
def tryPorts (os : BindOs) (s : Nat) (a : SockaddrIn) (bindv : Bool) (proto : Int) :
    BindHook → List Nat → BindHook × Option Unit
  | H, [] => (H, none)
  | H, p :: rest =>
    if H.slpTaken p then tryPorts os s a bindv proto H rest
    else
      let (H, rv) := H.claim p proto 1 0
      if rv = -1 then tryPorts os s a bindv proto H rest
      else
        match os.bind { a with port := p } with
        | .ok () =>
          let H := H.aliasAdd s p p proto
          let H := if proto = SOCK_DGRAM then H.udpVport s p else H
          (H.aliasBindv s bindv, some ())
        | .error .EADDRINUSE => tryPorts os s a bindv proto (H.release p proto) rest
        | .error _ => (H.release p proto, none)

/-- `bind(0)` -/
def bindFree (os : BindOs) (s : Nat) (a : SockaddrIn) (bindv : Bool) (proto reuse : Int) :
    BindHook × Except BindErr Unit :=
  let r := if H.udp.net.g_lan_only || H.slpUsed then tryPorts os s a bindv proto H H.freePorts
    else (H, none)
  match r with
  | (H, some ()) => (H, .ok ())
  | (H, none) =>
    match os.bind { a with port := 0 }, os.port s with
    | .ok (), some p =>
      let H := ((H.claim p proto reuse p).1.aliasAdd s p p proto)
      ((H.udpEntry s (bindv && proto == SOCK_DGRAM)).aliasBindv s bindv, .ok ())
    | r, _ => (H, r)

def bind (os : BindOs) (s : Nat) (a : SockaddrIn) : BindHook × Except BindErr Unit :=
  if !H.g_direct then (H, os.bind a)
  else
    let bindv := H.udp.net.g_myvirt != 0 && a.addr == H.udp.net.g_myvirt
    let a := if bindv then { a with addr := INADDR_ANY } else a
    if a.port ≠ 0 then H.bindPort os s a bindv (os.proto s) (os.reuseaddr s)
    else H.bindFree os s a bindv (os.proto s) (os.reuseaddr s)

/-! ## traces -/

/-- an open socket other than `s` holds the port of row `i` -/
def HeldByOther (s : Nat) (i : Fin SLP_MAX) : Prop :=
  ∃ h ∈ H.ledger.holders, ¬ (h.proc = H.me ∧ h.fd = s) ∧ (H.ledger.e i).is h.port = true

/-- what other open sockets hold and the alias table are in `H'` as they are in `H` -/
structure NoTrace (s : Nat) (H' : BindHook) : Prop where
  entries : ∀ i, H.HeldByOther s i → H'.ledger.e i = H.ledger.e i
  aliases : H'.udp.g_ta = H.udp.g_ta

/-- row `i` is the one that a claim writes, or one of the port that is recorded for this process -/
def Touches (vport proto : Int) (i : Fin SLP_MAX) : Prop :=
  slpTarget H.ledger.procs H.me H.ledger.e vport proto = some i ∨
    (H.ledger.e i).is (H.me.port vport proto) = true ∧ (H.ledger.e i).pid = H.me.pid

/-- The condition: the claim is refused, or it and its release change no row that another open socket
holds. -/
def Harmless (os : BindOs) (s : Nat) (port : Nat) : Prop :=
  H.g_direct = false ∨ H.attached = false ∨
    H.ledger.answer H.me port (os.proto s) (os.reuseaddr s) port = -1 ∨
    ∀ i, H.Touches port (os.proto s) i → ¬ H.HeldByOther s i

end BindHook

/-! ## a claim and its release -/

section
variable {procs : List Proc} {me : Proc} {e : Slp} {vport proto reuse real : Int}

theorem slpClaim_target (reuse real : Int) {i : Fin SLP_MAX}
    (h : slpTarget procs me e vport proto = some i) :
    ∃ x, (slpClaim procs me e vport proto reuse real).1 = Function.update e i x ∧
      x.is (me.port vport proto) = true ∧ x.pid = me.pid := by
  unfold slpTarget at h
  unfold slpClaim
  cases hf : first e fun x => x.is (me.port vport proto) with
  | some j =>
    rw [hf] at h
    obtain ⟨hd, h⟩ := Option.ite_none_right_eq_some.mp h
    cases h
    have hi := first_mem hf
    dsimp only
    rw [if_pos hd]
    exact ⟨_, rfl, hi, rfl⟩
  | none =>
    rw [hf] at h
    have hs : slpSlot procs e = some i := h
    dsimp only
    rw [hs]
    exact ⟨_, rfl, by simp [SlpEnt.is, Proc.port], rfl⟩

theorem slpClaim_no_target (h : slpTarget procs me e vport proto = none) :
    (slpClaim procs me e vport proto reuse real).1 = e := by
  unfold slpTarget at h
  unfold slpClaim
  cases hf : first e fun x => x.is (me.port vport proto) with
  | some j =>
    rw [hf] at h
    have hd : ¬ slpAlive procs (e j) = false := fun hd => by simp [hd] at h
    dsimp only
    rw [if_neg hd]
    split
    · rfl
    · rfl
  | none =>
    rw [hf] at h
    have hs : slpSlot procs e = none := h
    dsimp only
    rw [hs]

theorem slpRelease_other {i : Fin SLP_MAX}
    (h : ¬ ((e i).is (me.port vport proto) = true ∧ (e i).pid = me.pid)) :
    slpRelease me e vport proto i = e i := if_neg h

end

namespace BindHook
variable {H H' : BindHook} {os : BindOs} {s : Nat}

/-- a claim that is undone -/
def undone (H : BindHook) (vport proto reuse real : Int) : Slp :=
  slpRelease H.me (slpClaim H.ledger.procs H.me H.ledger.e vport proto reuse real).1 vport proto

theorem undone_touched {vport proto reuse real : Int} {i : Fin SLP_MAX}
    (h : H.Touches vport proto i) : (H.undone vport proto reuse real i).used = false := by
  unfold undone
  cases ht : slpTarget H.ledger.procs H.me H.ledger.e vport proto with
  | some j =>
    obtain ⟨x, hx, hk, hp⟩ := slpClaim_target reuse real ht
    rw [hx]
    by_cases hij : i = j
    · subst hij
      exact slpRelease_self (by rw [Function.update_self]; exact hk)
        (by rw [Function.update_self]; exact hp)
    · rcases h with h | ⟨h1, h2⟩
      · rw [ht] at h
        exact absurd (Option.some.inj h).symm hij
      · exact slpRelease_self (by rw [Function.update_of_ne hij]; exact h1)
          (by rw [Function.update_of_ne hij]; exact h2)
  | none =>
    rw [slpClaim_no_target ht]
    rcases h with h | ⟨h1, h2⟩
    · rw [ht] at h
      cases h
    · exact slpRelease_self h1 h2

theorem undone_other {vport proto reuse real : Int} {i : Fin SLP_MAX}
    (h : ¬ H.Touches vport proto i) : H.undone vport proto reuse real i = H.ledger.e i := by
  unfold Touches at h
  rw [not_or] at h
  obtain ⟨hn, hr⟩ := h
  unfold undone
  cases ht : slpTarget H.ledger.procs H.me H.ledger.e vport proto with
  | some j =>
    obtain ⟨x, hx, -, -⟩ := slpClaim_target reuse real ht
    have hij : i ≠ j := fun he => hn (by rw [ht, he])
    rw [hx]
    have hsame : Function.update H.ledger.e j x i = H.ledger.e i := Function.update_of_ne hij ..
    rw [slpRelease_other (by rw [hsame]; exact hr), hsame]
  | none =>
    rw [slpClaim_no_target ht]
    exact slpRelease_other hr

theorem HeldByOther.used {i : Fin SLP_MAX} (h : H.HeldByOther s i) :
    (H.ledger.e i).used = true := by
  obtain ⟨x, -, -, hx⟩ := h
  exact SlpEnt.used_of_is hx

/-- an undone claim leaves no trace exactly when nobody else holds what it touches -/
theorem undone_noTrace_iff {vport proto reuse real : Int} :
    (∀ i, H.HeldByOther s i → H.undone vport proto reuse real i = H.ledger.e i) ↔
      ∀ i, H.Touches vport proto i → ¬ H.HeldByOther s i := by
  constructor
  · intro h i ht hh
    have hused := hh.used
    rw [← h i hh, undone_touched ht] at hused
    cases hused
  · intro h i hh
    exact undone_other fun ht => h i ht hh

/-! ## failed binds -/

theorem claim_conflict {vport proto reuse real : Int}
    (h : (H.claim vport proto reuse real).2 = -1) :
    H.attached = true ∧ H.ledger.answer H.me vport proto reuse real = -1 ∧
      (H.claim vport proto reuse real).1 = H := by
  unfold claim at h ⊢
  by_cases ha : H.attached = true
  · rw [if_pos ha] at h
    rw [if_pos ha]
    refine ⟨ha, h, ?_⟩
    have he : (slpClaim H.ledger.procs H.me H.ledger.e vport proto reuse real).1 = H.ledger.e := by
      rcases slpClaim_cases H.ledger.procs H.me H.ledger.e vport proto reuse real with
        ⟨i, x, hc, -⟩ | ⟨i, hc, -⟩ | hc | hc
      · rw [hc] at h
        cases h
      all_goals rw [hc]
    dsimp only
    rw [he]
  · rw [if_neg ha] at h
    cases h

/-- a bind that fails was refused by the ledger, or has undone its claim -/
theorem bindPort_error {a : SockaddrIn} {bindv : Bool} {proto reuse : Int} {e : BindErr}
    (h : H.bindPort os s a bindv proto reuse = (H', .error e)) :
    (H.claim a.port proto reuse a.port).2 = -1 ∧ H' = H ∨
      (H.claim a.port proto reuse a.port).2 ≠ -1 ∧
        H' = (H.claim a.port proto reuse a.port).1.release a.port proto := by
  unfold bindPort at h
  dsimp only at h
  by_cases hc : (H.claim a.port proto reuse a.port).2 = -1
  · rw [if_pos hc] at h
    exact Or.inl ⟨hc, (Prod.mk.inj h).1.symm.trans (claim_conflict hc).2.2⟩
  · rw [if_neg hc] at h
    refine Or.inr ⟨hc, ?_⟩
    cases hb : os.bind a with
    | ok u =>
      rw [hb] at h
      exact absurd (Prod.mk.inj h).2 (by simp)
    | error x =>
      rw [hb] at h
      cases x with
      | EADDRINUSE =>
        dsimp only at h
        cases hal : bindAlias (H.claim a.port proto reuse a.port).1 os s a (proto == SOCK_DGRAM) with
        | some H₁ =>
          rw [hal] at h
          exact absurd (Prod.mk.inj h).2 (by simp)
        | none =>
          rw [hal] at h
          exact (Prod.mk.inj h).1.symm
      | other n => exact (Prod.mk.inj h).1.symm

/-- what a claim and its release leave -/
theorem claim_release (H : BindHook) (vport proto reuse real : Int) :
    ((H.claim vport proto reuse real).1.release vport proto).ledger.e =
        (if H.attached then H.undone vport proto reuse real else H.ledger.e) ∧
      ((H.claim vport proto reuse real).1.release vport proto).udp = H.udp := by
  unfold claim release undone
  by_cases ha : H.attached = true
  · rw [if_pos ha]
    dsimp only
    rw [if_pos ha, if_pos ha]
    exact ⟨rfl, rfl⟩
  · rw [if_neg ha, if_neg ha, if_neg ha]
    exact ⟨rfl, rfl⟩

theorem noTrace_refl (H : BindHook) (s : Nat) : H.NoTrace s H := ⟨fun _ _ => rfl, rfl⟩

theorem bindPort_error_iff {a : SockaddrIn} {bindv : Bool} {e : BindErr} (hd : H.g_direct = true)
    (h : H.bindPort os s a bindv (os.proto s) (os.reuseaddr s) = (H', .error e)) :
    H.NoTrace s H' ↔ H.Harmless os s a.port := by
  rcases bindPort_error h with ⟨hc, rfl⟩ | ⟨hc, rfl⟩
  · exact iff_of_true (noTrace_refl H' s) (Or.inr (Or.inr (Or.inl (claim_conflict hc).2.1)))
  obtain ⟨he, hu⟩ := claim_release H a.port (os.proto s) (os.reuseaddr s) a.port
  have hiff : H.NoTrace s ((H.claim a.port (os.proto s) (os.reuseaddr s) a.port).1.release
      a.port (os.proto s)) ↔ ∀ i, H.HeldByOther s i →
        (if H.attached then H.undone a.port (os.proto s) (os.reuseaddr s) a.port
          else H.ledger.e) i = H.ledger.e i := by
    rw [← he]
    exact ⟨fun h => h.entries, fun h => ⟨h, by rw [hu]⟩⟩
  rw [hiff]
  unfold Harmless
  cases ha : H.attached with
  | false => exact iff_of_true (fun _ _ => rfl) (Or.inr (Or.inl rfl))
  | true =>
    have hans : H.ledger.answer H.me a.port (os.proto s) (os.reuseaddr s) a.port ≠ -1 := by
      unfold claim at hc
      rw [if_pos ha] at hc
      exact hc
    rw [if_pos rfl, undone_noTrace_iff, hd]
    simp only [Bool.true_eq_false, false_or, or_iff_right hans]

/-- **A failed bind leaves no trace** exactly when its claim was refused, or neither the row that the
claim wrote nor a row of the port that is recorded for this process is held by another open socket. -/
theorem bind_error_iff {a : SockaddrIn} {e : BindErr} (hp : a.port ≠ 0)
    (h : H.bind os s a = (H', .error e)) : H.NoTrace s H' ↔ H.Harmless os s a.port := by
  unfold bind at h
  cases hd : H.g_direct with
  | false =>
    rw [hd] at h
    rw [← (Prod.mk.inj h).1]
    exact iff_of_true (noTrace_refl H s) (Or.inl hd)
  | true =>
    rw [hd] at h
    dsimp only at h
    generalize (H.udp.net.g_myvirt != 0 && a.addr == H.udp.net.g_myvirt) = bindv at h
    have hport : (if bindv then { a with addr := INADDR_ANY } else a).port = a.port := by
      cases bindv <;> rfl
    rw [if_neg (by decide), if_pos (by rw [hport]; exact hp)] at h
    have hiff := bindPort_error_iff hd h
    rw [hport] at hiff
    exact hiff

open Ledger (procA procB)

/-- the process with the ledger of its machine -/
def hooked (me : Proc) (L : Ledger) : BindHook := ⟨true, me, true, L, .init⟩

/-- an address that is not one of this machine, for datagram sockets with `SO_REUSEADDR` -/
def notAvail : BindOs where
  bind _ := .error (.other 99)
  sockType _ := 2
  reuse _ := some 1
  port _ := none

/-- procB serves datagram port 80 -/
def servedByB : List Action := [.start procA, .start procB, .claim procB 3 80 2 0 80]

/-- then procA may not -/
theorem bind_refused : ∃ L, run Ledger.step .boot servedByB = some L ∧
    ((hooked procA L).bind notAvail 4 ⟨0xC0000201, 80⟩).2 = .error .EADDRINUSE ∧
    (hooked procA L).NoTrace 4 ((hooked procA L).bind notAvail 4 ⟨0xC0000201, 80⟩).1 := by
  have hsome : (run Ledger.step .boot servedByB).isSome = true := by decide +kernel
  obtain ⟨L, hL⟩ := Option.isSome_iff_exists.mp hsome
  have hall : ∀ L ∈ run Ledger.step .boot servedByB,
      ((hooked procA L).bind notAvail 4 ⟨0xC0000201, 80⟩).2 = .error .EADDRINUSE ∧
        L.answer procA 80 2 1 80 = -1 := by
    decide +kernel
  obtain ⟨he, ha⟩ := hall L hL
  have hb : (hooked procA L).bind notAvail 4 ⟨0xC0000201, 80⟩ =
      (((hooked procA L).bind notAvail 4 ⟨0xC0000201, 80⟩).1, .error .EADDRINUSE) :=
    Prod.ext rfl he
  exact ⟨L, hL, he, (bind_error_iff (by decide) hb).mpr (Or.inr (Or.inr (Or.inl ha)))⟩

/-- socket 3 of procA serves a datagram port with `SO_REUSEADDR` -/
def servedByA : List Action := [.start procA, .start procB, .claim procA 3 27015 2 1 27015]

/-- a bind of its socket 4 to the same port fails: now another process of the node gets the port -/
theorem failed_bind_frees : ∃ L, run Ledger.step .boot servedByA = some L ∧
    ((hooked procA L).bind notAvail 4 ⟨0xC0000201, 27015⟩).2 = .error (.other 99) ∧
    ¬ (hooked procA L).NoTrace 4 ((hooked procA L).bind notAvail 4 ⟨0xC0000201, 27015⟩).1 ∧
    ((hooked procA L).bind notAvail 4 ⟨0xC0000201, 27015⟩).1.ledger.answer procB 27015 2 0 27015
      = 0 := by
  have hsome : (run Ledger.step .boot servedByA).isSome = true := by decide +kernel
  obtain ⟨L, hL⟩ := Option.isSome_iff_exists.mp hsome
  have hall : ∀ L ∈ run Ledger.step .boot servedByA,
      ((hooked procA L).bind notAvail 4 ⟨0xC0000201, 27015⟩).2 = .error (.other 99) ∧
      (((hooked procA L).bind notAvail 4 ⟨0xC0000201, 27015⟩).1.ledger.e 0).used = false ∧
      (L.e 0).is (procA.port 27015 2) = true ∧ ⟨procA, 3, procA.port 27015 2, 1⟩ ∈ L.holders ∧
      ((hooked procA L).bind notAvail 4 ⟨0xC0000201, 27015⟩).1.ledger.answer procB 27015 2 0 27015
        = 0 := by
    decide +kernel
  obtain ⟨he, hfree, hrow, hheld, hans⟩ := hall L hL
  have hother : ¬ (procA = procA ∧ 3 = 4) := by decide
  refine ⟨L, hL, he, fun hn => ?_, hans⟩
  have hsame := hn.entries 0 ⟨_, hheld, hother, hrow⟩
  rw [hsame] at hfree
  have hused : (L.e 0).used = true := SlpEnt.used_of_is hrow
  exact absurd (hused.symm.trans hfree) (by decide)

end BindHook

end ShadowLan
