import ShadowLan.Lib.Dict
import ShadowLan.Lib.Runs
import ShadowLan.Hook.Hosted

/-!
# The source of an injected datagram

`dt_hosted_udp_in` sends a datagram for a game hosted here from the loopback socket of its session,
and then records the local port of that socket in the session's row.  `dt_hosted_unsource` looks for
the port that a datagram came from among these rows, and shows the game the player's address
instead.

* `InjHook.step`   the lookup, the send, `getsockname` and the record of one call are steps of their
                   own; sessions expire, rows are taken over, the game receives;
* `Right`          a datagram is received with the address of the session it was injected for;
* `Calm`           the condition on a step: the session has recorded its port when its datagram is
                   received, neither the datagram nor the buffer is empty, and no row is given up
                   while a datagram of its session is unread or a call for it is under way;
* `unsourced`      in a run of such steps every datagram is received with the right address.

The operating system gives a new socket a number that is not in use, and an unbound one a port that
is not.  The game has room for an address.
-/

namespace ShadowLan

/-- where a call of `dt_hosted_udp_in` is: the session is found, the datagram is sent, the port is
read off the socket -/
inductive InjStage where
  | found
  | sent
  | named (lp : Nat)
  deriving DecidableEq

/-- what a call knows of its socket's port -/
def InjStage.knows : InjStage → Nat → Prop
  | .found, _ => True
  | .sent, p => p ≠ 0
  | .named lp, p => lp = p ∧ p ≠ 0

/-- a call of `dt_hosted_udp_in`: `u`, `rs`, the datagram, and the session it is for -/
structure InjCall where
  u : Fin DT_MAXUSESS
  rs : Nat
  raw : Bytes
  cli : SockaddrIn
  stage : InjStage

/-- an unread datagram on a socket of the game: the port it came from, and the session that it was
injected for -/
structure Injected where
  u : Fin DT_MAXUSESS
  port : Nat
  raw : Bytes
  cli : SockaddrIn

/-- `socks` are the open sockets of sessions, with their local ports (0 before the first send);
`closing` are those whose session has expired, and which `dt_hosted_thread` has yet to close -/
structure InjHook where
  hook : UdpHook
  socks : Dict Nat Nat
  calls : List InjCall
  inbox : List Injected
  closing : List Nat

inductive InjAct where
  /-- `dt_usess_find` in `dt_hosted_udp_in` -/
  | find (os : Os) (g : UdpGame)
  /-- the send of the `k`-th call; `q` is the port of an unbound socket, and the datagram `arrives`
  if a socket of the game is there -/
  | send (k q : Nat) (arrives : Bool)
  | name (k : Nat)
  | record (k : Nat)
  /-- `dt_hosted_thread` looks at a row -/
  | expire (i : Fin DT_MAXUSESS)
  | closeFd (k : Nat)
  /-- `dt_hosted_thread` has carried an answer of the session back -/
  | answered (i : Fin DT_MAXUSESS)
  /-- the game receives the `k`-th datagram into a buffer of `blen` bytes -/
  | recv (k blen : Nat)
  | aliases (g_ta : AliasTable)
  | tick (ms : Nat)

namespace InjHook

def init : InjHook := ⟨.init, .empty, [], [], []⟩

variable (S : InjHook)

def row (i : Fin DT_MAXUSESS) : DtUsess := S.hook.g_us i

def setRow (i : Fin DT_MAXUSESS) (u : DtUsess) : InjHook :=
  { S with hook := { S.hook with g_us := Function.update S.hook.g_us i u } }

/-- a used row that `dt_usess_find` takes for a new session, or gives up in the attempt -/
def taken (os : Os) (i : Fin DT_MAXUSESS) : Bool :=
  (S.row i).used && S.hook.usessFree (S.row i) && (S.hook.usessSlot os).all (i ≤ ·)

/-- the sockets of these rows are closed -/
def closeTaken (os : Os) : Dict Nat Nat :=
  ((List.finRange DT_MAXUSESS).filterMap fun i =>
    if S.taken os i then (S.row i).real else none).foldl Dict.pop S.socks

/-- the open sockets after `dt_usess_find`; `none` if the new one has a number that is in use -/
def findSocks (os : Os) (gport : Nat) (cli : SockaddrIn) : Option (Dict Nat Nat) :=
  match S.hook.usessAt gport cli with
  | some _ => some S.socks
  | none =>
    match (S.hook.usessSlot os).bind os.socket with
    | some fd =>
      if (S.closeTaken os).get? fd = none then some ((S.closeTaken os).set fd 0) else none
    | none => some (S.closeTaken os)

/-- `dt_hosted_udp_in` up to its first unlock -/
def find (os : Os) (g : UdpGame) : Option InjHook :=
  match UdpHook.hostedCli g with
  | none => some S
  | some cli =>
    let gport := S.hook.realPort g.triple.gport
    (S.findSocks os gport cli).map fun socks =>
      match S.hook.usessFind os gport cli.addr cli g.triple with
      | (hook, none) => { S with hook := hook, socks := socks }
      | (hook, some i) =>
        let T := { S with hook := hook, socks := socks }.setRow i { hook.g_us i with last := S.hook.now }
        match (hook.g_us i).real with
        | none => T
        | some rs => { T with calls := T.calls ++ [⟨i, rs, g.raw, cli, .found⟩] }

/-- the send of a call; from a closed socket nothing is sent -/
def send (k q : Nat) (arrives : Bool) (c : InjCall) : Option InjHook :=
  match S.socks.get? c.rs with
  | none => some { S with calls := S.calls.eraseIdx k }
  | some p₀ =>
    if p₀ = 0 ∧ (q = 0 ∨ q ∈ S.socks.values) then none
    else
      let p := if p₀ = 0 then q else p₀
      some { S with
        socks := S.socks.set c.rs p,
        inbox := if arrives then S.inbox ++ [⟨c.u, p, c.raw, c.cli⟩] else S.inbox,
        calls := if c.raw = [] then S.calls.eraseIdx k
          else S.calls.set k { c with stage := .sent } }

/-- `dt_hosted_unsource`, of a datagram from this port of loopback -/
def hostedUnsource (port : Nat) : SockaddrIn :=
  match first S.hook.g_us fun u => u.used && u.lport == port with
  | some i => (S.row i).cli
  | none => ⟨INADDR_LOOPBACK, port⟩

/-- the source that `recvfrom` returns -/
def source (d : Injected) (blen : Nat) : SockaddrIn :=
  if 0 < min d.raw.length blen then S.hostedUnsource d.port else ⟨INADDR_LOOPBACK, d.port⟩

def step : InjAct → Option InjHook
  | .find os g => S.find os g
  | .send k q arrives =>
    match S.calls[k]? with
    | some c => if c.stage = .found then S.send k q arrives c else none
    | none => none
  | .name k =>
    match S.calls[k]? with
    | some c =>
      if c.stage = .sent then
        some { S with calls := S.calls.set k { c with stage := .named ((S.socks.get? c.rs).getD 0) } }
      else none
    | none => none
  | .record k =>
    match S.calls[k]? with
    | some c =>
      match c.stage with
      | .named lp =>
        let T := { S with calls := S.calls.eraseIdx k }
        some (if lp ≠ 0 ∧ (S.row c.u).lport = 0 then T.setRow c.u { S.row c.u with lport := lp } else T)
      | _ => none
    | none => none
  | .expire i =>
    if (S.row i).used then
      match (S.row i).real with
      | none => some (S.setRow i { S.row i with used := false })
      | some rs =>
        if USESS_IDLE < S.hook.now - (S.row i).last then
          some { S.setRow i { S.row i with used := false } with closing := S.closing ++ [rs] }
        else some S
    else some S
  | .closeFd k => S.closing[k]?.map fun rs =>
    { S with socks := S.socks.pop rs, closing := S.closing.eraseIdx k }
  | .answered i =>
    some (if (S.row i).used then S.setRow i { S.row i with last := S.hook.now } else S)
  | .recv k _ => S.inbox[k]?.map fun _ => { S with inbox := S.inbox.eraseIdx k }
  | .aliases g_ta => some { S with hook := { S.hook with g_ta := g_ta } }
  | .tick ms => some { S with hook := { S.hook with now := S.hook.now + ms } }

/-! ## right and calm -/

/-- the game is shown the address of the session that the datagram was injected for -/
def Right : InjAct → Prop
  | .recv k blen => ∀ d ∈ S.inbox[k]?, S.source d blen = d.cli
  | _ => True

/-- no call for the session in the row is under way, and no datagram of it is unread -/
def quiet (i : Fin DT_MAXUSESS) : Bool := S.calls.all (·.u != i) && S.inbox.all (·.u != i)

/-- `dt_hosted_thread` ends the session in the row -/
def expires (i : Fin DT_MAXUSESS) : Bool :=
  (S.row i).used && ((S.row i).real.isNone || USESS_IDLE < S.hook.now - (S.row i).last)

/-- the condition on a step -/
def Calm : InjAct → Prop
  | .find os g =>
    match UdpHook.hostedCli g with
    | some cli =>
      (S.hook.usessAt (S.hook.realPort g.triple.gport) cli).isNone →
        (List.finRange DT_MAXUSESS).all (fun i => !S.taken os i || S.quiet i)
    | none => True
  | .expire i => S.expires i → S.quiet i
  | .recv k blen =>
    match S.inbox[k]? with
    | some d => (S.row d.u).lport ≠ 0 ∧ d.raw ≠ [] ∧ 0 < blen
    | none => True
  | _ => True

instance : (a : InjAct) → Decidable (S.Calm a)
  | .find os g => show Decidable (match UdpHook.hostedCli g with
      | some cli => (S.hook.usessAt (S.hook.realPort g.triple.gport) cli).isNone →
        (List.finRange DT_MAXUSESS).all (fun i => !S.taken os i || S.quiet i)
      | none => True) from
    match UdpHook.hostedCli g with
    | some _ => inferInstanceAs (Decidable (_ → _))
    | none => instDecidableTrue
  | .expire i => inferInstanceAs (Decidable (S.expires i → S.quiet i))
  | .recv k blen => show Decidable (match S.inbox[k]? with
      | some d => (S.row d.u).lport ≠ 0 ∧ d.raw ≠ [] ∧ 0 < blen
      | none => True) from
    match S.inbox[k]? with
    | some _ => inferInstanceAs (Decidable (_ ∧ _ ∧ _))
    | none => instDecidableTrue
  | .send .. | .name _ | .record _ | .closeFd _ | .answered _ | .aliases _ | .tick _ =>
    instDecidableTrue

/-! ## rows and sockets -/

/-- the row is used, has an open socket with this local port, and has recorded no other -/
def Holds (i : Fin DT_MAXUSESS) (fd p : Nat) : Prop :=
  (S.row i).used = true ∧ (S.row i).real = some fd ∧ S.socks.get? fd = some p ∧
    ((S.row i).lport = 0 ∨ (S.row i).lport = p)

/-- the session of a call has its socket, and the call knows as much of its port as it says -/
def CallOk (c : InjCall) : Prop :=
  ∃ p, S.Holds c.u c.rs p ∧ (S.row c.u).cli = c.cli ∧ c.stage.knows p

/-- the session of an unread datagram has the socket it came from -/
def Unread (d : Injected) : Prop :=
  d.port ≠ 0 ∧ (S.row d.u).cli = d.cli ∧ ∃ fd, S.Holds d.u fd d.port

structure Tidy : Prop where
  rows : ∀ i, (S.row i).used = true → ∃ fd p, S.Holds i fd p
  apart : ∀ i j, (S.row i).used = true → (S.row j).used = true → (S.row i).real = (S.row j).real →
    i = j
  ports : ∀ fd fd' p, S.socks.get? fd = some p → S.socks.get? fd' = some p → p ≠ 0 → fd = fd'
  closing : ∀ fd ∈ S.closing, (∃ p, S.socks.get? fd = some p) ∧
    ∀ i, (S.row i).used = true → (S.row i).real ≠ some fd
  once : S.closing.Nodup
  calls : ∀ c ∈ S.calls, S.CallOk c
  unread : ∀ d ∈ S.inbox, S.Unread d

variable {S} {T : InjHook}

theorem tidy_init : init.Tidy :=
  ⟨nofun, nofun, nofun, nofun, List.nodup_nil, nofun, nofun⟩

/-- a datagram whose session has recorded its port is received with the right address -/
theorem Tidy.right (h : S.Tidy) {a : InjAct} (hc : S.Calm a) : S.Right a := by
  cases a with
  | recv k blen =>
    intro d hd
    have hk : S.inbox[k]? = some d := hd
    simp only [Calm, hk] at hc
    obtain ⟨hlp, hraw, hblen⟩ := hc
    obtain ⟨hport, hcli, fd, hu, hreal, hget, hrec⟩ := h.unread d (List.mem_of_getElem? hk)
    have hrec : (S.row d.u).lport = d.port := hrec.resolve_left hlp
    have hlen : 0 < min d.raw.length blen := lt_min (List.length_pos_iff.mpr hraw) hblen
    obtain ⟨i, -, hi⟩ := first_isSome (T := S.hook.g_us) (i := d.u)
      (p := fun u => u.used && u.lport == d.port)
      (Bool.and_eq_true_iff.mpr ⟨hu, beq_iff_eq.mpr hrec⟩)
    have ht : ((S.row i).used && (S.row i).lport == d.port) = true := first_mem hi
    obtain ⟨hiu, hip⟩ := Bool.and_eq_true_iff.mp ht
    have hip := beq_iff_eq.mp hip
    -- the row that is found has the same socket, so it is the session's
    obtain ⟨fd', p, -, hreal', hget', hrec'⟩ := h.rows i hiu
    have hp : p = d.port := by
      rcases hrec' with h0 | h0
      · exact absurd (hip.symm.trans h0) hport
      · exact h0.symm.trans hip
    have hfd : fd' = fd := h.ports fd' fd d.port (hp ▸ hget') hget hport
    have hrow : i = d.u := h.apart i d.u hiu hu (by rw [hreal', hreal, hfd])
    unfold InjHook.source hostedUnsource
    rw [if_pos hlen, hi, hrow]
    exact hcli
  | _ => trivial

/-! ### steps that change no session -/

/-- the row is as it was, but for time stamps, and it may have recorded the port of its socket -/
structure Alike (S T : InjHook) (i : Fin DT_MAXUSESS) : Prop where
  used : (T.row i).used = (S.row i).used
  real : (T.row i).real = (S.row i).real
  lport : (T.row i).lport = (S.row i).lport ∨ ∀ fd p, S.Holds i fd p → (T.row i).lport = p
  cli : (T.row i).cli = (S.row i).cli

theorem Alike.of_row {i : Fin DT_MAXUSESS} (h : T.row i = S.row i) : Alike S T i :=
  ⟨by rw [h], by rw [h], Or.inl (by rw [h]), by rw [h]⟩

theorem alike_update {i : Fin DT_MAXUSESS} {u : DtUsess}
    (hT : T.hook.g_us = Function.update S.hook.g_us i u) (hu : u.used = (S.row i).used)
    (hr : u.real = (S.row i).real)
    (hl : u.lport = (S.row i).lport ∨ ∀ fd p, S.Holds i fd p → u.lport = p)
    (hc : u.cli = (S.row i).cli) (j : Fin DT_MAXUSESS) : Alike S T j := by
  have hrow : ∀ j, T.row j = Function.update S.hook.g_us i u j := congrFun hT
  by_cases hj : j = i
  · have hi : T.row i = u := (hrow i).trans (Function.update_self ..)
    rw [hj]
    exact ⟨by rw [hi, hu], by rw [hi, hr], by rw [hi]; exact hl, by rw [hi, hc]⟩
  · exact .of_row ((hrow j).trans (Function.update_of_ne hj ..))

theorem Holds.alike {i : Fin DT_MAXUSESS} {fd p : Nat} (h : S.Holds i fd p) (ha : Alike S T i)
    (hs : T.socks.get? fd = S.socks.get? fd) : T.Holds i fd p := by
  have hh := h
  obtain ⟨hu, hr, hg, hl⟩ := h
  refine ⟨ha.used.trans hu, ha.real.trans hr, hs.trans hg, ?_⟩
  rcases ha.lport with hsame | hrec
  · rw [hsame]
    exact hl
  · exact Or.inr (hrec fd p hh)

theorem CallOk.alike {c : InjCall} (h : S.CallOk c) (ha : Alike S T c.u)
    (hs : T.socks.get? c.rs = S.socks.get? c.rs) : T.CallOk c := by
  obtain ⟨p, hh, hc, hk⟩ := h
  exact ⟨p, hh.alike ha hs, ha.cli.trans hc, hk⟩

theorem Unread.alike {d : Injected} (h : S.Unread d) (ha : Alike S T d.u)
    (hs : ∀ fd, (S.row d.u).real = some fd → T.socks.get? fd = S.socks.get? fd) : T.Unread d := by
  obtain ⟨hp, hc, fd, hh⟩ := h
  exact ⟨hp, ha.cli.trans hc, fd, hh.alike ha (hs fd hh.2.1)⟩

/-- the sessions and their sockets stay; calls are under way for them, and datagrams may be read -/
theorem Tidy.keep (h : S.Tidy) (ha : ∀ i, Alike S T i) (hs : T.socks = S.socks)
    (hcl : T.closing = S.closing) (hcalls : ∀ c ∈ T.calls, c ∈ S.calls ∨ S.CallOk c)
    (hin : ∀ d ∈ T.inbox, d ∈ S.inbox) : T.Tidy where
  rows i hu := by
    obtain ⟨fd, p, hh⟩ := h.rows i ((ha i).used ▸ hu)
    exact ⟨fd, p, hh.alike (ha i) (by rw [hs])⟩
  apart i j hi hj hr := by
    rw [(ha i).used] at hi
    rw [(ha j).used] at hj
    rw [(ha i).real, (ha j).real] at hr
    exact h.apart i j hi hj hr
  ports := by rw [hs]; exact h.ports
  closing fd hfd := by
    obtain ⟨ho, hno⟩ := h.closing fd (hcl ▸ hfd)
    refine ⟨by rw [hs]; exact ho, fun i hu hr => ?_⟩
    rw [(ha i).used] at hu
    rw [(ha i).real] at hr
    exact hno i hu hr
  once := by rw [hcl]; exact h.once
  calls c hc := ((hcalls c hc).elim (h.calls c) id).alike (ha c.u) (by rw [hs])
  unread d hd := (h.unread d (hin d hd)).alike (ha d.u) fun _ _ => by rw [hs]

/-! ### a session ends -/

/-- the sessions that are given up are quiet; the others keep their sockets -/
theorem Tidy.drop (h : S.Tidy) (hrow : ∀ j, (T.row j).used = true → T.row j = S.row j)
    (hquiet : ∀ j, (S.row j).used = true → (T.row j).used = false → S.quiet j = true)
    (hcalls : T.calls = S.calls) (hin : T.inbox = S.inbox)
    (hsub : ∀ fd p, T.socks.get? fd = some p → S.socks.get? fd = some p)
    (hkeep : ∀ j fd, (T.row j).used = true → (S.row j).real = some fd →
      T.socks.get? fd = S.socks.get? fd)
    (hcl : ∀ fd ∈ T.closing, (∃ p, T.socks.get? fd = some p) ∧
      ∀ j, (T.row j).used = true → (S.row j).real ≠ some fd)
    (honce : T.closing.Nodup) : T.Tidy where
  rows j hu := by
    have hr := hrow j hu
    obtain ⟨fd, p, hh⟩ := h.rows j (hr ▸ hu)
    exact ⟨fd, p, hh.alike (.of_row hr) (hkeep j fd hu hh.2.1)⟩
  apart i j hi hj hr := by
    have hri := hrow i hi
    have hrj := hrow j hj
    rw [hri] at hi
    rw [hrj] at hj
    rw [hri, hrj] at hr
    exact h.apart i j hi hj hr
  ports fd fd' p hp hp' h0 := h.ports fd fd' p (hsub fd p hp) (hsub fd' p hp') h0
  closing fd hfd := by
    obtain ⟨ho, hno⟩ := hcl fd hfd
    refine ⟨ho, fun j hu => ?_⟩
    rw [hrow j hu]
    exact hno j hu
  once := honce
  calls c hc := by
    rw [hcalls] at hc
    have hok := h.calls c hc
    obtain ⟨p, hh, -⟩ := hok
    have hu : (T.row c.u).used = true := by
      by_contra hno
      have hq := hquiet c.u hh.1 (Bool.not_eq_true _ ▸ hno)
      have hne := List.all_eq_true.mp (Bool.and_eq_true_iff.mp hq).1 c hc
      exact absurd hne (by simp)
    exact (h.calls c hc).alike (.of_row (hrow c.u hu)) (hkeep c.u c.rs hu hh.2.1)
  unread d hd := by
    rw [hin] at hd
    obtain ⟨-, -, fd, hh⟩ := h.unread d hd
    have hu : (T.row d.u).used = true := by
      by_contra hno
      have hq := hquiet d.u hh.1 (Bool.not_eq_true _ ▸ hno)
      have hne := List.all_eq_true.mp (Bool.and_eq_true_iff.mp hq).2 d hd
      exact absurd hne (by simp)
    exact (h.unread d hd).alike (.of_row (hrow d.u hu)) fun fd hfd => hkeep d.u fd hu hfd

theorem Tidy.expire (h : S.Tidy) {i : Fin DT_MAXUSESS} {rs : Nat} {u : DtUsess}
    (hu : (S.row i).used = true) (hr : (S.row i).real = some rs) (hq : S.quiet i = true)
    (hno : u.used = false) (hT : T.hook.g_us = Function.update S.hook.g_us i u)
    (hs : T.socks = S.socks) (hcalls : T.calls = S.calls) (hin : T.inbox = S.inbox)
    (hcl : T.closing = S.closing ++ [rs]) : T.Tidy := by
  have hupd : ∀ j, T.row j = Function.update S.hook.g_us i u j := congrFun hT
  have hself : (T.row i).used = false := by rw [hupd, Function.update_self, hno]
  have hother : ∀ j, j ≠ i → T.row j = S.row j :=
    fun j hj => (hupd j).trans (Function.update_of_ne hj ..)
  have hne : ∀ j, (T.row j).used = true → j ≠ i := by
    rintro j hj rfl
    rw [hself] at hj
    cases hj
  have hrow : ∀ j, (T.row j).used = true → T.row j = S.row j := fun j hj => hother j (hne j hj)
  refine h.drop hrow ?_ hcalls hin (fun _ _ => by rw [hs]; exact id) (fun _ _ _ _ => by rw [hs])
    ?_ ?_
  · intro j hj hno
    by_cases hji : j = i
    · rw [hji]
      exact hq
    · rw [hother j hji, hj] at hno
      cases hno
  · intro fd hfd
    rw [hs]
    rw [hcl] at hfd
    rcases List.mem_append.mp hfd with hfd | hfd
    · obtain ⟨ho, hno⟩ := h.closing fd hfd
      refine ⟨ho, fun j hj => hno j ?_⟩
      rw [← hrow j hj]
      exact hj
    · rw [List.mem_singleton.mp hfd]
      obtain ⟨fd', p, -, hr', hg, -⟩ := h.rows i hu
      rw [hr] at hr'
      refine ⟨⟨p, Option.some.inj hr' ▸ hg⟩, fun j hj hjr => ?_⟩
      have hju : (S.row j).used = true := hrow j hj ▸ hj
      exact hne j hj (h.apart j i hju hu (hjr.trans hr.symm))
  · rw [hcl]
    refine List.nodup_append.mpr ⟨h.once, List.nodup_singleton _, ?_⟩
    intro fd hfd fd' hfd' e
    rw [List.mem_singleton.mp hfd'] at e
    exact (h.closing fd hfd).2 i hu (e ▸ hr)

/-! ### the first send binds the socket -/

/-- a socket that is sent from keeps its port, and gets one if it has none -/
theorem Holds.sent {i : Fin DT_MAXUSESS} {fd p rs r : Nat} (h : S.Holds i fd p)
    (hr : ∀ p₀, S.socks.get? rs = some p₀ → p₀ ≠ 0 → r = p₀) (hrow : T.row i = S.row i)
    (hs : T.socks = S.socks.set rs r) : ∃ p', T.Holds i fd p' ∧ (p ≠ 0 → p' = p) := by
  obtain ⟨hu, hreal, hg, hl⟩ := h
  by_cases hfd : fd = rs
  · have hg' : T.socks.get? fd = some r := by rw [hs, hfd, Dict.get?_set_self]
    refine ⟨r, ⟨by rw [hrow, hu], by rw [hrow, hreal], hg', ?_⟩, hr p (hfd ▸ hg)⟩
    rw [hrow]
    by_cases hp : p = 0
    · exact Or.inl (hl.elim id (·.trans hp))
    · rw [hr p (hfd ▸ hg) hp]
      exact hl
  · refine ⟨p, ⟨by rw [hrow, hu], by rw [hrow, hreal], ?_, by rw [hrow]; exact hl⟩, fun _ => rfl⟩
    rw [hs, Dict.get?_set_of_ne _ _ hfd, hg]

theorem knows_mono {st : InjStage} {p p' : Nat} (h : st.knows p)
    (hp : p ≠ 0 → p' = p) : st.knows p' := by
  cases st with
  | found => trivial
  | sent =>
    have h0 : p ≠ 0 := h
    rw [hp h0]
    exact h0
  | named lp =>
    obtain ⟨hlp, h0⟩ := h
    rw [hp h0]
    exact ⟨hlp, h0⟩

/-- `rs` sends from port `r`; the calls and the datagrams are the old ones, or know `r` -/
theorem Tidy.sent (h : S.Tidy) {u : Fin DT_MAXUSESS} {rs p r : Nat} (hu : S.Holds u rs p)
    (hr0 : r ≠ 0) (hr : p ≠ 0 → r = p) (hnew : p = 0 → r ∉ S.socks.values)
    (hrow : ∀ i, T.row i = S.row i) (hs : T.socks = S.socks.set rs r) (hcl : T.closing = S.closing)
    (hcalls : ∀ c ∈ T.calls, c ∈ S.calls ∨
      c.u = u ∧ c.rs = rs ∧ (S.row u).cli = c.cli ∧ c.stage.knows r)
    (hin : ∀ d ∈ T.inbox, d ∈ S.inbox ∨ d.u = u ∧ d.port = r ∧ (S.row u).cli = d.cli) :
    T.Tidy := by
  have hget : S.socks.get? rs = some p := hu.2.2.1
  have hr' : ∀ p₀, S.socks.get? rs = some p₀ → p₀ ≠ 0 → r = p₀ := by
    intro p₀ h₀ hne
    rw [hget] at h₀
    rw [← Option.some.inj h₀] at hne ⊢
    exact hr hne
  have hself : T.socks.get? rs = some r := by rw [hs, Dict.get?_set_self]
  have hother : ∀ fd, fd ≠ rs → T.socks.get? fd = S.socks.get? fd := by
    intro fd hfd
    rw [hs, Dict.get?_set_of_ne _ _ hfd]
  have hholds : T.Holds u rs r := by
    obtain ⟨p', hh, -⟩ := hu.sent hr' (hrow u) hs
    have hp' : r = p' := Option.some.inj (hself.symm.trans hh.2.2.1)
    rw [hp']
    exact hh
  -- no other socket is on the port
  have halone : ∀ fd, T.socks.get? fd = some r → fd = rs := by
    intro fd hfd
    by_contra hne
    rw [hother fd hne] at hfd
    by_cases hp : p = 0
    · exact hnew hp (Dict.mem_values.mpr ⟨fd, Dict.get?_eq_some.mp hfd⟩)
    · rw [hr hp] at hfd
      exact hne (h.ports fd rs p hfd hget hp)
  refine ⟨?_, ?_, ?_, ?_, ?_, ?_, ?_⟩
  · intro i hi
    rw [hrow] at hi
    obtain ⟨fd, p₀, hh⟩ := h.rows i hi
    obtain ⟨p', hh', -⟩ := hh.sent hr' (hrow i) hs
    exact ⟨fd, p', hh'⟩
  · intro i j
    rw [hrow, hrow]
    exact h.apart i j
  · intro fd fd' p₀ hfd hfd' h0
    by_cases hp : p₀ = r
    · rw [hp] at hfd hfd'
      rw [halone fd hfd, halone fd' hfd']
    · have hne : ∀ fd, T.socks.get? fd = some p₀ → fd ≠ rs := by
        rintro fd hg rfl
        rw [hself] at hg
        exact hp (Option.some.inj hg).symm
      rw [hother fd (hne fd hfd)] at hfd
      rw [hother fd' (hne fd' hfd')] at hfd'
      exact h.ports fd fd' p₀ hfd hfd' h0
  · intro fd hfd
    obtain ⟨⟨p₀, ho⟩, hno⟩ := h.closing fd (hcl ▸ hfd)
    refine ⟨?_, fun i => by rw [hrow]; exact hno i⟩
    by_cases hfd : fd = rs
    · exact ⟨r, hfd ▸ hself⟩
    · exact ⟨p₀, by rw [hother fd hfd, ho]⟩
  · rw [hcl]
    exact h.once
  · intro c hc
    rcases hcalls c hc with hc | ⟨hcu, hcr, hcli, hk⟩
    · obtain ⟨p₀, hh, hcli, hk⟩ := h.calls c hc
      obtain ⟨p', hh', hp'⟩ := hh.sent hr' (hrow c.u) hs
      exact ⟨p', hh', by rw [hrow, hcli], knows_mono hk hp'⟩
    · exact ⟨r, by rw [hcu, hcr]; exact hholds, by rw [hrow, hcu, hcli], hk⟩
  · intro d hd
    rcases hin d hd with hd | ⟨hdu, hdp, hcli⟩
    · obtain ⟨h0, hcli, fd, hh⟩ := h.unread d hd
      obtain ⟨p', hh', hp'⟩ := hh.sent hr' (hrow d.u) hs
      exact ⟨h0, by rw [hrow, hcli], fd, hp' h0 ▸ hh'⟩
    · exact ⟨hdp ▸ hr0, by rw [hrow, hdu, hcli], rs, by rw [hdu, hdp]; exact hholds⟩

/-! ### a session is found or opened -/

/-- a row that `dt_usess_find` tried and that is used after is the new session's -/
theorem taken_slot {os : Os} {gport ov : Nat} {cli : SockaddrIn} {j : Fin DT_MAXUSESS}
    (ht : S.taken os j = true) (hu : (S.hook.usessCreate os gport ov cli j).used = true) :
    S.hook.usessSlot os = some j := by
  obtain ⟨h, hall⟩ := Bool.and_eq_true_iff.mp ht
  obtain ⟨-, hfree⟩ := Bool.and_eq_true_iff.mp h
  have hle : ∀ k ∈ S.hook.usessSlot os, j ≤ k := by
    intro k hk
    rw [Option.mem_def] at hk
    rw [hk] at hall
    exact of_decide_eq_true hall
  have hsock : (os.socket j).isSome = true := by
    unfold UdpHook.usessCreate at hu
    rw [if_pos ⟨hfree, hle⟩] at hu
    exact hu
  have hp : (S.hook.usessFree (S.hook.g_us j) && (os.socket j).isSome) = true :=
    Bool.and_eq_true_iff.mpr ⟨hfree, hsock⟩
  cases hs : S.hook.usessSlot os with
  | none =>
    have hno := Fin.find?_eq_none_iff.mp hs j
    rw [hp] at hno
    cases hno
  | some k =>
    have hkj : k ≤ j := by
      by_contra hlt
      have hno := (Fin.find?_eq_some_iff.mp hs).2 j (not_le.mp hlt)
      rw [hp] at hno
      cases hno
    rw [le_antisymm hkj (hle k hs)]

/-- a session that `dt_usess_find` does not take stays in its row -/
theorem untaken {os : Os} {gport ov : Nat} {cli : SockaddrIn} {j : Fin DT_MAXUSESS}
    (ht : S.taken os j = false) (hu : (S.row j).used = true) :
    S.hook.usessCreate os gport ov cli j = S.row j := by
  unfold UdpHook.usessCreate
  rw [if_neg]
  · rfl
  · rintro ⟨hfree, hle⟩
    have hall : (S.hook.usessSlot os).all (j ≤ ·) = true := by
      cases hs : S.hook.usessSlot os with
      | none => rfl
      | some k => exact decide_eq_true (hle k hs)
    unfold taken at ht
    rw [hu, hall] at ht
    change S.hook.usessFree (S.row j) = true at hfree
    rw [hfree] at ht
    cases ht

/-- the sessions that `dt_usess_find` gives up, without the new one -/
def gaveUp (S : InjHook) (os : Os) : InjHook :=
  { S with
    hook := { S.hook with
      g_us := fun j => if S.taken os j then { S.row j with used := false } else S.row j },
    socks := S.closeTaken os }

theorem gaveUp_row {os : Os} {j : Fin DT_MAXUSESS} :
    (S.gaveUp os).row j = if S.taken os j then { S.row j with used := false } else S.row j := rfl

theorem gaveUp_used {os : Os} {j : Fin DT_MAXUSESS} (h : ((S.gaveUp os).row j).used = true) :
    S.taken os j = false ∧ (S.gaveUp os).row j = S.row j := by
  rw [gaveUp_row] at h ⊢
  cases ht : S.taken os j with
  | true =>
    rw [ht] at h
    cases h
  | false => exact ⟨rfl, rfl⟩

theorem closeTaken_get {os : Os} {fd p : Nat} :
    (S.closeTaken os).get? fd = some p ↔
      S.socks.get? fd = some p ∧ ∀ j, S.taken os j = true → (S.row j).real ≠ some fd := by
  unfold closeTaken
  rw [Dict.get?_eq_some, Dict.mem_foldl_pop, Dict.get?_eq_some]
  refine and_congr_right fun _ => ?_
  rw [List.mem_filterMap]
  constructor
  · intro h j hj hr
    exact h ⟨j, List.mem_finRange j, by rw [if_pos hj]; exact hr⟩
  · rintro h ⟨j, -, hj⟩
    obtain ⟨ht, hr⟩ := Option.ite_none_right_eq_some.mp hj
    exact h j ht hr

theorem taken_used {os : Os} {j : Fin DT_MAXUSESS} (h : S.taken os j = true) :
    (S.row j).used = true :=
  (Bool.and_eq_true_iff.mp (Bool.and_eq_true_iff.mp h).1).1

theorem Tidy.gaveUp (h : S.Tidy) {os : Os} (hq : ∀ j, S.taken os j = true → S.quiet j = true) :
    (S.gaveUp os).Tidy := by
  have hkeep : ∀ fd p, S.socks.get? fd = some p →
      (∀ j, S.taken os j = true → (S.row j).real ≠ some fd) →
      (S.closeTaken os).get? fd = some p := fun fd p hg hno => closeTaken_get.mpr ⟨hg, hno⟩
  refine h.drop (fun j hj => (gaveUp_used hj).2) ?_ rfl rfl
    (fun fd p hg => (closeTaken_get.mp hg).1) ?_ ?_ h.once
  · intro j hj hno
    cases ht : S.taken os j with
    | true => exact hq j ht
    | false =>
      rw [gaveUp_row, ht, if_neg Bool.false_ne_true, hj] at hno
      cases hno
  · intro j fd hj hr
    obtain ⟨ht, hrow⟩ := gaveUp_used hj
    rw [hrow] at hj
    obtain ⟨fd', p, -, hr', hg, -⟩ := h.rows j hj
    rw [hr] at hr'
    rw [← Option.some.inj hr'] at hg
    rw [hg]
    refine hkeep fd p hg fun k hk hkr => ?_
    rw [h.apart k j (taken_used hk) hj (hkr.trans hr.symm), ht] at hk
    cases hk
  · intro fd hfd
    obtain ⟨⟨p, ho⟩, hno⟩ := h.closing fd hfd
    refine ⟨⟨p, hkeep fd p ho fun j hj => hno j (taken_used hj)⟩, fun j hj => hno j ?_⟩
    rw [← (gaveUp_used hj).2]
    exact hj

/-- a session with a socket of its own is opened in an unused row -/
theorem Tidy.add (h : S.Tidy) {i : Fin DT_MAXUSESS} {fd : Nat}
    (hnew : S.socks.get? fd = none) (hreal : (T.row i).real = some fd)
    (hlport : (T.row i).lport = 0) (hrow : ∀ j, (S.row j).used = true → T.row j = S.row j)
    (hrow' : ∀ j, j ≠ i → (T.row j).used = true → T.row j = S.row j)
    (hs : T.socks = S.socks.set fd 0) (hcl : T.closing = S.closing) (hcalls : T.calls = S.calls)
    (hin : T.inbox = S.inbox) : T.Tidy := by
  have hself : T.socks.get? fd = some 0 := by rw [hs, Dict.get?_set_self]
  have hother : ∀ fd', (∃ p, S.socks.get? fd' = some p) →
      T.socks.get? fd' = S.socks.get? fd' := by
    rintro fd' ⟨p, hp⟩
    rw [hs]
    apply Dict.get?_set_of_ne
    rintro rfl
    rw [hnew] at hp
    cases hp
  have hold : ∀ {j fd' p}, S.Holds j fd' p → T.Holds j fd' p := fun hh =>
    hh.alike (.of_row (hrow _ hh.1)) (hother _ ⟨_, hh.2.2.1⟩)
  -- the new socket is nobody else's
  have hfresh : ∀ j, j ≠ i → (T.row j).used = true → (T.row j).real ≠ some fd := by
    intro j hj hu hr
    have hsame := hrow' j hj hu
    rw [hsame] at hu hr
    obtain ⟨fd', p, -, hr', hg, -⟩ := h.rows j hu
    rw [hr] at hr'
    rw [← Option.some.inj hr', hnew] at hg
    cases hg
  refine ⟨?_, ?_, ?_, ?_, ?_, ?_, ?_⟩
  · intro j hj
    by_cases hji : j = i
    · rw [hji] at hj ⊢
      exact ⟨fd, 0, hj, hreal, hself, Or.inl hlport⟩
    · have hsame := hrow' j hji hj
      rw [hsame] at hj
      obtain ⟨fd', p, hh⟩ := h.rows j hj
      exact ⟨fd', p, hold hh⟩
  · intro j k hj hk hr
    by_cases hji : j = i
    · by_cases hki : k = i
      · rw [hji, hki]
      · rw [hji, hreal] at hr
        exact absurd hr.symm (hfresh k hki hk)
    · by_cases hki : k = i
      · rw [hki, hreal] at hr
        exact absurd hr (hfresh j hji hj)
      · have hsj := hrow' j hji hj
        have hsk := hrow' k hki hk
        rw [hsj] at hj
        rw [hsk] at hk
        rw [hsj, hsk] at hr
        exact h.apart j k hj hk hr
  · intro fd₁ fd₂ p h1 h2 hp
    have hne : ∀ {f}, T.socks.get? f = some p → S.socks.get? f = some p := by
      intro f hf
      by_cases hff : f = fd
      · rw [hff, hself] at hf
        exact absurd (Option.some.inj hf).symm hp
      · rw [hs, Dict.get?_set_of_ne _ _ hff] at hf
        exact hf
    exact h.ports fd₁ fd₂ p (hne h1) (hne h2) hp
  · intro fd' hfd'
    obtain ⟨⟨p, ho⟩, hno⟩ := h.closing fd' (hcl ▸ hfd')
    refine ⟨⟨p, by rw [hother fd' ⟨p, ho⟩, ho]⟩, fun j hj hr => ?_⟩
    by_cases hji : j = i
    · rw [hji, hreal] at hr
      rw [← Option.some.inj hr, hnew] at ho
      cases ho
    · have hsame := hrow' j hji hj
      rw [hsame] at hj hr
      exact hno j hj hr
  · rw [hcl]
    exact h.once
  · intro c hc
    obtain ⟨p, hh, hcli, hk⟩ := h.calls c (hcalls ▸ hc)
    exact ⟨p, hold hh, by rw [hrow _ hh.1, hcli], hk⟩
  · intro d hd
    obtain ⟨h0, hcli, fd', hh⟩ := h.unread d (hin ▸ hd)
    exact ⟨h0, by rw [hrow _ hh.1, hcli], fd', hold hh⟩

/-- a row that is used when the idle ones have been given up is the row that the new session finds -/
theorem create_of_gaveUp {os : Os} {gport ov : Nat} {cli : SockaddrIn} {j : Fin DT_MAXUSESS}
    (hj : ((S.gaveUp os).row j).used = true) :
    S.hook.usessCreate os gport ov cli j = (S.gaveUp os).row j := by
  obtain ⟨ht, hsame⟩ := gaveUp_used hj
  rw [hsame] at hj ⊢
  exact untaken ht hj

/-- and so is every row that is used after, but the new session's own -/
theorem create_of_used {os : Os} {gport ov : Nat} {cli : SockaddrIn} {j : Fin DT_MAXUSESS}
    (hne : S.hook.usessSlot os ≠ some j) (hj : (S.hook.usessCreate os gport ov cli j).used = true) :
    S.hook.usessCreate os gport ov cli j = (S.gaveUp os).row j := by
  have ht : S.taken os j = false := by
    by_contra htaken
    exact hne (taken_slot (Bool.not_eq_false _ ▸ htaken) hj)
  rcases UdpHook.usessCreate_used hj with ⟨e, -⟩ | ⟨-, e⟩
  · exact absurd e hne
  · rw [gaveUp_row, ht, if_neg Bool.false_ne_true]
    exact e

/-- no row takes the player: the idle sessions are given up all the same -/
theorem Tidy.unopened (h : S.Tidy) {os : Os} {gport ov : Nat} {cli : SockaddrIn}
    (hq : ∀ j, S.taken os j = true → S.quiet j = true) (hslot : S.hook.usessSlot os = none) :
    ({ S with
        hook := { S.hook with g_us := S.hook.usessCreate os gport ov cli }
        socks := S.closeTaken os } : InjHook).Tidy := by
  have hgave := h.gaveUp hq
  have hrow : ∀ j, (S.hook.usessCreate os gport ov cli j).used = true →
      S.hook.usessCreate os gport ov cli j = (S.gaveUp os).row j :=
    fun j => create_of_used (by rw [hslot]; exact nofun)
  refine hgave.drop hrow ?_ rfl rfl ?_ ?_ ?_ hgave.once
  · intro j hj hno
    have hsame : S.hook.usessCreate os gport ov cli j = (S.gaveUp os).row j := create_of_gaveUp hj
    rw [← hsame] at hj
    exact absurd (hj.symm.trans hno) Bool.noConfusion
  · exact fun fd p hg => hg
  · exact fun j fd _ _ => rfl
  · intro fd hfd
    obtain ⟨ho, hno⟩ := hgave.closing fd hfd
    refine ⟨ho, fun j hj => hno j ?_⟩
    rw [← hrow j hj]
    exact hj

/-- a new session, or none when no row takes it -/
theorem Tidy.opened (h : S.Tidy) {os : Os} {gport ov : Nat} {cli : SockaddrIn} {t : Triple}
    {socks : Dict Nat Nat} (hat : S.hook.usessAt gport cli = none)
    (hq : ∀ j, S.taken os j = true → S.quiet j = true)
    (hs : S.findSocks os gport cli = some socks) :
    ({ S with hook := (S.hook.usessFind os gport ov cli t).1, socks := socks } : InjHook).Tidy ∧
      ∀ i, (S.hook.usessFind os gport ov cli t).2 = some i →
        ((S.hook.usessFind os gport ov cli t).1.g_us i).used = true ∧
          ((S.hook.usessFind os gport ov cli t).1.g_us i).cli = cli := by
  have hgave := h.gaveUp hq
  unfold findSocks at hs
  unfold UdpHook.usessFind
  rw [hat] at hs ⊢
  dsimp only at hs ⊢
  cases hslot : S.hook.usessSlot os with
  | none =>
    rw [hslot] at hs
    have hsocks : S.closeTaken os = socks := Option.some.inj hs
    refine ⟨?_, fun i hi => absurd hi (Option.some_ne_none i).symm⟩
    rw [← hsocks]
    exact h.unopened hq hslot
  | some i =>
    have hsock : ((S.hook.usessFree (S.hook.g_us i)) && (os.socket i).isSome) = true :=
      (Fin.find?_eq_some_iff.mp hslot).1
    obtain ⟨fd, hfd⟩ := Option.isSome_iff_exists.mp (Bool.and_eq_true_iff.mp hsock).2
    rw [hslot, Option.bind_some, hfd] at hs
    obtain ⟨hnew, hsocks⟩ := Option.ite_none_right_eq_some.mp hs
    have hmade : S.hook.usessCreate os gport ov cli i
        = ⟨true, gport, cli, 0, ov, some fd, S.hook.now⟩ := by
      unfold UdpHook.usessCreate
      rw [if_pos, hfd]
      · rfl
      · refine ⟨(Bool.and_eq_true_iff.mp hsock).1, fun k hk => ?_⟩
        rw [Option.mem_def, hslot] at hk
        exact (Option.some.inj hk).le
    constructor
    · refine hgave.add (i := i) hnew ?_ ?_ (fun j => create_of_gaveUp) ?_ ?_ rfl rfl rfl
      · show (S.hook.usessCreate os gport ov cli i).real = some fd
        rw [hmade]
      · show (S.hook.usessCreate os gport ov cli i).lport = 0
        rw [hmade]
      · intro j hji hj
        refine create_of_used (fun hj' => ?_) hj
        rw [hslot] at hj'
        exact hji (Option.some.inj hj').symm
      · exact (Option.some.inj hsocks).symm
    · intro j hj
      rw [← Option.some.inj hj]
      show (S.hook.usessCreate os gport ov cli i).used = true ∧
        (S.hook.usessCreate os gport ov cli i).cli = cli
      rw [hmade]
      exact ⟨rfl, rfl⟩

/-- the session of the player is found again -/
theorem Tidy.again (h : S.Tidy) {os : Os} {gport ov : Nat} {cli : SockaddrIn} {t : Triple}
    {socks : Dict Nat Nat} {i : Fin DT_MAXUSESS} (hat : S.hook.usessAt gport cli = some i)
    (hs : S.findSocks os gport cli = some socks) :
    ({ S with hook := (S.hook.usessFind os gport ov cli t).1, socks := socks } : InjHook).Tidy ∧
      ∀ i, (S.hook.usessFind os gport ov cli t).2 = some i →
        ((S.hook.usessFind os gport ov cli t).1.g_us i).used = true ∧
          ((S.hook.usessFind os gport ov cli t).1.g_us i).cli = cli := by
  have ht : ((S.row i).used && (S.row i).gamePort == gport && (S.row i).cli == cli) = true :=
    first_mem hat
  have hused := (Bool.and_eq_true_iff.mp (Bool.and_eq_true_iff.mp ht).1).1
  obtain ⟨-, hcli⟩ := UdpHook.usessAt_some hat
  unfold findSocks at hs
  unfold UdpHook.usessFind
  rw [hat] at hs ⊢
  rw [← Option.some.inj hs]
  constructor
  · refine h.keep (alike_update rfl ?_ ?_ ?_ ?_) rfl rfl (fun _ => Or.inl) fun _ => id
    · rfl
    · rfl
    · exact Or.inl rfl
    · rfl
  · intro j hj
    rw [← Option.some.inj hj]
    dsimp only
    rw [Function.update_self]
    exact ⟨hused, hcli⟩

/-- the call goes on for the session -/
theorem Tidy.enter (h : S.Tidy) {i : Fin DT_MAXUSESS} {cli : SockaddrIn} {raw : Bytes} {now : Nat}
    (hu : (S.row i).used = true) (hcli : (S.row i).cli = cli) :
    InjHook.Tidy (match (S.row i).real with
      | none => S.setRow i { S.row i with last := now }
      | some rs => { S.setRow i { S.row i with last := now } with
          calls := S.calls ++ [⟨i, rs, raw, cli, .found⟩] }) := by
  obtain ⟨fd, p, hh⟩ := h.rows i hu
  rw [hh.2.1]
  refine h.keep (alike_update rfl rfl rfl (Or.inl rfl) rfl) rfl rfl ?_ fun _ => id
  intro c hc
  rcases List.mem_append.mp hc with hc | hc
  · exact Or.inl hc
  · rw [List.mem_singleton.mp hc]
    exact Or.inr ⟨p, hh, hcli, trivial⟩

theorem Tidy.find (h : S.Tidy) {os : Os} {g : UdpGame} (hc : S.Calm (.find os g))
    (hf : S.find os g = some T) : T.Tidy := by
  unfold InjHook.find at hf
  simp only [Calm] at hc
  cases hcli : UdpHook.hostedCli g with
  | none =>
    rw [hcli] at hf
    rw [← Option.some.inj hf]
    exact h
  | some cli =>
    rw [hcli] at hf hc
    dsimp only at hf hc
    obtain ⟨socks, hs, hT⟩ := Option.map_eq_some_iff.mp hf
    have hfound : ({ S with
        hook := (S.hook.usessFind os (S.hook.realPort g.triple.gport) cli.addr cli g.triple).1,
        socks := socks } : InjHook).Tidy ∧
        ∀ i, (S.hook.usessFind os (S.hook.realPort g.triple.gport) cli.addr cli g.triple).2 = some i →
          ((S.hook.usessFind os (S.hook.realPort g.triple.gport) cli.addr cli g.triple).1.g_us i).used
              = true ∧
            ((S.hook.usessFind os (S.hook.realPort g.triple.gport) cli.addr cli g.triple).1.g_us i).cli
              = cli := by
      cases hat : S.hook.usessAt (S.hook.realPort g.triple.gport) cli with
      | none =>
        refine h.opened hat (fun j hj => ?_) hs
        have hall := List.all_eq_true.mp (hc (by rw [hat]; rfl)) j (List.mem_finRange j)
        rw [hj] at hall
        exact hall
      | some i => exact h.again hat hs
    revert hT hfound
    generalize S.hook.usessFind os (S.hook.realPort g.triple.gport) cli.addr cli g.triple = r
    obtain ⟨hook, i?⟩ := r
    intro hT ⟨hU, hi⟩
    cases i? with
    | none =>
      rw [← hT]
      exact hU
    | some i =>
      obtain ⟨hu, hcli⟩ := hi i rfl
      rw [← hT]
      exact hU.enter hu hcli

/-! ## every step -/

theorem Tidy.send (h : S.Tidy) {k q : Nat} {arrives : Bool} {c : InjCall} (hk : S.calls[k]? = some c)
    (hs : S.send k q arrives c = some T) : T.Tidy := by
  have hmem : c ∈ S.calls := List.mem_of_getElem? hk
  obtain ⟨p, hh, hcli, -⟩ := h.calls c hmem
  unfold InjHook.send at hs
  rw [hh.2.2.1] at hs
  obtain ⟨hq, hT⟩ := Option.ite_none_left_eq_some.mp hs
  have hr0 : (if p = 0 then q else p) ≠ 0 := by
    split
    · next hp => exact fun h0 => hq ⟨hp, Or.inl h0⟩
    · next hp => exact hp
  rw [← Option.some.inj hT]
  refine h.sent hh hr0 (fun hp => if_neg hp) ?_ (fun _ => rfl) rfl rfl ?_ ?_
  · intro hp hv
    rw [if_pos hp] at hv
    exact hq ⟨hp, Or.inr hv⟩
  · intro c' hc'
    dsimp only at hc'
    split at hc'
    · exact Or.inl (List.mem_of_mem_eraseIdx hc')
    · rcases List.mem_or_eq_of_mem_set hc' with hc' | e
      · exact Or.inl hc'
      · rw [e]
        exact Or.inr ⟨rfl, rfl, hcli, hr0⟩
  · intro d hd
    dsimp only at hd
    split at hd
    · rcases List.mem_append.mp hd with hd | hd
      · exact Or.inl hd
      · rw [List.mem_singleton.mp hd]
        exact Or.inr ⟨rfl, rfl, hcli⟩
    · exact Or.inl hd

/-- the socket of a session that has ended is closed -/
theorem Tidy.closed (h : S.Tidy) {k rs : Nat} (hk : S.closing[k]? = some rs) :
    ({ S with socks := S.socks.pop rs, closing := S.closing.eraseIdx k } : InjHook).Tidy := by
  have hmem : rs ∈ S.closing := List.mem_of_getElem? hk
  have hrest : ∀ fd ∈ S.closing.eraseIdx k, fd ∈ S.closing ∧ fd ≠ rs := by
    intro fd hfd
    obtain ⟨hlt, hget⟩ := List.getElem?_eq_some_iff.mp hk
    rw [← h.once.erase_getElem k hlt, hget, h.once.mem_erase_iff] at hfd
    exact ⟨hfd.2, hfd.1⟩
  refine h.drop (fun _ _ => rfl) ?_ rfl rfl ?_ ?_ ?_ (h.once.sublist (List.eraseIdx_sublist _ _))
  · intro j hj hno
    exact absurd (hj.symm.trans hno) Bool.noConfusion
  · intro fd p hg
    by_cases hfd : fd = rs
    · rw [hfd, Dict.get?_pop_self] at hg
      cases hg
    · rw [Dict.get?_pop_of_ne _ hfd] at hg
      exact hg
  · intro j fd hj hr
    apply Dict.get?_pop_of_ne
    rintro rfl
    exact (h.closing fd hmem).2 j hj hr
  · intro fd hfd
    obtain ⟨hin, hne⟩ := hrest fd hfd
    obtain ⟨⟨p, ho⟩, hno⟩ := h.closing fd hin
    exact ⟨⟨p, by rw [Dict.get?_pop_of_ne _ hne, ho]⟩, hno⟩

/-- the call records the port of its socket -/
theorem Tidy.record (h : S.Tidy) {k lp : Nat} {c : InjCall} (hk : S.calls[k]? = some c)
    (hst : c.stage = .named lp) :
    ({ S with calls := S.calls.eraseIdx k }.setRow c.u { S.row c.u with lport := lp } :
      InjHook).Tidy := by
  refine h.keep (alike_update rfl rfl rfl (Or.inr ?_) rfl) rfl rfl
    (fun _ hc => Or.inl (List.mem_of_mem_eraseIdx hc)) fun _ => id
  intro fd p hh
  obtain ⟨p', hh', -, hknows⟩ := h.calls c (List.mem_of_getElem? hk)
  rw [hst] at hknows
  have hfd : fd = c.rs := Option.some.inj (hh.2.1.symm.trans hh'.2.1)
  have hp : p = p' := Option.some.inj ((hfd ▸ hh.2.2.1).symm.trans hh'.2.2.1)
  exact hknows.1.trans hp.symm

theorem Tidy.step (h : S.Tidy) {a : InjAct} (hc : S.Calm a) (hs : S.step a = some T) : T.Tidy := by
  have keep : ∀ {T : InjHook}, T.hook.g_us = S.hook.g_us → T.socks = S.socks →
      T.closing = S.closing → (∀ c ∈ T.calls, c ∈ S.calls ∨ S.CallOk c) →
      (∀ d ∈ T.inbox, d ∈ S.inbox) → T.Tidy :=
    fun hg => h.keep fun i => .of_row (congrFun hg i)
  cases a with
  | find os g => exact h.find hc hs
  | send k q arrives =>
    simp only [InjHook.step] at hs
    cases hk : S.calls[k]? with
    | none => rw [hk] at hs; cases hs
    | some c =>
      rw [hk] at hs
      obtain ⟨-, hs⟩ := Option.ite_none_right_eq_some.mp hs
      exact h.send hk hs
  | name k =>
    simp only [InjHook.step] at hs
    cases hk : S.calls[k]? with
    | none => rw [hk] at hs; cases hs
    | some c =>
      rw [hk] at hs
      obtain ⟨hst, hs⟩ := Option.ite_none_right_eq_some.mp hs
      rw [← Option.some.inj hs]
      refine keep rfl rfl rfl (fun c' hc' => ?_) fun _ => id
      rcases List.mem_or_eq_of_mem_set hc' with hc' | e
      · exact Or.inl hc'
      · obtain ⟨p, hh, hcli, hknows⟩ := h.calls c (List.mem_of_getElem? hk)
        rw [hst] at hknows
        rw [e, hh.2.2.1]
        exact Or.inr ⟨p, hh, hcli, rfl, hknows⟩
  | record k =>
    simp only [InjHook.step] at hs
    cases hk : S.calls[k]? with
    | none => rw [hk] at hs; cases hs
    | some c =>
      rw [hk] at hs
      dsimp only at hs
      cases hst : c.stage with
      | found => rw [hst] at hs; cases hs
      | sent => rw [hst] at hs; cases hs
      | named lp =>
        rw [hst] at hs
        rw [← Option.some.inj hs]
        split
        · exact h.record hk hst
        · exact keep rfl rfl rfl (fun _ hc => Or.inl (List.mem_of_mem_eraseIdx hc)) fun _ => id
  | expire i =>
    simp only [InjHook.step] at hs
    by_cases hu : (S.row i).used = true
    · rw [if_pos hu] at hs
      obtain ⟨fd, p, hh⟩ := h.rows i hu
      rw [hh.2.1] at hs
      dsimp only at hs
      by_cases hidle : USESS_IDLE < S.hook.now - (S.row i).last
      · rw [if_pos hidle] at hs
        rw [← Option.some.inj hs]
        have hexp : S.expires i = true := by
          unfold expires
          rw [hu, hh.2.1, decide_eq_true hidle]
          rfl
        exact h.expire hu hh.2.1 (hc hexp) rfl rfl rfl rfl rfl rfl
      · rw [if_neg hidle] at hs
        rw [← Option.some.inj hs]
        exact h
    · rw [if_neg hu] at hs
      rw [← Option.some.inj hs]
      exact h
  | closeFd k =>
    obtain ⟨rs, hk, hT⟩ := Option.map_eq_some_iff.mp hs
    rw [← hT]
    exact h.closed hk
  | answered i =>
    rw [← Option.some.inj hs]
    split
    · exact h.keep (alike_update rfl rfl rfl (Or.inl rfl) rfl) rfl rfl (fun _ => Or.inl) fun _ => id
    · exact h
  | recv k blen =>
    obtain ⟨d, -, hT⟩ := Option.map_eq_some_iff.mp hs
    rw [← hT]
    exact keep rfl rfl rfl (fun _ => Or.inl) fun _ => List.mem_of_mem_eraseIdx
  | aliases g_ta =>
    rw [← Option.some.inj hs]
    exact keep rfl rfl rfl (fun _ => Or.inl) fun _ => id
  | tick ms =>
    rw [← Option.some.inj hs]
    exact keep rfl rfl rfl (fun _ => Or.inl) fun _ => id

/-- **The game sees the player.**  In a run of calm steps every datagram is received with the address
of the session that it was injected for. -/
theorem unsourced {tr : List (InjHook × InjAct)} {T : InjHook}
    (hp : Path InjHook.step init tr T) (hok : ∀ x ∈ tr, x.1.Calm x.2) : ∀ x ∈ tr, x.1.Right x.2 := by
  intro x hx
  have hall := hp.all_of_ok (I := Tidy) (P := Tidy) tidy_init (fun _ => id)
    (fun _ _ _ hi hc hs => hi.step hc hs) hok
  exact (hall x.1 (mem_visited hx)).right (hok x hx)

/-! ## the game is quick -/

/-- the first datagram of node 2 for the game is injected -/
def firstInjected : List InjAct :=
  [.find (UdpHook.gameOs 27015) ⟨UdpHook.askedTriple, [7]⟩, .send 0 50001 true]

/-- the game receives it after its port is recorded, and then another one -/
def patient : List InjAct :=
  firstInjected ++ ([.name 0, .record 0, .recv 0 1500] : List InjAct) ++ firstInjected ++
    [InjAct.recv 0 1500]

theorem unsourced_patient : ∃ tr T, Path InjHook.step init tr T ∧ (∀ x ∈ tr, x.1.Calm x.2) ∧
    ∀ x ∈ tr, x.1.Right x.2 := by
  have hrun : (run InjHook.step init patient).isSome = true := by decide +kernel
  obtain ⟨T, hT⟩ := Option.isSome_iff_exists.mp hrun
  have hok : ∀ x ∈ trace InjHook.step init patient, x.1.Calm x.2 := by decide +kernel
  exact ⟨_, T, path_run hT, hok, unsourced (path_run hT) hok⟩

/-- received before its port is recorded, the first datagram is from loopback -/
theorem sourced_first : ∃ tr S T, Path InjHook.step init tr S ∧ S.step (.recv 0 1500) = some T ∧
    (∃ d ∈ S.inbox[0]?, d.cli = UdpHook.askerAddr ∧ S.source d 1500 = ⟨INADDR_LOOPBACK, 50001⟩) ∧
    ¬ S.Right (.recv 0 1500) := by
  have hrun : (run InjHook.step init firstInjected).isSome = true := by decide +kernel
  obtain ⟨S, hS⟩ := Option.isSome_iff_exists.mp hrun
  have hsrc : ∀ S ∈ run InjHook.step init firstInjected,
      S.inbox[0]?.map (fun d => (d.cli, S.source d 1500))
        = some (UdpHook.askerAddr, ⟨INADDR_LOOPBACK, 50001⟩) := by decide +kernel
  obtain ⟨d, hd, he⟩ := Option.map_eq_some_iff.mp (hsrc S hS)
  obtain ⟨hcli, hs⟩ := Prod.mk.inj he
  have hstep : S.step (.recv 0 1500) = some { S with inbox := S.inbox.eraseIdx 0 } := by
    show S.inbox[0]?.map _ = _
    rw [hd, Option.map_some]
  refine ⟨_, S, _, path_run hS, hstep, ⟨d, hd, hcli, hs⟩, fun hright => ?_⟩
  have hno : S.source d 1500 = d.cli := hright d hd
  rw [hs, hcli] at hno
  exact absurd hno (by decide)

end InjHook

end ShadowLan
