import ShadowLan.Client.PortMap
import ShadowLan.Lib.Runs
import ShadowLan.Wire.Frames
import ShadowLan.Wire.Game

/-!
# The datagrams of `wclient`

A listener takes what the local game sends to the tunnel.  What comes out of the tunnel is an answer
for the local game, a ping, or a datagram of another player for a game that is hosted here: every
such player gets a socket of its own, which the game answers to.

* `UdpProxy.step`         the tasks, each up to its next `await`;
* `UdpProxy.Sessions`     a row of `udp_host_socks` is a socket with a task that reads it;
* `UdpProxy.Answers`      what is said to the game and to the tunnel, socket by socket;
* `sessions_run`          both, over any run.

Sockets are numbered as they are made.  A socket that cannot be bound is collected at once.
-/

namespace ShadowLan

/-- `(tunnel_addr, local, cip, cport)` -/
structure HostKey where
  tunnel : Nat
  port : Nat
  ip : Bytes
  cport : Nat
  deriving DecidableEq

namespace UdpProxy

inductive Out where
  /-- to the tunnel: `encode_udp_game(U_GAME_C2S, ..)` -/
  | c2s (g : UdpGame)
  /-- to the tunnel, for what socket `s` got: `encode_udp_game(U_GAME_S2C, ..)` -/
  | s2c (s : Nat) (g : UdpGame)
  /-- to the tunnel: `encode_icmp` -/
  | icmp (f : IcmpFrame)
  /-- to the local game, from socket `s` -/
  | game (s port : Nat) (raw : Bytes)
  /-- to the local game at its own address, from the listener -/
  | answer (lport : Nat) (ip : Bytes) (cport : Nat) (raw : Bytes)
  deriving DecidableEq

/-- how `sock_sendto` can come out -/
inductive Fate where
  | sent
  | fails
  | blocks
  deriving DecidableEq

/-- a `sock_sendto` that waits -/
structure Sending where
  sock : Nat
  port : Nat
  raw : Bytes
  deriving DecidableEq

end UdpProxy

structure UdpProxy where
  /-- the tasks of `udp_tun_read` that wait for a datagram -/
  readers : Nat
  udp_tun : Bool
  udp_local : List Nat
  udp_host_socks : Dict HostKey Nat
  /-- the tasks of `udp_host_readloop` -/
  loops : List (HostKey × Nat)
  /-- the sockets that are open -/
  opened : List Nat
  sending : List UdpProxy.Sending
  /-- the sessions so far, each with its socket and the datagram it was made for -/
  made : List (HostKey × Nat × UdpGame)
  /-- what came for the hosted game, and what it sent to each socket -/
  asked : List (Nat × UdpGame)
  heard : List (Nat × Bytes)
  out : List UdpProxy.Out

namespace UdpProxy

inductive Act where
  /-- a datagram of the tunnel, whether a new socket can be bound, and how it can send -/
  | read (data : Bytes) (addr : Nat) (binds : Bool) (fate : Fate)
  /-- a `sock_sendto` that waited is over -/
  | sent (i : Nat) (ok : Bool)
  /-- a datagram for a hosted socket, and whether the tunnel takes it -/
  | recv (s : Nat) (data : Bytes) (takes : Bool)
  /-- thirty seconds without one, or an error -/
  | quit (s : Nat)
  | game (lport : Nat) (ip : Bytes) (cport : Nat) (raw : Bytes)
  | setup (ports : List Nat)
  | down
  deriving DecidableEq

section
variable (m : PortMap) (node_id : Nat) (U : UdpProxy)

def say (o : Out) : UdpProxy := { U with out := U.out ++ [o] }

/-- `icmp_tun_recv` -/
def icmp_tun_recv (data : Bytes) : UdpProxy :=
  match decodeIcmp data with
  | some f =>
    if f.mtype = U_ICMP_REQ ∧ f.dest = node_id ∧ U.udp_tun then
      U.say (.icmp ⟨U_ICMP_REP, node_id, f.src, f.iid, f.seq, f.data⟩)
    else U
  | none => U

/-- `sock_sendto`; a reader that waits in it takes no datagram -/
def sendto (s port : Nat) (raw : Bytes) : Fate → UdpProxy
  | .sent => U.say (.game s port raw)
  | .fails => U
  | .blocks => { U with readers := U.readers - 1, sending := U.sending ++ [⟨s, port, raw⟩] }

/-- the session of a player -/
def keyOf (addr : Nat) (g : UdpGame) : HostKey :=
  ⟨addr, m.toLocal g.triple.gport, g.triple.ip, g.triple.cport⟩

/-- `udp_host_recv`; the error of `bind` ends the reader -/
def udp_host_recv (g : UdpGame) (addr : Nat) (binds : Bool) (fate : Fate) : UdpProxy :=
  let key := keyOf m addr g
  let U := { U with asked := U.asked ++ [(addr, g)] }
  match U.udp_host_socks.get? key with
  | some s => U.sendto s key.port g.raw fate
  | none =>
    if binds then
      let s := U.made.length
      { U with
        udp_host_socks := U.udp_host_socks.set key s
        loops := U.loops ++ [(key, s)]
        opened := U.opened ++ [s]
        made := U.made ++ [(key, s, g)] }.sendto s key.port g.raw fate
    else { U with readers := U.readers - 1 }

/-- one turn of `udp_tun_read` -/
def udp_tun_read (data : Bytes) (addr : Nat) (binds : Bool) (fate : Fate) : UdpProxy :=
  if udpHeaderOk data 4 && (udpOp data == U_ICMP_REQ || udpOp data == U_ICMP_REP) then
    U.icmp_tun_recv node_id data
  else
    match decodeUdpGame data with
    | none => U
    | some g =>
      if udpOp data = U_GAME_S2C then
        let lport := m.toLocal g.triple.gport
        if lport ∈ U.udp_local then U.say (.answer lport g.triple.ip g.triple.cport g.raw) else U
      else if udpOp data = U_GAME_C2S then U.udp_host_recv m g addr binds fate
      else U

/-- the end of `udp_host_readloop` -/
def loopEnds (e : HostKey × Nat) : UdpProxy :=
  { U with
    udp_host_socks := U.udp_host_socks.pop e.1
    loops := U.loops.erase e
    opened := U.opened.erase e.2 }

/-- the task that reads socket `s` -/
def loopOf (s : Nat) : Option (HostKey × Nat) := U.loops.find? fun e => e.2 == s

/-- the answer of the local game, for the player of the session -/
def answerTo (key : HostKey) (data : Bytes) : UdpGame := ⟨⟨m.unmap key.port, key.ip, key.cport⟩, data⟩

def step : Act → Option UdpProxy
  | .read data addr binds fate =>
    if U.readers = 0 then none
    else
      let V := U.udp_tun_read m node_id data addr binds fate
      -- what is left of a closed tunnel: `udp_tun_proto` is `None` at the next turn
      some (if U.udp_tun then V else { V with readers := U.readers - 1 })
  | .sent i ok =>
    U.sending[i]?.map fun x =>
      let U := { U with
        sending := U.sending.eraseIdx i
        readers := if U.udp_tun then U.readers + 1 else U.readers }
      if ok && U.opened.contains x.sock then U.say (.game x.sock x.port x.raw) else U
  | .recv s data takes =>
    (U.loopOf s).map fun e =>
      let U := { U with heard := U.heard ++ [(s, data)] }
      if U.udp_tun && takes then U.say (.s2c s (answerTo m e.1 data)) else U.loopEnds e
  | .quit s => (U.loopOf s).map U.loopEnds
  | .game lport ip cport raw =>
    if lport ∈ U.udp_local ∧ U.udp_tun then some (U.say (.c2s ⟨⟨m.unmap lport, ip, cport⟩, raw⟩))
    else none
  | .setup ports =>
    if U.udp_tun then none
    else some { U with udp_tun := true, readers := U.readers + 1, udp_local := ports }
  | .down => some { U with udp_tun := false, udp_local := [] }

end

def start : UdpProxy :=
  { readers := 0, udp_tun := false, udp_local := [], udp_host_socks := .empty, loops := [], opened := [],
    sending := [], made := [], asked := [], heard := [], out := [] }

end UdpProxy

/-- what is read of a datagram can be written in one -/
theorem fits_of_decode {data : Bytes} {g : UdpGame} (h : decodeUdpGame data = some g) : g.Fits := by
  unfold decodeUdpGame at h
  obtain ⟨-, h⟩ := Option.ite_none_right_eq_some.mp h
  unfold decodeGameAt at h
  obtain ⟨gport, hg, h⟩ := Option.bind_eq_some_iff.mp h
  obtain ⟨iplen, hi, h⟩ := Option.bind_eq_some_iff.mp h
  obtain ⟨ip, ht, h⟩ := Option.bind_eq_some_iff.mp h
  obtain ⟨cport, hc, h⟩ := Option.bind_eq_some_iff.mp h
  rw [← Option.some.inj h]
  unfold decodeText at ht
  obtain ⟨htext, hip⟩ := Option.ite_none_right_eq_some.mp ht
  refine ⟨unpackH_lt hg, unpackH_lt hc, ?_, ?_⟩
  · rw [← Option.some.inj hip]
    have hlen : (slice data 8 (8 + iplen)).length ≤ iplen := by
      unfold slice
      rw [List.length_take]
      omega
    exact Nat.lt_of_le_of_lt hlen (unpackH_lt hi)
  · rw [← Option.some.inj hip]
    exact htext

namespace UdpProxy
variable {m : PortMap} {node_id : Nat} {U U' : UdpProxy} {s : Nat}

/-! ## the sessions -/

structure Sessions (U : UdpProxy) : Prop where
  /-- a row has a task that reads its socket, and the task has a row -/
  rows : ∀ e, e ∈ U.udp_host_socks.items ↔ e ∈ U.loops
  one : (U.loops.map Prod.snd).Nodup
  /-- the sockets of the tasks are open, and no other -/
  opened : ∀ s, s ∈ U.opened ↔ ∃ key, (key, s) ∈ U.loops
  once : U.opened.Nodup
  /-- a socket is never used for two sessions -/
  numbered : U.made.map (fun x => x.2.1) = List.range U.made.length
  made : ∀ e ∈ U.loops, ∃ g, (e.1, e.2, g) ∈ U.made

theorem Sessions.same (h : Sessions U) (h1 : U'.udp_host_socks = U.udp_host_socks)
    (h2 : U'.loops = U.loops) (h3 : U'.opened = U.opened) (h4 : U'.made = U.made) : Sessions U' where
  rows := by rw [h1, h2]; exact h.rows
  one := by rw [h2]; exact h.one
  opened := by rw [h2, h3]; exact h.opened
  once := by rw [h3]; exact h.once
  numbered := by rw [h4]; exact h.numbered
  made := by rw [h2, h4]; exact h.made

/-- the socket of a session is older than the next one -/
theorem Sessions.lt (h : Sessions U) {key : HostKey} {g : UdpGame} (hx : (key, s, g) ∈ U.made) :
    s < U.made.length := by
  have hmem : s ∈ U.made.map fun x => x.2.1 := List.mem_map.mpr ⟨_, hx, rfl⟩
  rw [h.numbered] at hmem
  exact List.mem_range.mp hmem

/-- a socket has one session -/
theorem Sessions.unique (h : Sessions U) {key key' : HostKey} {g g' : UdpGame}
    (hx : (key, s, g) ∈ U.made) (hy : (key', s, g') ∈ U.made) : key = key' ∧ g = g' := by
  have hn : (U.made.map fun x => x.2.1).Nodup := by
    rw [h.numbered]
    exact List.nodup_range
  have he := List.inj_on_of_nodup_map hn hx hy rfl
  obtain ⟨h1, h2⟩ := Prod.mk.inj he
  exact ⟨h1, (Prod.mk.inj h2).2⟩

/-- a new session, on a new socket -/
theorem Sessions.begins (h : Sessions U) {key : HostKey} (g : UdpGame)
    (hkey : U.udp_host_socks.get? key = none) : Sessions { U with
      udp_host_socks := U.udp_host_socks.set key U.made.length
      loops := U.loops ++ [(key, U.made.length)]
      opened := U.opened ++ [U.made.length]
      made := U.made ++ [(key, U.made.length, g)] } := by
  have hnew : ∀ key', (key', U.made.length) ∉ U.loops := by
    intro key' hl
    obtain ⟨g', hg⟩ := h.made _ hl
    exact absurd (h.lt hg) (Nat.lt_irrefl _)
  have hno : ∀ e ∈ U.udp_host_socks.items, e.1 ≠ key := by
    rintro ⟨k, v⟩ he rfl
    exact Dict.get?_eq_none.mp hkey v he
  refine ⟨fun e => ?_, ?_, fun s => ?_, ?_, ?_, fun e he => ?_⟩
  · rw [Dict.mem_set, List.mem_append, List.mem_singleton, or_comm]
    refine or_congr_left ?_
    rw [h.rows]
    exact and_iff_left_of_imp fun he => hno e ((h.rows e).mpr he)
  · rw [List.map_append]
    refine List.nodup_append.mpr ⟨h.one, List.nodup_singleton _, ?_⟩
    rintro a ha b hb rfl
    obtain ⟨⟨k, v⟩, he, rfl⟩ := List.mem_map.mp ha
    have hv : v = U.made.length := List.mem_singleton.mp hb
    exact hnew k (hv ▸ he)
  · rw [List.mem_append, List.mem_singleton, h.opened]
    constructor
    · rintro (⟨k, hk⟩ | rfl)
      · exact ⟨k, List.mem_append_left _ hk⟩
      · exact ⟨key, List.mem_append_right _ List.mem_cons_self⟩
    · rintro ⟨k, hk⟩
      rcases List.mem_append.mp hk with hk | hk
      · exact Or.inl ⟨k, hk⟩
      · exact Or.inr (Prod.mk.inj (List.mem_singleton.mp hk)).2
  · refine List.nodup_append.mpr ⟨h.once, List.nodup_singleton _, ?_⟩
    rintro a ha b hb rfl
    obtain ⟨k, hk⟩ := (h.opened a).mp ha
    rw [List.mem_singleton.mp hb] at hk
    exact hnew k hk
  · rw [List.map_append, h.numbered, List.length_append]
    exact List.range_succ.symm
  · rcases List.mem_append.mp he with he | he
    · obtain ⟨g', hg⟩ := h.made e he
      exact ⟨g', List.mem_append_left _ hg⟩
    · rw [List.mem_singleton.mp he]
      exact ⟨g, List.mem_append_right _ List.mem_cons_self⟩

/-- a task ends, and takes its row and its socket with it -/
theorem Sessions.ends (h : Sessions U) {e : HostKey × Nat} (he : e ∈ U.loops) :
    Sessions (U.loopEnds e) := by
  have hloops : U.loops.Nodup := h.one.of_map
  have hother : ∀ e' ∈ U.loops, e' ≠ e → e'.1 ≠ e.1 ∧ e'.2 ≠ e.2 := by
    intro e' he' hne
    refine ⟨fun hk => hne ?_, fun hs => hne (List.inj_on_of_nodup_map h.one he' he hs)⟩
    obtain ⟨k, v⟩ := e
    obtain ⟨k', v'⟩ := e'
    have hk : k' = k := hk
    subst hk
    rw [Dict.val_unique ((h.rows _).mpr he) ((h.rows _).mpr he')]
  have hmem : ∀ e', e' ∈ U.loops.erase e ↔ e' ≠ e ∧ e' ∈ U.loops := fun e' => hloops.mem_erase_iff
  refine ⟨fun e' => ?_, ?_, fun s => ?_, h.once.erase _, h.numbered, fun e' he' => ?_⟩
  · show e' ∈ (U.udp_host_socks.pop e.1).items ↔ e' ∈ U.loops.erase e
    rw [Dict.mem_pop, hmem, h.rows]
    constructor
    · rintro ⟨h1, h2⟩
      exact ⟨fun he' => h2 (by rw [he']), h1⟩
    · rintro ⟨h1, h2⟩
      exact ⟨h2, (hother e' h2 h1).1⟩
  · exact h.one.sublist (List.erase_sublist.map Prod.snd)
  · show s ∈ U.opened.erase e.2 ↔ ∃ key, (key, s) ∈ U.loops.erase e
    rw [h.once.mem_erase_iff, h.opened]
    constructor
    · rintro ⟨hne, k, hk⟩
      refine ⟨k, (hmem _).mpr ⟨fun heq => hne ?_, hk⟩⟩
      rw [← heq]
    · rintro ⟨k, hk⟩
      obtain ⟨h1, h2⟩ := (hmem _).mp hk
      exact ⟨(hother _ h2 h1).2, k, h2⟩
  · exact h.made e' (List.mem_of_mem_erase he')

/-! ## what is said -/

/-- the bytes `raw` came for the player of socket `s`, and the game is at `port` -/
def Given (m : PortMap) (U : UdpProxy) (s port : Nat) (raw : Bytes) : Prop :=
  ∃ key g₀ addr g, (key, s, g₀) ∈ U.made ∧ (addr, g) ∈ U.asked ∧ keyOf m addr g = key ∧
    g.raw = raw ∧ port = key.port

/-- the game has sent it to socket `s`, and it goes to the player that socket was made for; the port is
the one that was asked for, if it comes back as itself -/
def Told (m : PortMap) (U : UdpProxy) (s : Nat) (g : UdpGame) : Prop :=
  (s, g.raw) ∈ U.heard ∧ g.Fits ∧ ∃ key addr g₀, (key, s, g₀) ∈ U.made ∧ (addr, g₀) ∈ U.asked ∧
    g.triple.ip = g₀.triple.ip ∧ g.triple.cport = g₀.triple.cport ∧
    (g.triple.gport = g₀.triple.gport ↔ m.Named g₀.triple.gport)

structure Answers (m : PortMap) (U : UdpProxy) : Prop where
  made : ∀ x ∈ U.made, ∃ addr, (addr, x.2.2) ∈ U.asked ∧ x.1 = keyOf m addr x.2.2
  fits : ∀ x ∈ U.asked, x.2.Fits
  pending : ∀ x ∈ U.sending, Given m U x.sock x.port x.raw
  game : ∀ s port raw, .game s port raw ∈ U.out → Given m U s port raw
  told : ∀ s g, .s2c s g ∈ U.out → Told m U s g

/-- more has come in -/
structure Grows (U U' : UdpProxy) : Prop where
  made : U.made ⊆ U'.made
  asked : U.asked ⊆ U'.asked
  heard : U.heard ⊆ U'.heard

theorem Given.grows {port : Nat} {raw : Bytes} (h : Given m U s port raw) (hg : Grows U U') :
    Given m U' s port raw := by
  obtain ⟨key, g₀, addr, g, h1, h2, h3⟩ := h
  exact ⟨key, g₀, addr, g, hg.made h1, hg.asked h2, h3⟩

theorem Told.grows {g : UdpGame} (h : Told m U s g) (hg : Grows U U') : Told m U' s g := by
  obtain ⟨h1, h2, key, addr, g₀, h3, h4, h5⟩ := h
  exact ⟨hg.heard h1, h2, key, addr, g₀, hg.made h3, hg.asked h4, h5⟩

/-- more has come in, and of what is new is said only what may be -/
theorem Answers.grows (h : Answers m U) (hg : Grows U U')
    (hmade : ∀ x ∈ U'.made, x ∈ U.made ∨ ∃ addr, (addr, x.2.2) ∈ U'.asked ∧ x.1 = keyOf m addr x.2.2)
    (hasked : ∀ x ∈ U'.asked, x ∈ U.asked ∨ x.2.Fits)
    (hsend : ∀ x ∈ U'.sending, x ∈ U.sending ∨ Given m U' x.sock x.port x.raw)
    (hout : ∀ o ∈ U'.out, o ∈ U.out ∨ match o with
      | .game s port raw => Given m U' s port raw
      | .s2c s g => Told m U' s g
      | _ => True) : Answers m U' where
  made x hx := by
    rcases hmade x hx with hx | hx
    · obtain ⟨addr, ha, he⟩ := h.made x hx
      exact ⟨addr, hg.asked ha, he⟩
    · exact hx
  fits x hx := (hasked x hx).elim (h.fits x) id
  pending x hx := (hsend x hx).elim (fun hx => (h.pending x hx).grows hg) id
  game s port raw hx := (hout _ hx).elim (fun hx => (h.game s port raw hx).grows hg) id
  told s g hx := (hout _ hx).elim (fun hx => (h.told s g hx).grows hg) id

theorem Answers.same (h : Answers m U) (h1 : U'.made = U.made) (h2 : U'.asked = U.asked)
    (h3 : U'.heard = U.heard) (h4 : U'.sending ⊆ U.sending) (h5 : U'.out = U.out) : Answers m U' :=
  h.grows ⟨by rw [h1]; exact List.Subset.refl _, by rw [h2]; exact List.Subset.refl _,
      by rw [h3]; exact List.Subset.refl _⟩
    (fun x hx => Or.inl (h1 ▸ hx)) (fun x hx => Or.inl (h2 ▸ hx)) (fun x hx => Or.inl (h4 hx))
    fun o ho => Or.inl (h5 ▸ ho)

/-- one thing is said -/
theorem Answers.say (h : Answers m U) {o : Out} (ho : match o with
      | .game s port raw => Given m U s port raw
      | .s2c s g => Told m U s g
      | _ => True) : Answers m (U.say o) := by
  have hsame : Grows U (U.say o) := ⟨List.Subset.refl _, List.Subset.refl _, List.Subset.refl _⟩
  refine h.grows hsame (fun _ hx => Or.inl hx) (fun _ hx => Or.inl hx)
    (fun _ hx => Or.inl hx) fun o' ho' => ?_
  rcases List.mem_append.mp ho' with ho' | ho'
  · exact Or.inl ho'
  · rw [List.mem_singleton.mp ho']
    exact Or.inr ho

/-! ## steps -/

/-- what every step keeps -/
structure Good (m : PortMap) (U : UdpProxy) : Prop where
  sessions : Sessions U
  answers : Answers m U

theorem Good.say (h : Good m U) {o : Out} (ho : match o with
      | .game s port raw => Given m U s port raw
      | .s2c s g => Told m U s g
      | _ => True) : Good m (U.say o) :=
  ⟨h.sessions.same rfl rfl rfl rfl, h.answers.say ho⟩

theorem Good.sendto (h : Good m U) {port : Nat} {raw : Bytes} (hx : Given m U s port raw)
    (fate : Fate) : Good m (U.sendto s port raw fate) := by
  cases fate with
  | sent => exact h.say hx
  | fails => exact h
  | blocks =>
    refine ⟨h.sessions.same rfl rfl rfl rfl, ?_⟩
    have hsame : Grows U (U.sendto s port raw .blocks) :=
      ⟨List.Subset.refl _, List.Subset.refl _, List.Subset.refl _⟩
    refine h.answers.grows hsame (fun _ hx => Or.inl hx) (fun _ hx => Or.inl hx)
      (fun x hs => ?_) fun _ ho => Or.inl ho
    rcases List.mem_append.mp hs with hs | hs
    · exact Or.inl hs
    · rw [List.mem_singleton.mp hs]
      exact Or.inr hx

/-- a datagram of another player has come -/
theorem Good.asks (h : Good m U) {g : UdpGame} (hg : g.Fits) (addr : Nat) :
    Good m { U with asked := U.asked ++ [(addr, g)] } := by
  refine ⟨h.sessions.same rfl rfl rfl rfl, ?_⟩
  refine h.answers.grows ⟨List.Subset.refl _, List.subset_append_left _ _, List.Subset.refl _⟩
    (fun x hx => Or.inl hx) (fun x hx => ?_) (fun x hx => Or.inl hx) fun o ho => Or.inl ho
  rcases List.mem_append.mp hx with hx | hx
  · exact Or.inl hx
  · rw [List.mem_singleton.mp hx]
    exact Or.inr hg

theorem Good.udp_host_recv (h : Good m U) {g : UdpGame} (hg : g.Fits) (addr : Nat) (binds : Bool)
    (fate : Fate) : Good m (U.udp_host_recv m g addr binds fate) := by
  have ha := h.asks hg addr
  have hmem : (addr, g) ∈ U.asked ++ [(addr, g)] := List.mem_append_right _ List.mem_cons_self
  unfold UdpProxy.udp_host_recv
  dsimp only
  cases hkey : U.udp_host_socks.get? (keyOf m addr g) with
  | some s =>
    have hloop := (h.sessions.rows _).mp (Dict.get?_eq_some.mp hkey)
    obtain ⟨g₀, hg₀⟩ := h.sessions.made _ hloop
    exact ha.sendto ⟨_, g₀, addr, g, hg₀, hmem, rfl, rfl, rfl⟩ fate
  | none =>
    dsimp only
    cases binds with
    | false => exact ⟨ha.sessions.same rfl rfl rfl rfl, ha.answers.same rfl rfl rfl (fun _ hx => hx) rfl⟩
    | true =>
      rw [if_pos rfl]
      refine Good.sendto ⟨ha.sessions.begins g hkey, ?_⟩
        ⟨_, g, addr, g, List.mem_append_right _ List.mem_cons_self, hmem, rfl, rfl, rfl⟩ fate
      refine ha.answers.grows ⟨List.subset_append_left _ _, List.Subset.refl _, List.Subset.refl _⟩
        (fun x hx => ?_) (fun x hx => Or.inl hx) (fun x hx => Or.inl hx) fun o ho => Or.inl ho
      rcases List.mem_append.mp hx with hx | hx
      · exact Or.inl hx
      · rw [List.mem_singleton.mp hx]
        exact Or.inr ⟨addr, hmem, rfl⟩

theorem Good.udp_tun_read (h : Good m U) (data : Bytes) (addr : Nat) (binds : Bool) (fate : Fate) :
    Good m (U.udp_tun_read m node_id data addr binds fate) := by
  unfold UdpProxy.udp_tun_read
  split
  · unfold icmp_tun_recv
    split
    · split
      · exact h.say trivial
      · exact h
    · exact h
  · cases hd : decodeUdpGame data with
    | none => exact h
    | some g =>
      dsimp only
      split
      · split
        · exact h.say trivial
        · exact h
      · split
        · exact h.udp_host_recv (fits_of_decode hd) addr binds fate
        · exact h

theorem Good.loopEnds (h : Good m U) {e : HostKey × Nat} (he : e ∈ U.loops) : Good m (U.loopEnds e) :=
  ⟨h.sessions.ends he, h.answers.same rfl rfl rfl (fun _ hx => hx) rfl⟩

theorem loopOf_some {e : HostKey × Nat} (h : U.loopOf s = some e) : e ∈ U.loops ∧ e.2 = s := by
  have hs := List.find?_some (p := fun e : HostKey × Nat => e.2 == s) h
  exact ⟨List.mem_of_find?_eq_some h, eq_of_beq hs⟩

/-- the answer of the game goes to the player of the session -/
theorem Good.told (h : Good m U) {key : HostKey} (he : (key, s) ∈ U.loops) {data : Bytes}
    (hdata : (s, data) ∈ U.heard) : Told m U s (answerTo m key data) := by
  obtain ⟨g₀, hg₀⟩ := h.sessions.made _ he
  obtain ⟨addr, haddr, hkey⟩ := h.answers.made _ hg₀
  have hkey : key = keyOf m addr g₀ := hkey
  have hf := h.answers.fits _ haddr
  rw [hkey]
  refine ⟨hdata, ⟨PortMap.unmap_lt (PortMap.toLocal_lt hf.gport), hf.cport, hf.iplen, hf.text⟩,
    key, addr, g₀, hg₀, haddr, rfl, rfl, ?_⟩
  exact PortMap.unmap_toLocal_iff

theorem good_step {a : Act} (h : Good m U) (hs : U.step m node_id a = some U') : Good m U' := by
  cases a with
  | read data addr binds fate =>
    obtain ⟨-, hs⟩ := Option.ite_none_left_eq_some.mp hs
    have hread : Good m (U.udp_tun_read m node_id data addr binds fate) :=
      h.udp_tun_read data addr binds fate
    rw [← Option.some.inj hs]
    split
    · exact hread
    · exact ⟨hread.sessions.same rfl rfl rfl rfl,
        hread.answers.same rfl rfl rfl (fun _ hx => hx) rfl⟩
  | sent i ok =>
    obtain ⟨x, hx, rfl⟩ := Option.map_eq_some_iff.mp hs
    have hgiven := h.answers.pending x (List.mem_of_getElem? hx)
    have hback : Good m { U with
        sending := U.sending.eraseIdx i
        readers := if U.udp_tun then U.readers + 1 else U.readers } :=
      ⟨h.sessions.same rfl rfl rfl rfl,
        h.answers.same rfl rfl rfl (fun _ hx => List.mem_of_mem_eraseIdx hx) rfl⟩
    dsimp only
    split
    · exact hback.say (hgiven.grows ⟨List.Subset.refl _, List.Subset.refl _, List.Subset.refl _⟩)
    · exact hback
  | recv s data takes =>
    obtain ⟨e, he, rfl⟩ := Option.map_eq_some_iff.mp hs
    obtain ⟨hmem, rfl⟩ := loopOf_some he
    have hheard : Good m { U with heard := U.heard ++ [(e.2, data)] } := by
      refine ⟨h.sessions.same rfl rfl rfl rfl, ?_⟩
      exact h.answers.grows ⟨List.Subset.refl _, List.Subset.refl _, List.subset_append_left _ _⟩
        (fun x hx => Or.inl hx) (fun x hx => Or.inl hx) (fun x hx => Or.inl hx) fun o ho => Or.inl ho
    dsimp only
    split
    · exact hheard.say (hheard.told hmem (List.mem_append_right _ List.mem_cons_self))
    · exact hheard.loopEnds hmem
  | quit s =>
    obtain ⟨e, he, rfl⟩ := Option.map_eq_some_iff.mp hs
    exact h.loopEnds (loopOf_some he).1
  | game lport ip cport raw =>
    obtain ⟨-, hs⟩ := Option.ite_none_right_eq_some.mp hs
    rw [← Option.some.inj hs]
    exact h.say trivial
  | setup ports =>
    obtain ⟨-, hs⟩ := Option.ite_none_left_eq_some.mp hs
    rw [← Option.some.inj hs]
    exact ⟨h.sessions.same rfl rfl rfl rfl, h.answers.same rfl rfl rfl (fun _ hx => hx) rfl⟩
  | down =>
    rw [← Option.some.inj hs]
    exact ⟨h.sessions.same rfl rfl rfl rfl, h.answers.same rfl rfl rfl (fun _ hx => hx) rfl⟩

theorem good_start : Good m start where
  sessions :=
    { rows := fun _ => Iff.rfl
      one := List.nodup_nil
      opened := fun _ => iff_of_false List.not_mem_nil fun ⟨_, h⟩ => List.not_mem_nil h
      once := List.nodup_nil
      numbered := rfl
      made := fun _ h => absurd h List.not_mem_nil }
  answers :=
    { made := fun _ h => absurd h List.not_mem_nil
      fits := fun _ h => absurd h List.not_mem_nil
      pending := fun _ h => absurd h List.not_mem_nil
      game := fun _ _ _ h => absurd h List.not_mem_nil
      told := fun _ _ h => absurd h List.not_mem_nil }

/-- **The hosted sessions.**  Whatever the tunnel, the local game and the sockets do, the rows of
`udp_host_socks` are the sockets that are open, each with one task; and each socket carries one player: what it
gives the game came for that player, and what the game answers goes there. -/
theorem sessions_run {t : UdpProxy} {tr : List (UdpProxy × Act)}
    (h : Path (step m node_id) start tr t) : Sessions t ∧ Answers m t ∧
      ∀ s key key' g g', (key, s, g) ∈ t.made → (key', s, g') ∈ t.made → key = key' ∧ g = g' := by
  have hg := h.inv good_start fun _ _ _ hi hs => good_step hi hs
  exact ⟨hg.sessions, hg.answers, fun _ _ _ _ _ hx hy => hg.sessions.unique hx hy⟩

/-- a player asks the hosted game, which answers -/
def playerAsks : List Act :=
  [.setup [6112], .read (encodeUdpGame U_GAME_C2S ⟨⟨6112, [49], 7777⟩, [1, 2]⟩) 1 true .sent,
    .recv 0 [3] true]

theorem sessions_playerAsks : ∃ t, run (step ⟨.empty, nofun⟩ 5) start playerAsks = some t ∧
    Sessions t ∧ Answers ⟨.empty, nofun⟩ t ∧
    t.out = [.game 0 6112 [1, 2], .s2c 0 ⟨⟨6112, [49], 7777⟩, [3]⟩] := by
  have hout : (run (step ⟨.empty, nofun⟩ 5) start playerAsks).map UdpProxy.out
      = some [.game 0 6112 [1, 2], .s2c 0 ⟨⟨6112, [49], 7777⟩, [3]⟩] := by decide
  obtain ⟨t, ht, hsaid⟩ := Option.map_eq_some_iff.mp hout
  obtain ⟨hs, ha, -⟩ := sessions_run (path_run ht)
  exact ⟨t, ht, hs, ha, hsaid⟩

end UdpProxy

end ShadowLan
