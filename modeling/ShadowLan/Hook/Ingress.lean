import Mathlib.Data.List.GetD
import ShadowLan.Hook.Egress

/-!
# What the app receives from the real sockets

Under `LAN_ONLY` no wire peer may show up at the app's doors `accept`, `accept4`, `recvfrom` and
`recv`.  Each door filters by itself, and looks at the address that the real call wrote for the app.

* `AddrArg`        the two address arguments of a call, null or not, and what the kernel writes there;
* `accept`, `accept4`, `recvfrom`, `recv`   the doors, over the answers of the real calls;
* `NoWire`         what came through, if anything, came from loopback;
* `Tight`          the condition on a call and on what the real calls give it;
* `ingress_iff`    a call lets no wire peer in exactly when it is tight.

Sockets are IPv4.  What the app is told about a peer that passed is left out: `dt_hosted_unsource`
and `dt_acc_post_accept` only rewrite it.
-/

namespace ShadowLan

def MSG_DONTWAIT : Nat := 0x40
def EBADF : Errno := .other 9
def EFAULT : Errno := .other 14

/-- an IPv4 peer of a real socket -/
structure Peer where
  a : UInt8
  b : UInt8
  c : UInt8
  d : UInt8
  port : Nat
  deriving DecidableEq

def Peer.isLoopback (p : Peer) : Bool := p.a = 127

/-- the peer as a `sockaddr_in` -/
def Peer.bytes (p : Peer) : Bytes :=
  [2, 0] ++ packH p.port ++ [p.a, p.b, p.c, p.d] ++ List.replicate 8 0

/-- `((struct sockaddr_in *)m)->sin_addr` -/
def sinAddr (m : Bytes) : Nat := dtGet16 m 4 * 65536 + dtGet16 m 6

/-- the address arguments of a call: the memory at the address pointer and the value at the length
pointer, `none` for a null pointer -/
structure AddrArg where
  addr : Option Bytes
  len : Option Nat
  deriving DecidableEq

namespace AddrArg

/-- an address without a length: the real call fails with `EFAULT` -/
def faults (x : AddrArg) : Bool := x.addr.isSome && x.len.isNone

/-- the kernel copies as much of the peer as fits, and stores how long it is -/
def store (x : AddrArg) (p : Peer) : AddrArg :=
  match x.addr, x.len with
  | some m, some n => ⟨some (p.bytes.take n ++ m.drop (min n 16)), some 16⟩
  | _, _ => x

/-- the test of the hook on what the kernel stored: a whole address that is not loopback -/
def wire (x : AddrArg) : Bool :=
  match x.addr, x.len with
  | some m, some n => 16 ≤ n && !ipv4IsLoopback (sinAddr m)
  | _, _ => false

/-- the hook's own buffer -/
def own : AddrArg := ⟨some (List.replicate 16 0), some 16⟩

/-- the first octet is the peer's own: there is room for it, or the memory says no loopback -/
def Shows (x : AddrArg) : Prop :=
  ∃ m n, x = ⟨some m, some n⟩ ∧ (5 ≤ n ∨ m.getD 4 0 ≠ 127)

end AddrArg

/-- an answer of a real call that receives -/
inductive RealRecv where
  | dgram (rn : Nat) (p : Peer)
  | bytes (n : Nat)
  | fail (e : Errno)
  deriving DecidableEq

/-- what the app gets -/
inductive Received where
  | conn (fd : Nat) (p : Peer)
  | dgram (rn : Nat) (p : Peer)
  | bytes (n : Nat)
  | tunnel (d : Dgram)
  | fail (e : Errno)
  deriving DecidableEq

/-- no wire peer came through -/
def Received.NoWire : Received → Prop
  | .conn _ p | .dgram _ p => p.isLoopback = true
  | .bytes _ | .tunnel _ | .fail _ => True

/-! ## the doors -/

/-- `dt_udp_pop` -/
inductive Popped where
  | dgram (d : Dgram)
  | closed
  | empty

/-- one turn of the loop of `recvfrom`: what it finds in the queue and on the real socket, whether a
wait slot is there, and the time -/
structure RecvTurn where
  pop : Popped
  real : RealRecv
  arm : Bool
  now : Nat

/-- the datagram that the turn reads off the real socket -/
def RecvTurn.gives (it : RecvTurn) : Option (Nat × Peer) :=
  match it.pop, it.real with
  | .empty, .dgram rn p => some (rn, p)
  | _, _ => none

structure RecvCall where
  sockfd : Nat
  flags : Nat
  arg : AddrArg
  /-- `SO_RCVTIMEO` -/
  tmo : Option Nat
  t0 : Nat

/-- the real `accept`: a connection, or an error -/
inductive RealAccept where
  | conn (fd : Nat) (p : Peer)
  | fail (e : Errno)

namespace HookProc
variable (H : HookProc) (os : HookOs)

/-- the body of `accept` and `accept4` -/
def acceptHook (x : AddrArg) : RealAccept → Received
  | .fail e => .fail e
  | .conn fd p =>
    if x.faults then .fail EFAULT
    else if H.policy.g_direct && H.policy.g_lan_only && (x.store p).wire then .fail .EWOULDBLOCK
    else .conn fd p

def accept (x : AddrArg) (r : RealAccept) : Received := H.acceptHook x r

def accept4 (x : AddrArg) (_flags : Nat) (r : RealAccept) : Received := H.acceptHook x r

/-- a turn ends the call, or the loop goes on with the slot and the address arguments as they are -/
inductive Turned where
  | ret (r : Received)
  | again (armed : Bool) (x : AddrArg)

/-- one turn of the loop of `recvfrom`; `EAGAIN` is `EWOULDBLOCK` -/
def recvTurn (nb : Bool) (c : RecvCall) (armed : Bool) (x : AddrArg) (it : RecvTurn) : Turned :=
  match it.pop with
  | .dgram d => .ret (.tunnel d)
  | .closed => .ret (.fail EBADF)
  | .empty =>
    match it.real with
    | .dgram rn p =>
      if x.faults then .ret (.fail EFAULT)
      else
        let shown := if x.addr.isSome then x.store p else AddrArg.own.store p
        if H.policy.g_lan_only && 0 < rn && shown.wire then
          .again armed (if x.addr.isSome then x.store p else x)
        else .ret (.dgram rn p)
    | .bytes n => .ret (.bytes n)
    | .fail e =>
      if e ≠ .EWOULDBLOCK then .ret (.fail e)
      else if nb then .ret (.fail .EWOULDBLOCK)
      else if ¬ armed then .again it.arm x
      else if ∃ t ∈ c.tmo, t ≤ it.now - c.t0 then .ret (.fail .EWOULDBLOCK)
      else .again true x

/-- the loop over its turns, if the last of them ends it -/
def recvLoop (nb : Bool) (c : RecvCall) : Bool → AddrArg → List RecvTurn → Option Received
  | _, _, [] => none
  | armed, x, it :: rest =>
    match H.recvTurn nb c armed x it with
    | .ret r => if rest.isEmpty then some r else none
    | .again armed x => recvLoop nb c armed x rest

/-- the real call alone -/
def plainRecv (x : AddrArg) : RealRecv → Received
  | .dgram rn p => if x.faults then .fail EFAULT else .dgram rn p
  | .bytes n => .bytes n
  | .fail e => .fail e

/-- the sockets that `recvfrom` polls itself -/
def polled (sockfd : Nat) : Bool :=
  H.policy.g_direct && (os.sockType sockfd = SOCK_DGRAM || isIcmpSock os sockfd)

/-- `recvfrom`; `none` as long as it waits -/
def recvfrom (c : RecvCall) (turns : List RecvTurn) : Option Received :=
  if H.polled os c.sockfd then
    H.recvLoop (os.nonblock c.sockfd || c.flags &&& MSG_DONTWAIT ≠ 0) c false c.arg turns
  else
    match turns with
    | [it] => some (plainRecv c.arg it.real)
    | _ => none

/-- `recv`; `stream` is what `dt_tcp_wait` makes of a hooked stream, no bytes at its end -/
def recv (s : Nat) (stream : Except Errno Nat) (real : RealRecv) : Received :=
  if H.policy.g_direct && (H.streams.bySock s).isSome then
    match stream with
    | .ok n => .bytes n
    | .error e => .fail e
  else plainRecv ⟨none, none⟩ real

/-- a call at one of the doors, with the answers of the real calls -/
inductive IngressCall where
  | accept (x : AddrArg) (r : RealAccept)
  | accept4 (x : AddrArg) (flags : Nat) (r : RealAccept)
  | recvfrom (c : RecvCall) (turns : List RecvTurn)
  | recv (s : Nat) (stream : Except Errno Nat) (real : RealRecv)

def ingress : IngressCall → Option Received
  | .accept x r => some (H.accept x r)
  | .accept4 x flags r => some (H.accept4 x flags r)
  | .recvfrom c turns => H.recvfrom os c turns
  | .recv s stream real => some (H.recv s stream real)

/-- a connection from loopback, or one whose peer the hook gets to see -/
def TightAccept (x : AddrArg) : RealAccept → Prop
  | .conn _ p => p.isLoopback = true ∨ x.faults = true ∨ (H.policy.g_direct = true ∧ x.Shows)
  | .fail _ => True

/-- a datagram from loopback, or one with data whose peer the hook gets to see -/
def TightDgram (x : AddrArg) (y : Nat × Peer) : Prop :=
  y.2.isLoopback = true ∨ x.faults = true ∨ (0 < y.1 ∧ (x.addr = none ∨ x.Shows))

/-- the calls that let no wire peer in -/
def Tight : IngressCall → Prop
  | .accept x r => H.TightAccept x r
  | .accept4 x _ r => H.TightAccept x r
  | .recvfrom c turns =>
    if H.polled os c.sockfd then ∀ it ∈ turns, ∀ y ∈ it.gives, TightDgram c.arg y
    else ∀ it ∈ turns, ∀ rn p, it.real = .dgram rn p → p.isLoopback = true ∨ c.arg.faults = true
  | .recv s _ real => ∀ rn p, real = .dgram rn p →
    p.isLoopback = true ∨ (H.policy.g_direct = true ∧ (H.streams.bySock s).isSome = true)

/-! ## what the hook sees -/

theorem toNat_inj_127 {b : UInt8} : b.toNat = 127 ↔ b = 127 := by
  constructor
  · intro h
    exact UInt8.toNat_inj.mp h
  · rintro rfl
    rfl

/-- the address in memory is loopback by its first octet -/
theorem isLoopback_sinAddr (m : Bytes) :
    ipv4IsLoopback (sinAddr m) = decide (m.getD 4 0 = 127) := by
  have h1 := (m.getD (4 + 1) 0).toNat_lt
  have h2 := (m.getD 6 0).toNat_lt
  have h3 := (m.getD (6 + 1) 0).toNat_lt
  unfold ipv4IsLoopback sinAddr dtGet16
  rw [Nat.shiftRight_eq_div_pow, decide_eq_decide, ← toNat_inj_127]
  constructor
  · intro h
    omega
  · intro h
    omega

/-- the octet that the test looks at, after the kernel stored the peer -/
theorem getD_store (m : Bytes) (n : Nat) (p : Peer) :
    (p.bytes.take n ++ m.drop (min n 16)).getD 4 0 = if 5 ≤ n then p.a else m.getD 4 0 := by
  have hlen : p.bytes.length = 16 := rfl
  by_cases hn : 5 ≤ n
  · rw [if_pos hn]
    obtain ⟨k, rfl⟩ := Nat.exists_eq_add_of_le hn
    rw [Nat.add_comm]
    rfl
  · rw [if_neg hn, List.getD_append_right _ _ _ _ (by rw [List.length_take]; omega)]
    rw [List.length_take, hlen, List.getD_eq_getElem?_getD, List.getElem?_drop,
      List.getD_eq_getElem?_getD]
    congr 2
    omega

theorem wire_store (m : Bytes) (n : Nat) (p : Peer) :
    ((⟨some m, some n⟩ : AddrArg).store p).wire = true ↔
      if 5 ≤ n then p.isLoopback = false else m.getD 4 0 ≠ 127 := by
  show (decide (16 ≤ 16) && !ipv4IsLoopback (sinAddr (p.bytes.take n ++ m.drop (min n 16)))) = true
    ↔ _
  rw [isLoopback_sinAddr, getD_store]
  by_cases hn : 5 ≤ n
  · rw [if_pos hn, if_pos hn]
    simp [Peer.isLoopback]
  · rw [if_neg hn, if_neg hn]
    simp

/-- the hook's own buffer shows the peer -/
theorem wire_own (p : Peer) : (AddrArg.own.store p).wire = true ↔ p.isLoopback = false := by
  unfold AddrArg.own
  rw [wire_store, if_pos (by omega)]

/-- the test on the app's memory: it lets a wire peer pass only if it does not show -/
theorem shows_of_wire {x : AddrArg} {p : Peer} (h : (x.store p).wire = true) : x.Shows := by
  obtain ⟨addr, len⟩ := x
  cases addr with
  | none => cases h
  | some m =>
    cases len with
    | none => cases h
    | some n =>
      rw [wire_store] at h
      refine ⟨m, n, rfl, ?_⟩
      by_cases hn : 5 ≤ n
      · exact Or.inl hn
      · rw [if_neg hn] at h
        exact Or.inr h

theorem wire_of_shows {x : AddrArg} {p : Peer} (h : x.Shows) (hp : p.isLoopback = false) :
    (x.store p).wire = true := by
  obtain ⟨m, n, rfl, h⟩ := h
  rw [wire_store]
  split
  · exact hp
  · next hn => exact h.resolve_left hn

/-! ## isolation -/

variable {H} {os} {nb armed : Bool} {c : RecvCall} {x : AddrArg}

theorem acceptHook_tight (hlan : H.policy.g_lan_only = true) (r : RealAccept) :
    (H.acceptHook x r).NoWire ↔ H.TightAccept x r := by
  cases r with
  | fail e => exact Iff.rfl
  | conn fd p =>
    unfold acceptHook TightAccept
    rw [hlan, Bool.and_true]
    dsimp only
    by_cases hf : x.faults = true
    · rw [if_pos hf]
      exact iff_of_true trivial (Or.inr (Or.inl hf))
    rw [if_neg hf]
    by_cases hw : (H.policy.g_direct && (x.store p).wire) = true
    · rw [if_pos hw]
      obtain ⟨hd, hw⟩ := Bool.and_eq_true_iff.mp hw
      exact iff_of_true trivial (Or.inr (Or.inr ⟨hd, shows_of_wire hw⟩))
    · rw [if_neg hw]
      constructor
      · intro h
        exact Or.inl h
      · rintro (h | h | ⟨hd, h⟩)
        · exact h
        · exact absurd h hf
        · show p.isLoopback = true
          by_contra hp
          apply hw
          rw [hd, wire_of_shows h (by simpa using hp)]
          rfl

variable (nb armed c x) in
/-- a turn that reads no datagram off the wire -/
theorem recvTurn_none {it : RecvTurn} (hg : it.gives = none) :
    (∃ r, H.recvTurn nb c armed x it = .ret r ∧ r.NoWire) ∨
      ∃ a, H.recvTurn nb c armed x it = .again a x := by
  unfold RecvTurn.gives at hg
  unfold recvTurn
  cases hp : it.pop with
  | dgram d => exact Or.inl ⟨_, rfl, trivial⟩
  | closed => exact Or.inl ⟨_, rfl, trivial⟩
  | empty =>
    cases hr : it.real with
    | dgram rn p =>
      rw [hp, hr] at hg
      cases hg
    | bytes n => exact Or.inl ⟨_, rfl, trivial⟩
    | fail e =>
      dsimp only
      by_cases he : e ≠ .EWOULDBLOCK
      · rw [if_pos he]
        exact Or.inl ⟨_, rfl, trivial⟩
      rw [if_neg he]
      by_cases hn : nb = true
      · rw [if_pos hn]
        exact Or.inl ⟨_, rfl, trivial⟩
      rw [if_neg hn]
      by_cases ha : ¬ armed = true
      · rw [if_pos ha]
        exact Or.inr ⟨it.arm, rfl⟩
      rw [if_neg ha]
      by_cases ht : ∃ t ∈ c.tmo, t ≤ it.now - c.t0
      · rw [if_pos ht]
        exact Or.inl ⟨_, rfl, trivial⟩
      · rw [if_neg ht]
        exact Or.inr ⟨true, rfl⟩

theorem gives_some {it : RecvTurn} {y : Nat × Peer} (hg : it.gives = some y) :
    it.pop = .empty ∧ it.real = .dgram y.1 y.2 := by
  unfold RecvTurn.gives at hg
  split at hg
  · next hp hr =>
    cases hg
    exact ⟨hp, hr⟩
  · cases hg

/-- the address arguments as the filter finds them -/
def shown (x : AddrArg) (p : Peer) : AddrArg :=
  if x.addr.isSome then x.store p else AddrArg.own.store p

/-- a turn that reads a datagram off the wire -/
theorem recvTurn_some (hlan : H.policy.g_lan_only = true) {it : RecvTurn} {y : Nat × Peer}
    (hg : it.gives = some y) (hf : x.faults = false) :
    H.recvTurn nb c armed x it =
      if 0 < y.1 ∧ (shown x y.2).wire = true then
        .again armed (if x.addr.isSome then x.store y.2 else x)
      else .ret (.dgram y.1 y.2) := by
  obtain ⟨hp, hr⟩ := gives_some hg
  unfold recvTurn
  rw [hp, hr, hlan]
  dsimp only
  rw [hf, if_neg Bool.false_ne_true, Bool.true_and]
  simp only [Bool.and_eq_true, decide_eq_true_eq]
  rfl

/-- a datagram that the filter drops shows its peer, and so does every later one -/
theorem shows_of_dropped {p : Peer} (hf : x.faults = false) (h : (shown x p).wire = true) :
    (x.addr = none ∨ x.Shows) ∧
      ((if x.addr.isSome then x.store p else x).addr = none ∨
        (if x.addr.isSome then x.store p else x).Shows) ∧
      (if x.addr.isSome then x.store p else x).faults = false := by
  obtain ⟨addr, len⟩ := x
  cases addr with
  | none => exact ⟨Or.inl rfl, Or.inl rfl, rfl⟩
  | some m =>
    cases len with
    | none => cases hf
    | some n => exact ⟨Or.inr (shows_of_wire h), Or.inr ⟨_, 16, rfl, Or.inl (by omega)⟩, rfl⟩

/-- a wire datagram with data that shows its peer is dropped -/
theorem wire_of_tight {p : Peer} (h : x.addr = none ∨ x.Shows) (hp : p.isLoopback = false) :
    (shown x p).wire = true := by
  unfold shown
  rcases h with h | h
  · rw [h]
    exact (wire_own p).mpr hp
  · have hs : x.addr.isSome = true := by
      obtain ⟨m, n, rfl, -⟩ := h
      rfl
    rw [if_pos hs]
    exact wire_of_shows h hp

/-- once the app's memory shows the peers, a datagram is let through or not by its data alone -/
theorem tight_congr {x x' : AddrArg} (hf : x'.faults = x.faults) (hx : x.addr = none ∨ x.Shows)
    (hx' : x'.addr = none ∨ x'.Shows) (y : Nat × Peer) : TightDgram x' y ↔ TightDgram x y := by
  unfold TightDgram
  rw [hf, and_iff_left hx, and_iff_left hx']

theorem recvLoop_tight (hlan : H.policy.g_lan_only = true) {turns : List RecvTurn} {r : Received}
    (h : H.recvLoop nb c armed x turns = some r) :
    r.NoWire ↔ ∀ it ∈ turns, ∀ y ∈ it.gives, TightDgram x y := by
  induction turns generalizing armed x with
  | nil => cases h
  | cons it rest ih =>
    rw [List.forall_mem_cons]
    unfold recvLoop at h
    cases hg : it.gives with
    | none =>
      rcases recvTurn_none (H := H) nb armed c x hg with ⟨r', e, hr⟩ | ⟨a, e⟩
      · rw [e] at h
        obtain ⟨hrest, he⟩ := Option.ite_none_right_eq_some.mp h
        rw [List.isEmpty_iff.mp hrest, ← Option.some.inj he]
        exact iff_of_true hr ⟨nofun, nofun⟩
      · rw [e] at h
        rw [ih h, and_iff_right nofun]
    | some y =>
      have hone : (∀ z ∈ some y, TightDgram x z) ↔ TightDgram x y := by simp
      rw [hone]
      by_cases hf : x.faults = true
      · have e : H.recvTurn nb c armed x it = .ret (.fail EFAULT) := by
          obtain ⟨hp, hr⟩ := gives_some hg
          unfold recvTurn
          rw [hp, hr]
          exact if_pos hf
        rw [e] at h
        obtain ⟨hrest, he⟩ := Option.ite_none_right_eq_some.mp h
        rw [List.isEmpty_iff.mp hrest, ← Option.some.inj he]
        exact iff_of_true trivial ⟨Or.inr (Or.inl hf), nofun⟩
      have hf' : x.faults = false := by simpa using hf
      rw [recvTurn_some hlan hg hf'] at h
      by_cases hdrop : 0 < y.1 ∧ (shown x y.2).wire = true
      · rw [if_pos hdrop] at h
        obtain ⟨hx, hx', hfx⟩ := shows_of_dropped hf' hdrop.2
        have hhead : TightDgram x y := Or.inr (Or.inr ⟨hdrop.1, hx⟩)
        rw [ih h, and_iff_right hhead]
        exact forall₂_congr fun it _ => forall₂_congr fun z _ =>
          tight_congr (hfx.trans hf'.symm) hx hx' z
      · rw [if_neg hdrop] at h
        obtain ⟨hrest, he⟩ := Option.ite_none_right_eq_some.mp h
        rw [List.isEmpty_iff.mp hrest, ← Option.some.inj he]
        constructor
        · intro hp
          exact ⟨Or.inl hp, nofun⟩
        · rintro ⟨h | h | ⟨hpos, h⟩, -⟩
          · exact h
          · exact absurd h hf
          · show y.2.isLoopback = true
            by_contra hp
            exact hdrop ⟨hpos, wire_of_tight h (by simpa using hp)⟩

theorem plainRecv_noWire (x : AddrArg) (real : RealRecv) :
    (plainRecv x real).NoWire ↔
      ∀ rn p, real = .dgram rn p → p.isLoopback = true ∨ x.faults = true := by
  cases real with
  | dgram rn p =>
    unfold plainRecv
    dsimp only
    by_cases hf : x.faults = true
    · rw [if_pos hf]
      exact iff_of_true trivial fun _ _ _ => Or.inr hf
    · rw [if_neg hf]
      constructor
      · intro h rn' p' e
        cases e
        exact Or.inl h
      · intro h
        exact (h rn p rfl).resolve_right hf
  | bytes n => exact iff_of_true trivial nofun
  | fail e => exact iff_of_true trivial nofun

theorem recv_tight (s : Nat) (stream : Except Errno Nat) (real : RealRecv) :
    (H.recv s stream real).NoWire ↔ H.Tight os (.recv s stream real) := by
  unfold recv Tight
  by_cases hs : (H.policy.g_direct && (H.streams.bySock s).isSome) = true
  · rw [if_pos hs]
    refine iff_of_true ?_ fun _ _ _ => Or.inr (Bool.and_eq_true_iff.mp hs)
    cases stream <;> trivial
  · rw [if_neg hs, plainRecv_noWire]
    have hno : ¬ (H.policy.g_direct = true ∧ (H.streams.bySock s).isSome = true) := fun h =>
      hs (Bool.and_eq_true_iff.mpr h)
    simp only [hno, AddrArg.faults, Option.isSome_none, Bool.false_and, Bool.false_eq_true, or_false]

/-- **Ingress isolation.**  Under `LAN_ONLY`, a call of `accept`, `accept4`, `recvfrom` or `recv` that
returns has let no wire peer in exactly when it is tight. -/
theorem ingress_iff (hlan : H.policy.g_lan_only = true) {call : IngressCall} {r : Received}
    (h : H.ingress os call = some r) : r.NoWire ↔ H.Tight os call := by
  cases call with
  | accept x real =>
    rw [← Option.some.inj h]
    exact acceptHook_tight hlan real
  | accept4 x flags real =>
    rw [← Option.some.inj h]
    exact acceptHook_tight hlan real
  | recvfrom c turns =>
    change H.recvfrom os c turns = some r at h
    unfold recvfrom at h
    unfold Tight
    dsimp only
    by_cases hp : H.polled os c.sockfd = true
    · rw [if_pos hp] at h ⊢
      exact recvLoop_tight hlan h
    · rw [if_neg hp] at h ⊢
      split at h
      · next it =>
        rw [← Option.some.inj h, plainRecv_noWire]
        simp only [List.forall_mem_cons, List.not_mem_nil, false_implies, implies_true, and_true]
      · cases h
  | recv s stream real =>
    rw [← Option.some.inj h]
    exact recv_tight s stream real

/-! ### the doors of an isolated process -/

def wirePeer : Peer := ⟨192, 168, 1, 7, 4000⟩

def wireTurn (rn : Nat) : RecvTurn := ⟨.empty, .dgram rn wirePeer, true, 0⟩

/-- room for an address -/
def fullArg : AddrArg := ⟨some (List.replicate 16 0), some 16⟩

/-- `recvfrom` asks for the address; a wire datagram is dropped and a tunnel datagram comes -/
theorem ingress_tunnel : (.tunnel ⟨[1], ⟨0x0AC80003, 27015⟩⟩ : Received).NoWire ↔
    island.Tight (refusedOs SOCK_DGRAM) (.recvfrom ⟨5, 0, fullArg, none, 0⟩
      [wireTurn 4, ⟨.dgram ⟨[1], ⟨0x0AC80003, 27015⟩⟩, .fail .EWOULDBLOCK, true, 0⟩]) := by
  apply ingress_iff (H := island) rfl
  rfl

set_option maxRecDepth 4000 in
/-- a connection accepted without asking for its peer, an empty datagram, and any datagram at
`recv` -/
theorem wire_let_in :
    island.ingress (refusedOs SOCK_STREAM) (.accept ⟨none, none⟩ (.conn 7 wirePeer)) =
      some (.conn 7 wirePeer) ∧
    island.ingress (refusedOs SOCK_DGRAM) (.recvfrom ⟨5, 0, fullArg, none, 0⟩ [wireTurn 0]) =
      some (.dgram 0 wirePeer) ∧
    island.ingress (refusedOs SOCK_DGRAM) (.recv 5 (.ok 0) (.dgram 4 wirePeer)) =
      some (.dgram 4 wirePeer) ∧ ¬ (.dgram 4 wirePeer : Received).NoWire := by
  refine ⟨?_, ?_, ?_, Bool.false_ne_true⟩ <;> decide

end HookProc

end ShadowLan
