import ShadowLan.Hook.GameUdp
import ShadowLan.Hook.Release

/-!
# Readiness for `poll`

`dt_poll_scan` writes the events of hooked sockets into the app's array.  What a tunneled stream is
ready for it reads from `dt_sock_state_locked`, which goes by the level of the out-queue and by a
flag for the completed connect; whether bytes are taken is decided by `dt_stream_send` alone.

* `sockState`, `scanFd`, `pollScan`   the scan;
* `Unsignaled`                        on Linux nobody marks a connect as reported;
* `writable_iff`                      what `POLLOUT` says about the next `send`.

`poll` on Linux does not give the descriptor of a tunneled stream to the kernel: its `revents` are
empty before the scan.
-/

namespace ShadowLan

/-- the bits of `events` and `revents` -/
structure PollBits where
  pollin : Bool
  pollout : Bool
  wrnorm : Bool
  /-- any other bit -/
  rest : Bool
  deriving DecidableEq

def PollBits.none : PollBits := ⟨false, false, false, false⟩

structure PollFd where
  fd : Int
  events : PollBits
  revents : PollBits
  deriving DecidableEq

/-- what `dt_sock_state_locked` fills in -/
structure SockState where
  data : Bool
  dead : Bool
  writable : Bool
  connect : Bool
  deriving DecidableEq

section
variable (u : UdpHook) (T : StreamTable)

/-- a row of the table meets the test -/
def anyRow {ρ : Type*} {n : Nat} (rows : Fin n → ρ) (p : ρ → Bool) : Bool := (first rows p).isSome

/-- `dt_sock_state_locked` -/
def sockState (gsock : Nat) : SockState :=
  let dgram (e : DtUdp) : Bool := e.used && !e.closed && e.gsock == gsock
  let mine (st : DtStream) : Bool := st.used && st.gsock == gsock
  let gone (st : DtStream) : Bool := st.dead || st.state == .dead
  let live (st : DtStream) : Bool := st.state == .opened && !st.dead
  { data := anyRow u.g_uq (fun e => dgram e && e.queue ≠ []) ||
      anyRow T.g_st fun st => mine st && (st.h ≠ [] || gone st)
    dead := anyRow T.g_st fun st => mine st && gone st
    writable := anyRow u.g_uq dgram ||
      anyRow T.g_st fun st => mine st && (gone st || live st && st.ototal ≤ DT_ST_WROOM)
    connect := anyRow T.g_st fun st => mine st && live st && !st.connectSignaled }

/-- `dt_udp_has` -/
def udpHas (gsock : Nat) : Bool :=
  (u.udpEntry gsock).any fun i => !(u.g_uq i).closed && (u.g_uq i).queue ≠ []

/-- `dt_stream_has` -/
def streamHas (gsock : Nat) : Bool :=
  (T.bySock gsock).any fun i =>
    (T.g_st i).h ≠ [] || (T.g_st i).peerFin || (T.g_st i).rdShut || (T.g_st i).dead ||
      (T.g_st i).state == .dead

/-- `dt_fd_connecting` -/
def fdConnecting (gsock : Nat) : Bool :=
  (T.bySock gsock).any fun i => (T.g_st i).state == .connecting

/-- `dt_udp_ensure` -/
def udpEnsure (udpLike : Nat → Bool) (gsock : Nat) : UdpHook :=
  if udpLike gsock then (u.udpCreate gsock).1 else u

/-- one turn of the scan -/
def scanFd (udpLike : Nat → Bool) (p : PollFd) : UdpHook × PollFd :=
  if p.fd < 0 then (u, p)
  else
    let fd := p.fd.toNat
    let u' := if p.events.pollin then udpEnsure u udpLike fd else u
    let re := p.revents
    let re := if p.events.pollin && (udpHas u' fd || streamHas T fd) then { re with pollin := true }
      else re
    let re := if (re.pollout || re.wrnorm) && fdConnecting T fd then
        { re with pollout := false, wrnorm := false }
      else re
    let state := sockState u' T fd
    let re := if (p.events.pollout || p.events.wrnorm) && (state.writable || state.connect) then
        { re with pollout := true }
      else re
    (u', { p with revents := re })

/-- `dt_poll_scan`, and how many entries have an event -/
def pollScan (udpLike : Nat → Bool) : UdpHook → List PollFd → UdpHook × List PollFd × Nat
  | u, [] => (u, [], 0)
  | u, p :: fds =>
    let (u', p') := scanFd u T udpLike p
    let (u'', fds', n) := pollScan udpLike u' fds
    (u'', p' :: fds', if 0 ≤ p.fd && p'.revents ≠ .none then n + 1 else n)

/-- the scan of the array reports `POLLOUT` in entry `k` -/
def reportsOut (udpLike : Nat → Bool) (fds : List PollFd) (k : Nat) : Bool :=
  ((pollScan T udpLike u fds).2.1[k]?).any fun p => p.revents.pollout

/-- Wherever the socket stands in an array that is scanned: `POLLOUT` says that a `send` of these
bytes is not turned away, and a stream whose out-queue is above `DT_ST_WROOM` does not have it. -/
def OutIsProgress (udpLike : Nat → Bool) (s : Nat) (st : DtStream) (buf : List Byte) : Prop :=
  ∀ fds k p, fds[k]? = some p → p.fd = (s : Int) → p.revents = .none →
    (reportsOut u T udpLike fds k = true → (st.send buf).2.1 ≠ -2) ∧
    (DT_ST_WROOM < st.ototal → reportsOut u T udpLike fds k = false)

end

/-- an open stream that nobody has shut down -/
structure DtStream.Open (st : DtStream) : Prop where
  state : st.state = .opened
  alive : st.dead = false
  wr : st.wrShut = false

/-! ## nobody marks a connect as reported -/

namespace DtStream
variable (st : DtStream)

theorem signaled_send (buf : List Byte) : (st.send buf).1.connectSignaled = st.connectSignaled := by
  unfold send
  by_cases h1 : st.wrShut = true
  · rw [if_pos h1]
  · rw [if_neg h1]
    by_cases h2 : st.dead = true ∨ st.state = .dead
    · rw [if_pos h2]
    · rw [if_neg h2]
      cases st.room buf.length with
      | none => rfl
      | some len =>
        dsimp only
        split_ifs <;> rfl

theorem signaled_pop (blen : Nat) : (st.pop blen).1.connectSignaled = st.connectSignaled := by
  unfold pop
  dsimp only
  split_ifs <;> rfl

theorem signaled_shutdown (rd wr : Bool) :
    (st.shutdown rd wr).connectSignaled = st.connectSignaled := by
  cases rd <;> cases wr <;> rfl

theorem signaled_close : st.close.connectSignaled = st.connectSignaled := by
  unfold close freeQueues
  dsimp only
  split_ifs <;> rfl

theorem signaled_handed (v : Nat) : (st.handed v).connectSignaled = st.connectSignaled := by
  unfold handed
  split_ifs <;> rfl

theorem signaled_failLocal (r : Nat) : (st.failLocal r).connectSignaled = st.connectSignaled := by
  unfold failLocal
  split_ifs <;> rfl

theorem signaled_goLive (sid fd : Nat) : (st.goLive sid fd).connectSignaled = st.connectSignaled := by
  unfold goLive
  split_ifs <;> rfl

theorem signaled_died (sid : Nat) : (st.died sid).connectSignaled = st.connectSignaled := by
  unfold died
  split_ifs <;> rfl

theorem signaled_verdict (sid type : Nat) (rp : List Byte) :
    (st.verdict sid type rp).connectSignaled = st.connectSignaled := by
  unfold verdict
  split_ifs <;> rfl

theorem signaled_atHead (sid : Nat) : (st.atHead sid).connectSignaled = st.connectSignaled := by
  unfold atHead
  split_ifs <;> rfl

theorem signaled_hardErr (sid : Nat) : (st.hardErr sid).connectSignaled = st.connectSignaled := by
  unfold hardErr
  split_ifs <;> rfl

theorem signaled_fin (sid : Nat) : (st.fin sid).connectSignaled = st.connectSignaled := by
  unfold fin
  split_ifs <;> rfl

theorem signaled_sent (sid k : Nat) : (st.sent sid k).connectSignaled = st.connectSignaled := by
  unfold sent
  dsimp only
  split_ifs <;> rfl

theorem signaled_drained (sid : Nat) : (st.drained sid).connectSignaled = st.connectSignaled := by
  unfold drained
  split_ifs
  · cases st.oh <;> rfl
  · rfl

theorem signaled_flushed (off0 : Nat) : (st.flushed off0).connectSignaled = st.connectSignaled := by
  unfold flushed
  dsimp only
  split_ifs
  · cases st.oh <;> rfl
  · rfl

theorem signaled_queued (sid : Nat) (buf : List Byte) :
    (st.queued sid buf).connectSignaled = st.connectSignaled := by
  unfold queued
  split_ifs <;> rfl

theorem signaled_retire (sid : Nat) : (st.retire sid).connectSignaled = st.connectSignaled := by
  unfold retire freeQueues
  dsimp only
  split_ifs <;> rfl

end DtStream

theorem Thread.Section.signaled {st st' : DtStream} {sid : Nat} {pc pc' : Pc} {e : Ev} {x : Eff}
    (h : Thread.Section st sid pc e st' pc' x) : st'.connectSignaled = st.connectSignaled := by
  cases h with
  | dialFailed | stopenFailed => exact st.signaled_failLocal _
  | stopened fd => exact st.signaled_goLive sid fd
  | died => exact st.signaled_died sid
  | opened type rp | refused type rp => exact st.signaled_verdict sid type rp
  | headDead | headLive => exact st.signaled_atHead sid
  | commit rd k => exact st.signaled_sent sid k
  | recvErr => exact st.signaled_hardErr sid
  | recvFin => exact st.signaled_fin sid
  | recv buf => exact st.signaled_queued sid buf
  | drainOk => exact st.signaled_drained sid
  | retire => exact st.signaled_retire sid
  | _ => rfl

theorem DrainSection.signaled {st st' : DtStream} {d d' : DrainPc} {e : DrainEv} {x : Eff}
    (h : DrainSection st d e st' d' x) : st'.connectSignaled = st.connectSignaled := by
  cases h with
  | ok fd off0 => exact st.signaled_flushed off0
  | release => split_ifs <;> rfl
  | _ => rfl

namespace StreamTable
variable {T T' : StreamTable}

/-- no slot says that the app was told of its connect -/
def Unsignaled (T : StreamTable) : Prop := ∀ i, (T.g_st i).connectSignaled = false

theorem Unsignaled.update {g : Slot → DtStream} {i : Slot} {st : DtStream}
    (h : ∀ j, (g j).connectSignaled = false) (hst : st.connectSignaled = false) (j : Slot) :
    (Function.update g i st j).connectSignaled = false := by
  by_cases hj : j = i
  · rw [hj, Function.update_self]
    exact hst
  · rw [Function.update_of_ne hj]
    exact h j

theorem Unsignaled.onSlot (h : T.Unsignaled) (s : Nat) {f : DtStream → DtStream}
    (hf : ∀ st : DtStream, (f st).connectSignaled = st.connectSignaled) :
    (T.onSlot s f).Unsignaled := by
  unfold StreamTable.onSlot
  cases T.bySock s with
  | none => exact h
  | some i => exact Unsignaled.update h ((hf _).trans (h i))

theorem Unsignaled.handOver {g : Slot → DtStream} (h : ∀ j, (g j).connectSignaled = false)
    (dst : SockaddrIn) (v : Option Nat) (j : Slot) :
    (handOver g dst v j).connectSignaled = false := by
  unfold StreamTable.handOver
  cases v with
  | none => exact h j
  | some v =>
    dsimp only
    cases peeked g dst with
    | none => exact h j
    | some k => exact Unsignaled.update h (((g k).signaled_handed v).trans (h k)) j

theorem Unsignaled.step {a : TableAct} (h : T.Unsignaled) (ha : ∀ s, a ≠ .markConnect s)
    (hs : T.step a = some T') : T'.Unsignaled := by
  cases a with
  | connect s dst =>
    simp only [StreamTable.step] at hs
    split at hs <;> (rw [← Option.some.inj hs]; exact h)
  | alloc k sid =>
    simp only [StreamTable.step] at hs
    split at hs
    · rw [← Option.some.inj hs]
      unfold alloc
      split
      · exact Unsignaled.update h rfl
      · exact h
    · cases hs
  | send s buf =>
    rw [← Option.some.inj hs]
    exact h.onSlot s fun st => st.signaled_send buf
  | pop s blen =>
    rw [← Option.some.inj hs]
    exact h.onSlot s fun st => st.signaled_pop blen
  | shutdown s rd wr =>
    rw [← Option.some.inj hs]
    exact h.onSlot s fun st => st.signaled_shutdown rd wr
  | markConnect s => exact absurd rfl (ha s)
  | close s =>
    rw [← Option.some.inj hs]
    exact h.onSlot s DtStream.signaled_close
  | lookup k =>
    simp only [StreamTable.step] at hs
    split at hs
    · obtain ⟨-, hs⟩ := Option.ite_none_right_eq_some.mp hs
      rw [← Option.some.inj hs]
      unfold lookup
      split
      · split_ifs <;> exact h
      · exact h
    · cases hs
  | thread k e =>
    simp only [StreamTable.step] at hs
    split at hs
    next i t hk =>
      obtain ⟨⟨st', t', x⟩, hsec, rfl⟩ := Option.map_eq_some_iff.mp hs
      have hst : st'.connectSignaled = false := (Thread.step_section hsec).2.signaled.trans (h i)
      intro j
      show (StreamTable.handOver (Function.update T.g_st i st') (T.g_st i).orig x.vfail j).connectSignaled = _
      exact Unsignaled.handOver (Unsignaled.update h hst) _ _ j
    next => cases hs
  | drain i e =>
    simp only [StreamTable.step] at hs
    obtain ⟨⟨st', d', x⟩, hsec, rfl⟩ := Option.map_eq_some_iff.mp hs
    exact Unsignaled.update h ((drainStep_section hsec).signaled.trans (h i))

/-- the app's calls of a Linux process: `dt_stream_mark_connect` is in the Windows hooks only -/
def OnLinux (tr : List (StreamTable × TableAct)) : Prop := ∀ x ∈ tr, ∀ s, x.2 ≠ .markConnect s

theorem unsignaled_run {tr : List (StreamTable × TableAct)} (h : Path StreamTable.step init tr T)
    (hl : OnLinux tr) : T.Unsignaled :=
  h.inv_of_ok (fun _ => rfl) (fun _ _ _ hu ha hs => hu.step ha hs) hl

end StreamTable

/-! ## what is reported, and what is taken -/

theorem anyRow_eq_true {ρ : Type*} {n : Nat} {rows : Fin n → ρ} {p : ρ → Bool} {i : Fin n}
    (h : p (rows i) = true) : anyRow rows p = true := by
  unfold anyRow
  obtain ⟨j, -, hj⟩ := first_isSome h
  rw [hj]
  rfl

/-- an open stream whose connect was never marked is reported as connected, whatever its queue -/
theorem sockState_connect (u : UdpHook) {T : StreamTable} {s : Nat} {i : Slot}
    (hi : T.bySock s = some i) (ho : (T.g_st i).Open) (hc : (T.g_st i).connectSignaled = false) :
    (sockState u T s).connect = true := by
  obtain ⟨-, hu, hg⟩ := StreamTable.bySock_eq_some hi
  have hrow : ((T.g_st i).used && (T.g_st i).gsock == s &&
      ((T.g_st i).state == .opened && !(T.g_st i).dead) && !(T.g_st i).connectSignaled) = true := by
    simp only [hu, hg, ho.state, ho.alive, hc, beq_self_eq_true, Bool.not_false, Bool.and_self]
  unfold sockState
  exact anyRow_eq_true hrow

theorem scanFd_out (u : UdpHook) {T : StreamTable} (udpLike : Nat → Bool) {s : Nat} {p : PollFd}
    (hp : p.fd = (s : Int)) (hc : ∀ u, (sockState u T s).connect = true)
    (he : (p.events.pollout || p.events.wrnorm) = true) :
    (scanFd u T udpLike p).2.revents.pollout = true := by
  have hneg : ¬ p.fd < 0 := by omega
  have hs : p.fd.toNat = s := by rw [hp, Int.toNat_natCast]
  unfold scanFd
  rw [if_neg hneg, hs]
  dsimp only
  rw [he, hc, Bool.or_true, Bool.and_true, if_pos rfl]

theorem reportsOut_of_request {T : StreamTable} (udpLike : Nat → Bool) {s : Nat}
    (hc : ∀ u, (sockState u T s).connect = true) (u : UdpHook) {fds : List PollFd} {k : Nat}
    {p : PollFd} (hk : fds[k]? = some p) (hp : p.fd = (s : Int))
    (he : (p.events.pollout || p.events.wrnorm) = true) : reportsOut u T udpLike fds k = true := by
  induction fds generalizing u k with
  | nil => cases hk
  | cons q fds ih =>
    cases k with
    | zero =>
      have hq : q = p := Option.some.inj hk
      show (scanFd u T udpLike q).2.revents.pollout = true
      rw [hq]
      exact scanFd_out u udpLike hp hc he
    | succ k => exact ih (scanFd u T udpLike q).1 hk

namespace DtStream
variable {st : DtStream} {buf : List Byte}

theorem room_eq_none {len : Nat} : st.room len = none ↔
    DT_ST_MAXOUT < st.ototal + len ∧ (len ≤ DT_ST_MAXOUT ∨ DT_ST_MAXOUT ≤ st.ototal) := by
  unfold room
  by_cases hfull : DT_ST_MAXOUT < st.ototal + len
  · rw [if_pos hfull]
    dsimp only
    by_cases hsome : st.ototal < DT_ST_MAXOUT
    · rw [if_pos hsome]
      by_cases hlen : len ≤ DT_ST_MAXOUT
      · rw [if_pos (Or.inl hlen)]
        exact ⟨fun _ => ⟨hfull, Or.inl hlen⟩, fun _ => rfl⟩
      · rw [if_neg (by omega)]
        exact ⟨fun h => absurd h (Option.some_ne_none _), fun h => by omega⟩
    · rw [if_neg hsome, if_pos (Or.inr rfl)]
      exact ⟨fun _ => ⟨hfull, Or.inr (Nat.le_of_not_lt hsome)⟩, fun _ => rfl⟩
  · rw [if_neg hfull]
    exact ⟨fun h => absurd h (Option.some_ne_none _), fun h => absurd h.1 hfull⟩

/-- a write is turned away when there is no room for it -/
theorem send_wouldBlock (ho : st.Open) : (st.send buf).2.1 = -2 ↔ st.room buf.length = none := by
  have hwr : ¬ st.wrShut = true := by
    rw [ho.wr]
    exact Bool.false_ne_true
  have hlive : ¬ (st.dead = true ∨ st.state = .dead) := by
    rw [ho.alive, ho.state]
    simp
  unfold send
  rw [if_neg hwr, if_neg hlive]
  cases hr : st.room buf.length with
  | none => simp
  | some len =>
    dsimp only
    have hne : ¬ (len : Int) = -2 := by omega
    by_cases hlen : len = 0
    · rw [if_pos hlen]
      simp
    · rw [if_neg hlen]
      exact ⟨fun h => absurd h hne, fun h => absurd h (Option.some_ne_none len)⟩

end DtStream

/-- **What `POLLOUT` means.**  For an open stream of a Linux process the scan keeps its promise exactly
when the out-queue is at most `DT_ST_WROOM`, and the bytes fit beside what is queued or are more
than the whole queue holds. -/
theorem writable_iff {T : StreamTable} {tr : List (StreamTable × TableAct)}
    (h : Path StreamTable.step StreamTable.init tr T) (hl : StreamTable.OnLinux tr) {s : Nat} {i : Slot}
    (hs : T.bySock s = some i) (ho : (T.g_st i).Open) (u : UdpHook) (udpLike : Nat → Bool)
    (buf : List Byte) :
    OutIsProgress u T udpLike s (T.g_st i) buf ↔
      (T.g_st i).ototal ≤ DT_ST_WROOM ∧
        ((T.g_st i).ototal + buf.length ≤ DT_ST_MAXOUT ∨ DT_ST_MAXOUT < buf.length) := by
  have hc : ∀ u, (sockState u T s).connect = true :=
    fun u => sockState_connect u hs ho (StreamTable.unsignaled_run h hl i)
  have hroom : DT_ST_WROOM < DT_ST_MAXOUT := by decide
  constructor
  · intro hout
    have hask := hout [⟨s, ⟨false, true, false, false⟩, .none⟩] 0 _ rfl rfl rfl
    have hrep : reportsOut u T udpLike [⟨s, ⟨false, true, false, false⟩, .none⟩] 0 = true :=
      reportsOut_of_request udpLike hc u rfl rfl rfl
    obtain ⟨hsend, hfull⟩ := hask
    have hle : (T.g_st i).ototal ≤ DT_ST_WROOM := by
      apply Nat.le_of_not_lt
      intro hlt
      rw [hfull hlt] at hrep
      cases hrep
    refine ⟨hle, ?_⟩
    by_contra hno
    apply hsend hrep
    rw [DtStream.send_wouldBlock ho, DtStream.room_eq_none]
    omega
  · rintro ⟨hle, hfit⟩ fds k p - - -
    refine ⟨fun _ hsend => ?_, fun hlt => absurd hle (Nat.not_le_of_lt hlt)⟩
    rw [DtStream.send_wouldBlock ho, DtStream.room_eq_none] at hsend
    omega

/-! ### a poll loop that spins -/

/-- a stream is dialed and confirmed, and the app sends one byte -/
def oneByte : List TableAct :=
  StreamTable.dialing true ++ StreamTable.confirming ++ [TableAct.send 7 [1]]

set_option maxRecDepth 4000 in
theorem oneByte_run : ∃ T, run StreamTable.step StreamTable.init oneByte = some T ∧
    StreamTable.OnLinux (trace StreamTable.step StreamTable.init oneByte) ∧
    T.bySock 7 = some 0 ∧ (T.g_st 0).Open ∧ (T.g_st 0).ototal = 1 := by
  have hrun : (run StreamTable.step StreamTable.init oneByte).isSome = true := by decide
  obtain ⟨T, hT⟩ := Option.isSome_iff_exists.mp hrun
  have hend : ∀ T ∈ run StreamTable.step StreamTable.init oneByte,
      T.bySock 7 = some 0 ∧ (T.g_st 0).state = .opened ∧ (T.g_st 0).dead = false ∧
      (T.g_st 0).wrShut = false ∧ (T.g_st 0).ototal = 1 := by
    decide
  have hmark : (trace StreamTable.step StreamTable.init oneByte).all (fun x =>
      match x.2 with
      | .markConnect _ => false
      | _ => true) = true := by
    decide
  obtain ⟨h1, h2, h3, h4, h5⟩ := hend T hT
  refine ⟨T, hT, fun x hx s he => ?_, h1, ⟨h2, h3, h4⟩, h5⟩
  have hx := List.all_eq_true.mp hmark x hx
  rw [he] at hx
  cases hx

/-- a write of a whole queue's size is turned away as long as one byte waits, with `POLLOUT` on -/
theorem writable_spin : ∃ tr T, Path StreamTable.step StreamTable.init tr T ∧
    StreamTable.OnLinux tr ∧ T.bySock 7 = some 0 ∧ (T.g_st 0).Open ∧
    reportsOut .init T (fun _ => false) [⟨7, ⟨false, true, false, false⟩, .none⟩] 0 = true ∧
    ((T.g_st 0).send (List.replicate 262144 0)).2.1 = -2 := by
  obtain ⟨T, hT, hl, hs, ho, h1⟩ := oneByte_run
  have hun := StreamTable.unsignaled_run (path_run hT) hl
  refine ⟨_, T, path_run hT, hl, hs, ho, ?_, ?_⟩
  · exact reportsOut_of_request _ (fun u => sockState_connect u hs ho (hun 0)) _ rfl rfl rfl
  · rw [DtStream.send_wouldBlock ho, DtStream.room_eq_none, List.length_replicate, h1]
    decide

/-- two bytes more are taken -/
theorem writable_two : ∃ T, OutIsProgress .init T (fun _ => false) 7 (T.g_st 0) [2, 3] := by
  obtain ⟨T, hT, hl, hs, ho, h1⟩ := oneByte_run
  refine ⟨T, (writable_iff (path_run hT) hl hs ho _ _ [2, 3]).mpr ?_⟩
  rw [h1]
  decide

end ShadowLan
