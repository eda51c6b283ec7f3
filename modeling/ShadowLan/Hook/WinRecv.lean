import Mathlib.Algebra.Ring.Nat
import ShadowLan.Hook.Release

/-!
# The receive doors of Windows

An app reads a tunneled stream through `recv`, `recvfrom`, `WSARecv` or `WSARecvFrom`.  The first
two go through `dt_win_stream_recv`, which drains the queue and then tells a reset from the peer's
FIN; `WSARecv` has a copy of it, and `WSARecvFrom` looks at UDP sockets alone.

* `tcpWait`          `dt_tcp_wait`, over what it sees at each turn of its loop;
* `hkRecv`, `hkRecvfrom`, `hkWSARecv`, `hkWSARecvFrom`   the doors, with no `OVERLAPPED`;
* `DoorsAgree`       one outcome for all of them, and not the provider's;
* `recv_ended`       a stream that is at its end, through `recv` and `WSARecv`;
* `doors_never`      they never agree, and which of them do.

A call that has not returned after the turns it is given has no outcome.  What `dt_win_stream_recv`
does behind its wait sees the table as the last turn left it.  A wait that `dt_wait_arm` gives no slot
(-1) pops and arms again without a look at the clock or the stream: it is left out.
-/

namespace ShadowLan

/-- what the app gets -/
inductive RecvOut where
  | got (buf : List Byte)
  /-- no bytes and no error -/
  | eof
  /-- `WSAECONNRESET` -/
  | reset
  | wouldBlock
  | timedOut
  /-- what `dt_win_udp_recv` makes of it -/
  | udp
  /-- what the real call on the app's socket makes of it -/
  | provider
  deriving DecidableEq

/-- one turn of a wait: the stream table it sees, and the clock -/
structure Look where
  T : StreamTable
  now : Nat

/-- what a door asks of the socket -/
structure WinHook where
  g_direct : Bool
  udpLike : Nat → Bool
  nonblock : Nat → Bool
  /-- `dt_rcvtimeo_ms`, `-1` for none -/
  rcvtimeo : Nat → Int
  /-- the destination of the socket's entry of `g_hp` -/
  hairpin : Nat → Option SockaddrIn

/-- `sizeof(struct sockaddr_in)` -/
def SOCKADDR_IN_N : Nat := 16

/-- `dt_stream_pop` on the stream of the socket -/
def StreamTable.popSock (T : StreamTable) (s blen : Nat) : StreamTable × Int × List Byte :=
  match T.bySock s with
  | some i => (T.set i ((T.g_st i).pop blen).1, ((T.g_st i).pop blen).2)
  | none => (T, 0, [])

/-- `dt_tcp_wait` from its turn on, which starts to sleep only once it has its slot: the table, the
answer (`1` got, `0` empty or late, `-1` dead or closed) and the bytes -/
def tcpWait (s blen : Nat) (tmo : Int) (nb : Bool) (t0 : Nat) :
    Bool → List Look → Option (StreamTable × Int × List Byte)
  | _, [] => none
  | armed, l :: later =>
    let p := l.T.popSock s blen
    if p.2.1 ≠ 0 ∨ nb then some p
    else if !armed then tcpWait s blen tmo nb t0 true later
    else if 0 ≤ tmo ∧ tmo ≤ ((l.now - t0 : Nat) : Int) then some (l.T, 0, [])
    else if (l.T.bySock s).isNone then some (l.T, -1, [])
    else tcpWait s blen tmo nb t0 true later

/-- the stream of the socket meets the test -/
def StreamTable.ofSock (T : StreamTable) (s : Nat) (p : DtStream → Bool) : Bool :=
  (T.bySock s).any fun i => p (T.g_st i)

/-- `dt_win_stream_recv` behind a wait that said -1 -/
def drainThenVerdict (T : StreamTable) (s blen : Nat) : StreamTable × RecvOut :=
  let q := (T.bySock s).elim 0 fun i => (T.g_st i).total
  let dead := T.ofSock s DtStream.dead
  let again := if q ≠ 0 then T.popSock s blen else (T, 0, [])
  if again.2.1 = 1 then (again.1, .got again.2.2)
  else if again.1.ofSock s (fun st => st.fail == DT_RSTMARK) then (again.1, .reset)
  else if dead then (again.1, .reset)
  else (again.1, .eof)

namespace WinHook
section
variable (w : WinHook) (l : Look) (later : List Look) (s : Nat)

/-- what both copies say of an answer 0 -/
def empty : RecvOut := if w.nonblock s then .wouldBlock else .timedOut

/-- `dt_win_stream_recv` -/
def winStreamRecv (len : Int) : Option (StreamTable × RecvOut) :=
  (tcpWait s len.toNat (if w.nonblock s then 0 else w.rcvtimeo s) (w.nonblock s) l.now false
    (l :: later)).map fun p =>
      if p.2.1 = 1 then (p.1, .got p.2.2)
      else if p.2.1 = -1 then drainThenVerdict p.1 s len.toNat
      else (p.1, w.empty s)

/-- `dt_getpeer` -/
def getpeer (T : StreamTable) : Option SockaddrIn :=
  match T.bySock s with
  | some i => some (T.g_st i).orig
  | none => w.hairpin s

/-- `hk_recv` -/
def hkRecv (len : Int) : Option (StreamTable × RecvOut) :=
  if w.g_direct && !w.udpLike s && (l.T.bySock s).isSome then w.winStreamRecv l later s len
  else some (l.T, .provider)

/-- what `hk_recvfrom` writes to `from`, where the app has room for `fromlen` bytes -/
def fromOf (fromlen : Option Nat) (r : StreamTable × RecvOut) : Option SockaddrIn :=
  match r.2 with
  | .got (_ :: _) => if fromlen.any (SOCKADDR_IN_N ≤ ·) then w.getpeer s r.1 else none
  | _ => none

/-- `hk_recvfrom`, and the address it presents -/
def hkRecvfrom (len : Int) (fromlen : Option Nat) :
    Option ((StreamTable × RecvOut) × Option SockaddrIn) :=
  if w.g_direct && w.udpLike s then some ((l.T, .udp), none)
  else if w.g_direct && (l.T.bySock s).isSome then
    (w.winStreamRecv l later s len).map fun r => (r, w.fromOf s fromlen r)
  else some ((l.T, .provider), none)

/-- `hk_WSARecv` without an `OVERLAPPED`, on buffers of these lengths -/
def hkWSARecv (bufs : List Nat) (cr : Bool) : Option (StreamTable × RecvOut) :=
  match bufs with
  | [len] =>
    if w.g_direct && !cr && (l.T.bySock s).isSome then
      (tcpWait s len (w.rcvtimeo s) (w.nonblock s) l.now false (l :: later)).map fun p =>
        if p.2.1 = 1 then (p.1, .got p.2.2)
        else if p.2.1 = -1 then (p.1, .eof)
        else (p.1, w.empty s)
    else some (l.T, .provider)
  | _ => some (l.T, .provider)

/-- `hk_WSARecvFrom` without an `OVERLAPPED`; it has no branch for a stream -/
def hkWSARecvFrom (bufs : List Nat) : Option (StreamTable × RecvOut) :=
  if w.g_direct && w.udpLike s && bufs.length == 1 then some (l.T, .udp)
  else some (l.T, .provider)

/-- the hook has a stream for the socket -/
structure Tunnels (T : StreamTable) : Prop where
  direct : w.g_direct = true
  tcp : w.udpLike s = false
  stream : (T.bySock s).isSome = true

/-- All doors give the outcome of `recv` on a buffer of the same size and leave the same table, and
it is not what the provider says. -/
structure DoorsAgree (bufs : List Nat) (fromlen : Option Nat) (cr : Bool) : Prop where
  recvfrom : (w.hkRecvfrom l later s bufs.sum fromlen).map Prod.fst = w.hkRecv l later s bufs.sum
  wsaRecv : w.hkWSARecv l later s bufs cr = w.hkRecv l later s bufs.sum
  wsaRecvFrom : w.hkWSARecvFrom l s bufs = w.hkRecv l later s bufs.sum
  hooked : ∀ T, w.hkRecv l later s bufs.sum ≠ some (T, .provider)

end
end WinHook

/-! ## the wait -/

namespace StreamTable

theorem popSock_of_none {T : StreamTable} {s : Nat} (h : T.bySock s = none) (n : Nat) :
    T.popSock s n = (T, 0, []) := by
  unfold popSock
  rw [h]

/-- a pop that gets nothing leaves the table as it is -/
theorem popSock_stays {T : StreamTable} {s n : Nat} (h : (T.popSock s n).2.1 ≠ 1) :
    (T.popSock s n).1 = T := by
  cases hs : T.bySock s with
  | none => rw [popSock_of_none hs]
  | some i =>
    unfold popSock at h ⊢
    rw [hs] at h ⊢
    dsimp only at h ⊢
    have hst : ((T.g_st i).pop n).1 = T.g_st i := by
      unfold DtStream.pop at h ⊢
      by_cases hq : (T.g_st i).h ≠ []
      · rw [if_pos hq] at h
        dsimp only at h
        split_ifs at h <;> exact absurd rfl h
      · rw [if_neg hq]
        split_ifs <;> rfl
    rw [hst]
    show { T with g_st := Function.update T.g_st i (T.g_st i) } = T
    rw [Function.update_eq_self]

end StreamTable

/-- a nonblocking wait is one pop -/
theorem tcpWait_nonblock (s n : Nat) (tmo : Int) (t0 : Nat) (l : Look) (later : List Look) :
    tcpWait s n tmo true t0 false (l :: later) = some (l.T.popSock s n) :=
  if_pos (Or.inr rfl)

/-- behind an answer -1 there is nothing to pop -/
theorem tcpWait_ended {s n : Nat} {tmo : Int} {nb : Bool} {t0 : Nat} {armed : Bool}
    {looks : List Look} {p : StreamTable × Int × List Byte}
    (h : tcpWait s n tmo nb t0 armed looks = some p) (hr : p.2.1 = -1) :
    (p.1.popSock s n).2.1 ≠ 1 := by
  induction looks generalizing armed with
  | nil => cases h
  | cons l later ih =>
    unfold tcpWait at h
    dsimp only at h
    split_ifs at h with h1 h2 h3 h4
    · rw [← Option.some.inj h] at hr ⊢
      have hne : (l.T.popSock s n).2.1 ≠ 1 := by rw [hr]; decide
      rw [StreamTable.popSock_stays hne]
      exact hne
    · exact ih h
    · rw [← Option.some.inj h] at hr
      exact absurd hr (show (0 : Int) ≠ -1 by decide)
    · rw [← Option.some.inj h]
      dsimp only
      rw [StreamTable.popSock_of_none (Option.isNone_iff_eq_none.mp h4)]
      exact show (0 : Int) ≠ 1 by decide
    · exact ih h

/-- the verdict on a stream that has nothing to pop -/
def endVerdict (T : StreamTable) (s : Nat) : RecvOut :=
  if T.ofSock s (fun st => st.fail == DT_RSTMARK) || T.ofSock s DtStream.dead then .reset else .eof

theorem drainThenVerdict_ended {T : StreamTable} {s n : Nat} (h : (T.popSock s n).2.1 ≠ 1) :
    drainThenVerdict T s n = (T, endVerdict T s) := by
  have hT := StreamTable.popSock_stays h
  unfold drainThenVerdict endVerdict
  dsimp only
  have h0 : (if ((T.bySock s).elim 0 fun i => (T.g_st i).total) ≠ 0 then T.popSock s n
      else (T, 0, [])).2.1 ≠ 1 := by
    split_ifs
    · exact h
    · exact show (0 : Int) ≠ 1 by decide
  have h1 : (if ((T.bySock s).elim 0 fun i => (T.g_st i).total) ≠ 0 then T.popSock s n
      else (T, 0, [])).1 = T := by
    split_ifs
    · exact hT
    · rfl
  rw [if_neg h0, h1]
  cases T.ofSock s (fun st => st.fail == DT_RSTMARK) <;> cases T.ofSock s DtStream.dead <;> rfl

/-! ## the doors -/

namespace WinHook
variable {w : WinHook} {l : Look} {later : List Look} {s : Nat}

/-- the wait of `dt_win_stream_recv` is that of `WSARecv` -/
theorem wait_timeout (w : WinHook) (l : Look) (later : List Look) (s n : Nat) :
    tcpWait s n (if w.nonblock s then 0 else w.rcvtimeo s) (w.nonblock s) l.now false
        (l :: later) =
      tcpWait s n (w.rcvtimeo s) (w.nonblock s) l.now false (l :: later) := by
  cases hn : w.nonblock s with
  | true => rw [tcpWait_nonblock, tcpWait_nonblock]
  | false => rfl

/-- what the app makes of an answer of the wait, with this verdict on the end -/
def outOf (w : WinHook) (s : Nat) (verdict : RecvOut) (p : StreamTable × Int × List Byte) :
    StreamTable × RecvOut :=
  if p.2.1 = 1 then (p.1, .got p.2.2)
  else if p.2.1 = -1 then (p.1, verdict)
  else (p.1, w.empty s)

theorem winStreamRecv_eq (w : WinHook) (l : Look) (later : List Look) (s n : Nat) :
    w.winStreamRecv l later s n =
      (tcpWait s n (w.rcvtimeo s) (w.nonblock s) l.now false (l :: later)).map fun p =>
        w.outOf s (endVerdict p.1 s) p := by
  unfold winStreamRecv
  rw [Int.toNat_natCast, wait_timeout]
  cases hw : tcpWait s n (w.rcvtimeo s) (w.nonblock s) l.now false (l :: later) with
  | none => rfl
  | some p =>
    unfold outOf
    dsimp only [Option.map_some]
    by_cases h1 : p.2.1 = 1
    · rw [if_pos h1, if_pos h1]
    · rw [if_neg h1, if_neg h1]
      by_cases h2 : p.2.1 = -1
      · rw [if_pos h2, if_pos h2, drainThenVerdict_ended (tcpWait_ended hw h2)]
      · rw [if_neg h2, if_neg h2]

theorem hkRecv_of (h : w.Tunnels s l.T) (len : Int) :
    w.hkRecv l later s len = w.winStreamRecv l later s len := by
  unfold hkRecv
  rw [h.direct, h.tcp, h.stream]
  rfl

theorem hkRecvfrom_of (h : w.Tunnels s l.T) (len : Int) (fromlen : Option Nat) :
    (w.hkRecvfrom l later s len fromlen).map Prod.fst = w.winStreamRecv l later s len := by
  unfold hkRecvfrom
  rw [h.direct, h.tcp, h.stream]
  show ((w.winStreamRecv l later s len).map _).map Prod.fst = _
  rw [Option.map_map]
  exact congrFun Option.map_id _

theorem hkWSARecv_of (h : w.Tunnels s l.T) (len : Nat) :
    w.hkWSARecv l later s [len] false =
      (tcpWait s len (w.rcvtimeo s) (w.nonblock s) l.now false (l :: later)).map
        (w.outOf s .eof) := by
  unfold hkWSARecv
  rw [h.direct, h.stream]
  rfl

/-- no answer of the wait becomes the provider's, or a reset that the verdict does not say -/
theorem outOf_ne {v x : RecvOut} (p : StreamTable × Int × List Byte) (hv : v ≠ x)
    (hx : x = .provider ∨ x = .reset) : (w.outOf s v p).2 ≠ x := by
  unfold outOf empty
  rcases hx with rfl | rfl <;> split_ifs <;> first | exact hv | exact nofun

theorem endVerdict_ne (T : StreamTable) (s : Nat) : endVerdict T s ≠ .provider := by
  unfold endVerdict
  split_ifs <;> exact nofun

theorem hkRecv_hooked (h : w.Tunnels s l.T) (n : Nat) (T : StreamTable) :
    w.hkRecv l later s n ≠ some (T, .provider) := by
  rw [hkRecv_of h, winStreamRecv_eq]
  intro he
  obtain ⟨p, -, hp⟩ := Option.map_eq_some_iff.mp he
  exact outOf_ne p (endVerdict_ne p.1 s) (Or.inl rfl) (congrArg Prod.snd hp)

theorem hkWSARecvFrom_of (h : w.Tunnels s l.T) (bufs : List Nat) :
    w.hkWSARecvFrom l s bufs = some (l.T, .provider) := by
  unfold hkWSARecvFrom
  rw [h.tcp, Bool.and_false, Bool.false_and]
  rfl

/-- `WSARecv` says what `recv` says unless it is a reset -/
theorem wsaRecv_eq_iff (h : w.Tunnels s l.T) (n : Nat) :
    w.hkWSARecv l later s [n] false = w.hkRecv l later s n ↔
      ∀ T, w.hkRecv l later s n ≠ some (T, .reset) := by
  rw [hkRecv_of h, winStreamRecv_eq, hkWSARecv_of h]
  cases tcpWait s n (w.rcvtimeo s) (w.nonblock s) l.now false (l :: later) with
  | none => exact ⟨fun _ _ => nofun, fun _ => rfl⟩
  | some p =>
    dsimp only [Option.map_some]
    constructor
    · intro he T hT
      rw [← he] at hT
      exact outOf_ne p (show RecvOut.eof ≠ .reset from nofun) (Or.inr rfl)
        (congrArg Prod.snd (Option.some.inj hT))
    · intro hne
      congr 1
      unfold outOf at hne ⊢
      by_cases h1 : p.2.1 = 1
      · rw [if_pos h1, if_pos h1]
      · rw [if_neg h1] at hne ⊢
        rw [if_neg h1]
        by_cases h2 : p.2.1 = -1
        · rw [if_pos h2] at hne ⊢
          rw [if_pos h2]
          unfold endVerdict at hne ⊢
          split_ifs at hne ⊢
          · exact absurd rfl (hne p.1)
          · rfl
        · rw [if_neg h2, if_neg h2]

/-- a stream at its end with nothing queued: `recv` reports a reset or a closed socket as such,
`WSARecv` reports the end of the data -/
theorem recv_ended (h : w.Tunnels s l.T) (n : Nat) (he : (l.T.popSock s n).2.1 = -1) :
    w.hkRecv l later s n = some (l.T, endVerdict l.T s) ∧
      w.hkWSARecv l later s [n] false = some (l.T, .eof) := by
  have hw : tcpWait s n (w.rcvtimeo s) (w.nonblock s) l.now false (l :: later) =
      some (l.T.popSock s n) := by
    unfold tcpWait
    dsimp only
    rw [if_pos (Or.inl (by rw [he]; decide))]
  have hT : (l.T.popSock s n).1 = l.T := StreamTable.popSock_stays (by rw [he]; decide)
  have hout : ∀ v, w.outOf s v (l.T.popSock s n) = (l.T, v) := fun v => by
    unfold outOf
    rw [if_neg (by rw [he]; decide), if_pos he, hT]
  rw [hkRecv_of h, winStreamRecv_eq, hkWSARecv_of h, hw]
  dsimp only [Option.map_some]
  rw [hout, hout, hT]
  exact ⟨rfl, rfl⟩

/-- **The doors of a tunneled stream never agree.**  `recv` and `recvfrom` do, and neither calls
the provider; `WSARecvFrom` always does; `WSARecv` agrees with `recv` exactly on one buffer,
without a completion routine, and where `recv` does not report a reset. -/
theorem doors_never (w : WinHook) (l : Look) (later : List Look) (s : Nat) (bufs : List Nat)
    (fromlen : Option Nat) (cr : Bool) (h : w.Tunnels s l.T) :
    ¬ w.DoorsAgree l later s bufs fromlen cr ∧
      (w.hkRecvfrom l later s bufs.sum fromlen).map Prod.fst = w.hkRecv l later s bufs.sum ∧
      (∀ T, w.hkRecv l later s bufs.sum ≠ some (T, .provider)) ∧
      w.hkWSARecvFrom l s bufs = some (l.T, .provider) ∧
      (w.hkWSARecv l later s bufs cr = w.hkRecv l later s bufs.sum ↔
        cr = false ∧ bufs.length = 1 ∧
          ∀ T, w.hkRecv l later s bufs.sum ≠ some (T, .reset)) := by
  have hhook : ∀ T, w.hkRecv l later s bufs.sum ≠ some (T, .provider) := hkRecv_hooked h bufs.sum
  refine ⟨fun ha => ?_, ?_, hhook, hkWSARecvFrom_of h bufs, ?_⟩
  · exact ha.hooked l.T (ha.wsaRecvFrom ▸ hkWSARecvFrom_of h bufs)
  · rw [hkRecvfrom_of h, hkRecv_of h]
  · constructor
    · intro he
      have hserved := hhook l.T
      rw [← he] at hserved
      obtain ⟨len, rfl⟩ : ∃ len, bufs = [len] := by
        match bufs, hserved with
        | [], hserved => exact absurd rfl hserved
        | [len], _ => exact ⟨len, rfl⟩
        | _ :: _ :: _, hserved => exact absurd rfl hserved
      cases cr with
      | true =>
        refine absurd ?_ hserved
        unfold hkWSARecv
        rw [h.direct]
        rfl
      | false =>
        refine ⟨rfl, rfl, ?_⟩
        rw [List.sum_singleton] at he ⊢
        exact (wsaRecv_eq_iff h len).mp he
    · rintro ⟨rfl, hlen, hne⟩
      obtain ⟨len, rfl⟩ := List.length_eq_one_iff.mp hlen
      rw [List.sum_singleton] at hne ⊢
      exact (wsaRecv_eq_iff h len).mpr hne

/-- a nonblocking TCP socket -/
def polled : WinHook where
  g_direct := true
  udpLike := fun _ => false
  nonblock := fun _ => true
  rcvtimeo := fun _ => -1
  hairpin := fun _ => none

/-- the stream of socket 7 is confirmed, and its thread reads this -/
def reading (e : Ev) : List TableAct :=
  StreamTable.dialing true ++ StreamTable.confirming ++
    [.thread 0 .head, .thread 0 (.select false true), .thread 0 e]

set_option maxRecDepth 4000 in
/-- the connection to the relay breaks: `recv` reports the reset, `WSARecv` the end of the data,
and `WSARecvFrom` is the provider's -/
theorem doors_never_broken : ∃ tr T, Path StreamTable.step .init tr T ∧
    (polled.hkRecv ⟨T, 0⟩ [] 7 4).map Prod.snd = some .reset ∧
    (polled.hkWSARecv ⟨T, 0⟩ [] 7 [4] false).map Prod.snd = some .eof ∧
    ¬ polled.DoorsAgree ⟨T, 0⟩ [] 7 [4] none false := by
  have hrun : (run StreamTable.step .init (reading .recvErr)).isSome = true := by decide
  obtain ⟨T, hT⟩ := Option.isSome_iff_exists.mp hrun
  have h : ∀ T ∈ run StreamTable.step .init (reading .recvErr), (T.bySock 7).isSome = true ∧
      (T.popSock 7 4).2.1 = -1 ∧ endVerdict T 7 = .reset := by decide
  obtain ⟨hs, hpop, hv⟩ := h T hT
  have ht : polled.Tunnels 7 T := ⟨rfl, rfl, hs⟩
  have ht' : polled.Tunnels 7 (⟨T, 0⟩ : Look).T := ht
  have hpop' : ((⟨T, 0⟩ : Look).T.popSock 7 4).2.1 = -1 := by
    dsimp only
    exact hpop
  obtain ⟨h1, h2⟩ : polled.hkRecv ⟨T, 0⟩ [] 7 (4 : Nat) = some (T, endVerdict T 7) ∧
      polled.hkWSARecv ⟨T, 0⟩ [] 7 [4] false = some (T, .eof) := recv_ended ht' 4 hpop'
  refine ⟨_, T, path_run hT, ?_, ?_, (doors_never polled ⟨T, 0⟩ [] 7 [4] none false ht).1⟩
  · have h3 := congrArg (Option.map Prod.snd) h1
    rwa [Option.map_some, hv] at h3
  · have h3 := congrArg (Option.map Prod.snd) h2
    rwa [Option.map_some] at h3

set_option maxRecDepth 4000 in
/-- two bytes are queued: `recv` gets them, `WSARecvFrom` asks the provider -/
theorem queued_astray : ∃ tr T, Path StreamTable.step .init tr T ∧
    (polled.hkRecv ⟨T, 0⟩ [] 7 4).map Prod.snd = some (.got [104, 105]) ∧
    (polled.hkWSARecvFrom ⟨T, 0⟩ 7 [4]).map Prod.snd = some .provider ∧
    ¬ polled.DoorsAgree ⟨T, 0⟩ [] 7 [4] none false := by
  have hrun : (run StreamTable.step .init (reading (.recv [104, 105]))).isSome = true := by
    decide
  obtain ⟨T, hT⟩ := Option.isSome_iff_exists.mp hrun
  have h : ∀ T ∈ run StreamTable.step .init (reading (.recv [104, 105])),
      (polled.hkRecv ⟨T, 0⟩ [] 7 4).map Prod.snd = some (.got [104, 105]) := by
    decide
  have h1 := h T hT
  have h2 : (polled.hkWSARecvFrom ⟨T, 0⟩ 7 [4]).map Prod.snd = some .provider := rfl
  refine ⟨_, T, path_run hT, h1, h2, fun ha => ?_⟩
  have he := congrArg (Option.map Prod.snd) ha.wsaRecvFrom
  rw [h2] at he
  have hgot := he.trans h1
  cases hgot

end WinHook

end ShadowLan
