import Mathlib.Tactic.Tauto
import ShadowLan.Hook.Poll
import ShadowLan.Hook.WinRecv

/-!
# Readiness for the event calls of Windows

An app that waits for events asks `WSAEnumNetworkEvents` and `WSAWaitForMultipleEvents` what it
would ask `select`.  `hk_select` goes by `dt_fd_readable`, which counts the peer's FIN and a read
side that is shut as `recv` does; the event calls go by `dt_sock_state_locked`, which knows queued
bytes and death alone.

* `selectReads`          the scan of `hk_select` for readers;
* `enumNetworkEvents`, `evHit`   the event calls;
* `SeesSame`             they report a socket exactly when `select` does;
* `sees_iff`             when they do.

The answer of the real `WSAEnumNetworkEvents` is given.  The real `select` does not fail; it never
sees the socket of a tunneled stream.
-/

namespace ShadowLan

/-- `FD_READ`, `FD_CLOSE`, `FD_WRITE`, `FD_CONNECT`, and the other bits -/
structure NetEvents where
  read : Bool
  close : Bool
  write : Bool
  connect : Bool
  rest : Nat
  deriving DecidableEq

/-- `FD_READ | FD_CLOSE` -/
def NetEvents.readClose : NetEvents := ⟨true, true, false, false, 0⟩

/-- the scan of `hk_select` for the sockets that the app wants to read -/
def readScan (T : StreamTable) (udpLike : Nat → Bool) : UdpHook → List Nat → UdpHook × List Nat
  | u, [] => (u, [])
  | u, s :: r0 =>
    let u' := udpEnsure u udpLike s
    let rest := readScan T udpLike u' r0
    (rest.1, if udpHas u' s || streamHas T s then s :: rest.2 else rest.2)

namespace WinHook
section
variable (w : WinHook) (u : UdpHook) (T : StreamTable)

/-- `dt_win_ours`: a UDP socket gets its receive queue -/
def ours (u : UdpHook) (s : Nat) : UdpHook :=
  if (T.bySock s).isSome then u else udpEnsure u w.udpLike s

/-- what `hk_select` reports readable: the requests are looked over once, then scanned -/
def selectReads (r0 w0 : List Nat) : UdpHook × List Nat :=
  readScan T w.udpLike ((r0 ++ w0).foldl (w.ours T) u) r0

/-- `dt_stream_mark_connect` -/
def markConnect (s : Nat) : StreamTable := T.onSlot s fun st => { st with connectSignaled := true }

/-- `hk_WSAEnumNetworkEvents`: the events, the table, and whether the app's event is set again -/
def enumNetworkEvents (s : Nat) (real : Option NetEvents) :
    Option NetEvents × StreamTable × Bool :=
  match real with
  | none => (none, T, false)
  | some ev =>
    if w.g_direct then
      let state := sockState u T s
      (some { ev with
        read := ev.read || state.data, close := ev.close || state.dead,
        write := ev.write || state.writable, connect := ev.connect || state.connect },
        if state.connect then markConnect T s else T,
        state.data || state.dead || state.writable || state.connect)
    else (some ev, T, false)

/-- it reports `FD_READ` or `FD_CLOSE` -/
def enumReports (s : Nat) (real : Option NetEvents) : Bool :=
  (w.enumNetworkEvents u T s real).1.any fun ev => ev.read || ev.close

end
end WinHook

section
variable (u : UdpHook) (T : StreamTable)

/-- `dt_ev_hit_locked`: the answer, and the table -/
def evHit (s : Nat) (mask : NetEvents) : Bool × StreamTable :=
  let state := sockState u T s
  (state.data && mask.read || state.dead && mask.close || state.writable && mask.write ||
      state.connect && mask.connect,
    if state.connect && mask.connect then
      { T with g_st := fun i =>
        if (T.g_st i).used && (T.g_st i).gsock == s then
          { T.g_st i with connectSignaled := true }
        else T.g_st i }
    else T)

/-- Wherever the socket stands among the readers of a `select`: it is reported readable exactly
when the event calls report `FD_READ` or `FD_CLOSE`. -/
structure SeesSame (w : WinHook) (s : Nat) (real : Option NetEvents) : Prop where
  enum : ∀ r0 w0, s ∈ r0 → (s ∈ (w.selectReads u T r0 w0).2 ↔ w.enumReports u T s real = true)
  hit : ∀ r0 w0, s ∈ r0 →
    (s ∈ (w.selectReads u T r0 w0).2 ↔ (evHit u T s .readClose).1 = true)

/-- nothing is queued for the socket, and the stream in slot `i` is not dead -/
structure NoNews (s : Nat) (i : Slot) : Prop where
  udp : udpHas u s = false
  queue : (T.g_st i).h = []
  alive : (T.g_st i).dead = false
  state : (T.g_st i).state ≠ .dead

/-- the peer has sent its FIN, or the app has shut its read side -/
def Closing (st : DtStream) : Prop := st.peerFin = true ∨ st.rdShut = true

/-- some other slot or a UDP row of the same socket has something queued, or is dead -/
def Elsewhere (s : Nat) (i : Slot) : Prop :=
  (∃ k, (u.g_uq k).used = true ∧ (u.g_uq k).closed = false ∧ (u.g_uq k).gsock = s ∧
    (u.g_uq k).queue ≠ []) ∨
  ∃ j, j ≠ i ∧ (T.g_st j).used = true ∧ (T.g_st j).gsock = s ∧
    ((T.g_st j).h ≠ [] ∨ (T.g_st j).dead = true ∨ (T.g_st j).state = .dead)

end

/-! ## `select` -/

/-- a row for another socket changes nothing for this one -/
theorem udpHas_create {u : UdpHook} {s s' : Nat} (hne : s' ≠ s) :
    udpHas (u.udpCreate s').1 s = udpHas u s := by
  unfold udpHas UdpHook.udpEntry UdpHook.udpCreate
  cases hp : first u.g_uq (fun e => e.used && e.gsock == s') with
  | some i => rw [claim_found hp]
  | none =>
    cases hf : first u.g_uq (fun e => !e.used) with
    | none => rw [claim_full hp hf]
    | some i =>
      rw [claim_fresh hp hf]
      have hfree : (u.g_uq i).used = false := by simpa using first_mem hf
      have hsame : first (Function.update u.g_uq i ⟨true, s', [], false, 0⟩)
          (fun e => e.used && e.gsock == s) = first u.g_uq (fun e => e.used && e.gsock == s) := by
        apply first_update
        rw [hfree, Bool.false_and]
        simpa using hne
      dsimp only
      rw [hsame]
      cases hs : first u.g_uq (fun e => e.used && e.gsock == s) with
      | none => rfl
      | some j =>
        have hj : j ≠ i := by
          rintro rfl
          have hm := first_mem hs
          rw [hfree, Bool.false_and] at hm
          cases hm
        exact congrArg (fun e : DtUdp => !e.closed && decide (e.queue ≠ []))
          (Function.update_of_ne hj _ _)

/-- the UDP rows that the scan makes are not for a socket of this kind -/
theorem udpHas_ensure {u : UdpHook} {udpLike : Nat → Bool} {s : Nat} (hs : udpLike s = false)
    (s' : Nat) : udpHas (udpEnsure u udpLike s') s = udpHas u s := by
  unfold udpEnsure
  by_cases hl : udpLike s' = true
  · rw [if_pos hl]
    apply udpHas_create
    rintro rfl
    rw [hs] at hl
    cases hl
  · rw [if_neg hl]

theorem readScan_mem {u : UdpHook} {T : StreamTable} {udpLike : Nat → Bool} {s : Nat}
    (hs : udpLike s = false) (r0 : List Nat) :
    s ∈ (readScan T udpLike u r0).2 ↔ s ∈ r0 ∧ (udpHas u s || streamHas T s) = true := by
  induction r0 generalizing u with
  | nil => exact iff_of_false List.not_mem_nil fun h => List.not_mem_nil h.1
  | cons t r0 ih =>
    have ih := ih (u := udpEnsure u udpLike t)
    rw [udpHas_ensure hs] at ih
    unfold readScan
    dsimp only
    by_cases ht : s = t
    · subst ht
      rw [udpHas_ensure hs]
      by_cases hhas : (udpHas u s || streamHas T s) = true
      · rw [if_pos hhas]
        exact iff_of_true List.mem_cons_self ⟨List.mem_cons_self, hhas⟩
      · rw [if_neg hhas, ih]
        exact iff_of_false (fun h => hhas h.2) fun h => hhas h.2
    · split_ifs
      · rw [List.mem_cons, List.mem_cons, ih, or_iff_right ht, or_iff_right ht]
      · rw [List.mem_cons, ih, or_iff_right ht]

theorem selectReads_mem {w : WinHook} {u : UdpHook} {T : StreamTable} {s : Nat}
    (hs : w.udpLike s = false) {r0 : List Nat} (w0 : List Nat) (hr : s ∈ r0) :
    s ∈ (w.selectReads u T r0 w0).2 ↔ (udpHas u s || streamHas T s) = true := by
  have hours : ∀ (l : List Nat) (u : UdpHook), udpHas (l.foldl (w.ours T) u) s = udpHas u s := by
    intro l
    induction l with
    | nil => exact fun _ => rfl
    | cons t l ih =>
      intro u
      rw [List.foldl_cons, ih]
      unfold WinHook.ours
      split_ifs
      · rfl
      · exact udpHas_ensure hs t
  unfold WinHook.selectReads
  rw [readScan_mem hs, hours]
  exact and_iff_right hr

/-! ## the event calls -/

theorem anyRow_iff {ρ : Type*} {n : Nat} {rows : Fin n → ρ} {p : ρ → Bool} :
    anyRow rows p = true ↔ ∃ i, p (rows i) = true := by
  unfold anyRow
  constructor
  · intro h
    obtain ⟨i, hi⟩ := Option.isSome_iff_exists.mp h
    exact ⟨i, first_mem hi⟩
  · rintro ⟨i, hi⟩
    exact anyRow_eq_true hi

section
variable {u : UdpHook} {T : StreamTable} {s : Nat} {i : Slot}

/-- what the event calls go by -/
theorem sockState_data_iff : (sockState u T s).data = true ↔
    (∃ k, (u.g_uq k).used = true ∧ (u.g_uq k).closed = false ∧ (u.g_uq k).gsock = s ∧
      (u.g_uq k).queue ≠ []) ∨
    ∃ j, (T.g_st j).used = true ∧ (T.g_st j).gsock = s ∧
      ((T.g_st j).h ≠ [] ∨ (T.g_st j).dead = true ∨ (T.g_st j).state = .dead) := by
  unfold sockState
  dsimp only
  rw [Bool.or_eq_true, anyRow_iff, anyRow_iff]
  simp [and_assoc]

theorem sockState_dead_data (h : (sockState u T s).dead = true) :
    (sockState u T s).data = true := by
  obtain ⟨j, hj⟩ := anyRow_iff.mp h
  obtain ⟨hm, hg⟩ := Bool.and_eq_true_iff.mp hj
  apply Bool.or_eq_true_iff.mpr
  right
  apply anyRow_iff.mpr
  exact ⟨j, Bool.and_eq_true_iff.mpr ⟨hm, Bool.or_eq_true_iff.mpr (Or.inr hg)⟩⟩

theorem evHit_readClose : (evHit u T s .readClose).1 = (sockState u T s).data := by
  show ((sockState u T s).data && true || (sockState u T s).dead && true ||
    (sockState u T s).writable && false || (sockState u T s).connect && false) = _
  rw [Bool.and_true, Bool.and_true, Bool.and_false, Bool.and_false, Bool.or_false, Bool.or_false]
  cases hd : (sockState u T s).dead with
  | false => exact Bool.or_false _
  | true =>
    rw [sockState_dead_data hd]
    rfl

theorem enumReports_eq {w : WinHook} (hg : w.g_direct = true) {ev : NetEvents}
    (hr : ev.read = false) (hc : ev.close = false) :
    w.enumReports u T s (some ev) = (sockState u T s).data := by
  unfold WinHook.enumReports WinHook.enumNetworkEvents
  dsimp only
  rw [if_pos hg]
  show (ev.read || (sockState u T s).data || (ev.close || (sockState u T s).dead)) = _
  rw [hr, hc, Bool.false_or, Bool.false_or]
  cases hd : (sockState u T s).dead with
  | false => exact Bool.or_false _
  | true =>
    rw [sockState_dead_data hd]
    rfl

theorem udpHas_row (h : udpHas u s = true) : ∃ k, (u.g_uq k).used = true ∧
    (u.g_uq k).closed = false ∧ (u.g_uq k).gsock = s ∧ (u.g_uq k).queue ≠ [] := by
  obtain ⟨k, hk, hq⟩ := (Option.any_eq_true _ _).mp h
  have hm := first_mem hk
  obtain ⟨hu, hg⟩ := Bool.and_eq_true_iff.mp hm
  obtain ⟨hc, hq⟩ := Bool.and_eq_true_iff.mp hq
  exact ⟨k, hu, by simpa using hc, eq_of_beq hg, of_decide_eq_true hq⟩

/-- `select` reports the socket unless the stream is still and open -/
theorem ready_iff (hi : T.bySock s = some i) : (udpHas u s || streamHas T s) = true ↔
    ¬ NoNews u T s i ∨ Closing (T.g_st i) := by
  have hstream : streamHas T s = true ↔ (T.g_st i).h ≠ [] ∨ Closing (T.g_st i) ∨
      (T.g_st i).dead = true ∨ (T.g_st i).state = .dead := by
    unfold streamHas Closing
    rw [hi]
    simp [or_assoc]
  rw [Bool.or_eq_true, hstream]
  constructor
  · rintro (hu | hq | hc | hd | hd)
    · refine Or.inl fun hs => ?_
      rw [hs.udp] at hu
      cases hu
    · exact Or.inl fun hs => hq hs.queue
    · exact Or.inr hc
    · refine Or.inl fun hs => ?_
      rw [hs.alive] at hd
      cases hd
    · exact Or.inl fun hs => hs.state hd
  · rintro (hnews | hc)
    · by_contra hno
      obtain ⟨hu, hno⟩ := not_or.mp hno
      obtain ⟨hq, hno⟩ := not_or.mp hno
      obtain ⟨-, hno⟩ := not_or.mp hno
      obtain ⟨hd, hs⟩ := not_or.mp hno
      exact hnews ⟨Bool.eq_false_iff.mpr hu, not_not.mp hq, Bool.eq_false_iff.mpr hd, hs⟩
    · exact Or.inr (Or.inr (Or.inl hc))

/-- the event calls report it unless the stream is still and so is every other row -/
theorem data_iff (hi : T.bySock s = some i) : (sockState u T s).data = true ↔
    ¬ NoNews u T s i ∨ Elsewhere u T s i := by
  obtain ⟨-, hu, hg⟩ := StreamTable.bySock_eq_some hi
  rw [sockState_data_iff]
  constructor
  · rintro (hk | ⟨j, hj⟩)
    · exact Or.inr (Or.inl hk)
    · by_cases hji : j = i
      · subst hji
        refine Or.inl fun hs => ?_
        obtain ⟨-, -, hq | hd | hd⟩ := hj
        · exact hq hs.queue
        · rw [hs.alive] at hd
          cases hd
        · exact hs.state hd
      · exact Or.inr (Or.inr ⟨j, hji, hj⟩)
  · intro h
    by_cases he : Elsewhere u T s i
    · rcases he with hk | ⟨j, -, hj⟩
      · exact Or.inl hk
      · exact Or.inr ⟨j, hj⟩
    · have hnews := h.resolve_right he
      by_contra hno
      rw [not_or] at hno
      refine hnews ⟨?_, ?_, ?_, ?_⟩
      · exact Bool.eq_false_iff.mpr fun hh => hno.1 (udpHas_row hh)
      · by_contra hq
        exact hno.2 ⟨i, hu, hg, Or.inl hq⟩
      · exact Bool.eq_false_iff.mpr fun hd => hno.2 ⟨i, hu, hg, Or.inr (Or.inl hd)⟩
      · exact fun hd => hno.2 ⟨i, hu, hg, Or.inr (Or.inr hd)⟩

/-- **Whether events see what `select` sees.**  For a tunneled stream on whose socket the provider
has neither `FD_READ` nor `FD_CLOSE` they do exactly if something is queued for it, or it is dead,
or neither the peer's FIN nor a shutdown of its read side has come; with one of these two alone,
only another row of the socket with something queued, or dead, makes up for it. -/
theorem sees_iff (w : WinHook) (u : UdpHook) (T : StreamTable) (s : Nat) (i : Slot)
    (h : w.Tunnels s T) (hi : T.bySock s = some i) (ev : NetEvents) (hr : ev.read = false)
    (hc : ev.close = false) :
    SeesSame u T w s (some ev) ↔
      (NoNews u T s i → (Closing (T.g_st i) ↔ Elsewhere u T s i)) := by
  have hone : SeesSame u T w s (some ev) ↔
      ((udpHas u s || streamHas T s) = true ↔ (sockState u T s).data = true) := by
    constructor
    · intro hs
      have he := hs.enum [s] [] List.mem_cons_self
      rwa [selectReads_mem h.tcp [] List.mem_cons_self, enumReports_eq h.direct hr hc] at he
    · intro he
      refine ⟨fun r0 w0 hm => ?_, fun r0 w0 hm => ?_⟩
      · rw [selectReads_mem h.tcp w0 hm, enumReports_eq h.direct hr hc]
        exact he
      · rw [selectReads_mem h.tcp w0 hm, evHit_readClose]
        exact he
  rw [hone, ready_iff hi, data_iff hi]
  by_cases hs : NoNews u T s i
  · rw [imp_iff_right hs, or_iff_right (not_not.mpr hs), or_iff_right (not_not.mpr hs)]
  · exact iff_of_true (iff_of_true (Or.inl hs) (Or.inl hs)) fun h => absurd h hs

open WinHook (polled reading)

/-- two bytes are queued -/
theorem sees_queued : ∃ tr T, Path StreamTable.step .init tr T ∧
    SeesSame .init T polled 7 (some ⟨false, false, false, false, 0⟩) := by
  have hrun : (run StreamTable.step .init (reading (.recv [104, 105]))).isSome = true := by
    decide +kernel
  obtain ⟨T, hT⟩ := Option.isSome_iff_exists.mp hrun
  have h : ∀ T ∈ run StreamTable.step .init (reading (.recv [104, 105])),
      T.bySock 7 = some 0 ∧ (T.g_st 0).h ≠ [] := by decide +kernel
  obtain ⟨hi, hq⟩ := h T hT
  refine ⟨_, T, path_run hT, ?_⟩
  exact (sees_iff polled .init T 7 0 ⟨rfl, rfl, by rw [hi]; rfl⟩ hi _ rfl rfl).mpr
    fun hs => absurd hs.queue hq

/-- a graceful close: the peer's FIN is in and nothing is queued; `select` reports the socket, the
event calls do not -/
theorem fin_unseen : ∃ tr T, Path StreamTable.step .init tr T ∧ polled.Tunnels 7 T ∧
    7 ∈ (polled.selectReads .init T [7] []).2 ∧
    polled.enumReports .init T 7 (some ⟨false, false, false, false, 0⟩) = false ∧
    (evHit .init T 7 .readClose).1 = false ∧
    ¬ SeesSame .init T polled 7 (some ⟨false, false, false, false, 0⟩) := by
  have hrun : (run StreamTable.step .init (reading .recvFin)).isSome = true := by decide +kernel
  obtain ⟨T, hT⟩ := Option.isSome_iff_exists.mp hrun
  have h : ∀ T ∈ run StreamTable.step .init (reading .recvFin),
      (T.bySock 7).isSome = true ∧ 7 ∈ (polled.selectReads .init T [7] []).2 ∧
      polled.enumReports .init T 7 (some ⟨false, false, false, false, 0⟩) = false ∧
      (evHit .init T 7 .readClose).1 = false := by
    decide +kernel
  obtain ⟨hs, hsel, henum, hhit⟩ := h T hT
  refine ⟨_, T, path_run hT, ⟨rfl, rfl, hs⟩, hsel, henum, hhit, fun ha => ?_⟩
  have he := (ha.hit [7] [] List.mem_cons_self).mp hsel
  rw [hhit] at he
  cases he

end

end ShadowLan
