import Mathlib.Algebra.Ring.Nat
import ShadowLan.Hook.Release

/-!
# The send door of Linux

The hooked `send` asks `dt_stream_send_wait`, which asks `dt_stream_send` until the buffer is
queued.  One small number comes up through the three: bytes taken, 0 for a socket that is not the
hook's, -1 for a dead stream, -2 for a full queue, -3 for a write side that is shut down.  `send`
knows the first four; a write of no bytes has the answer of a socket that is not the hook's, and
-3 is nobody's.  What it does not know goes to the real `send`.

* `sendWait`, `hkSend`   the loop over the tables that it sees, and the door;
* `SendClosed`           the door is closed for this state, buffer and kind of socket;
* `Door`                 a condition on the slot and the length;
* `send_closed_iff`      the two are the same.

A call that has not returned after the turns it is given has no result.
-/

namespace ShadowLan

/-- what the app gets of `send` -/
inductive SendOut where
  | sent (r : Int)
  /-- `ECONNRESET`; `SIGPIPE` has been raised -/
  | reset
  /-- `EAGAIN` -/
  | again
  /-- what the real `send` on the app's socket makes of it -/
  | real
  deriving DecidableEq

/-- `(int)n` -/
def cInt (n : Nat) : Int := Int.bmod n 4294967296

/-- the table a call leaves, its answer, and all bytes that it put on the out-queue -/
structure SendRes where
  T : StreamTable
  r : Int
  took : List Byte

/-- `dt_stream_send` on the stream of the socket -/
def StreamTable.sendSock (T : StreamTable) (s : Nat) (buf : List Byte) : SendRes :=
  match T.bySock s with
  | some i =>
    let p := (T.g_st i).send buf
    ⟨T.set i p.1, p.2.1, p.2.2⟩
  | none => ⟨T, 0, []⟩

/-- `dt_stream_send_wait` from the turn on at which `done` bytes are queued; each turn sees the table
that the others have left -/
def sendWait (nb : Bool) (s : Nat) (buf : List Byte) : Nat → List StreamTable → Option SendRes
  | _, [] => none
  | done, T :: later =>
    let p := T.sendSock s (buf.drop done)
    if 0 < p.r then
      let done' := done + p.r.toNat
      if done' < buf.length ∧ ¬ nb then
        (sendWait nb s buf done' later).map fun q => { q with took := p.took ++ q.took }
      else some { p with r := cInt done' }
    else if p.r = -2 ∧ ¬ nb then sendWait nb s buf done later
    else if done ≠ 0 then some { p with r := cInt done }
    else some p

/-- what `send` makes of the answer -/
def SendRes.out (p : SendRes) : SendOut :=
  if 0 < p.r then .sent p.r
  else if p.r = -1 then .reset
  else if p.r = -2 then .again
  else .real

/-- the hooked `send`: the result, and the bytes it put on the out-queue -/
def hkSend (g_direct nb : Bool) (s : Nat) (buf : List Byte) (looks : List StreamTable) :
    Option (SendOut × List Byte) :=
  if g_direct then (sendWait nb s buf 0 looks).map fun p => (p.out, p.took)
  else some (.real, [])

/-- a stream that `dt_stream_send` puts bytes on -/
structure DtStream.Sendable (st : DtStream) : Prop where
  wr : st.wrShut = false
  alive : st.dead = false
  state : st.state ≠ .dead

/-- the socket has a stream that takes bytes -/
def StreamTable.Live (T : StreamTable) (s : Nat) : Prop :=
  ∃ i, T.bySock s = some i ∧ (T.g_st i).Sendable

/-- Whatever the others do to the table while the call lasts: the real `send` is not called, a
positive result counts the bytes of the buffer's front that were queued, and a blocking `send`
on a stream that takes bytes queues the whole buffer unless the stream stops to. -/
structure SendClosed (nb : Bool) (s : Nat) (buf : List Byte) (T : StreamTable) : Prop where
  hooked : ∀ later x, hkSend true nb s buf (T :: later) = some x → x.1 ≠ .real
  exact : ∀ later x r, hkSend true nb s buf (T :: later) = some x → x.1 = .sent r →
    r = x.2.length ∧ x.2 = buf.take x.2.length
  whole : nb = false → T.Live s → ∀ later x, hkSend true nb s buf (T :: later) = some x →
    x.1 ≠ .sent buf.length → ∃ T' ∈ T :: later, ¬ T'.Live s

/-- The write side is not shut down; and the stream is dead, or it takes some bytes now and the
length is an `int`.  A nonblocking call may also find no room. -/
structure DtStream.Door (nb : Bool) (len : Nat) (st : DtStream) : Prop where
  wr : st.wrShut = false
  takes : st.Sendable → st.room len ≠ some 0
  blocks : st.Sendable → nb = false → st.room len ≠ none ∧ len < 2147483648

/-! ## one attempt -/

namespace DtStream
variable {st : DtStream}

theorem room_bound {len k : Nat} (h : st.room len = some k) : k ≤ len ∧ k ≤ DT_ST_MAXOUT := by
  unfold room at h
  by_cases hover : DT_ST_MAXOUT < st.ototal + len
  · rw [if_pos hover] at h
    dsimp only at h
    split_ifs at h with h1 h2 h2
    · rw [← Option.some.inj h]
      omega
    · rw [← Option.some.inj h]
      omega
  · rw [if_neg hover] at h
    rw [← Option.some.inj h]
    omega

theorem room_pos {len k : Nat} (h : st.room len = some k) (hl : 0 < len) : 0 < k := by
  unfold room at h
  by_cases hover : DT_ST_MAXOUT < st.ototal + len
  · rw [if_pos hover] at h
    dsimp only at h
    split_ifs at h with h1 h2 h2
    · rw [← Option.some.inj h]
      omega
    · exact absurd (Or.inr rfl) h2
  · rw [if_neg hover] at h
    rw [← Option.some.inj h]
    exact hl

theorem send_shut (h : st.wrShut = true) (buf : List Byte) : st.send buf = (st, -3, []) := by
  unfold send
  rw [if_pos h]

theorem send_dead (h : st.wrShut = false) (hd : ¬ st.Sendable) (buf : List Byte) :
    st.send buf = (st, -1, []) := by
  have hgone : st.dead = true ∨ st.state = .dead := by
    by_contra hno
    rw [not_or] at hno
    exact hd ⟨h, Bool.eq_false_iff.mpr hno.1, hno.2⟩
  unfold send
  rw [if_neg (by rw [h]; exact Bool.false_ne_true), if_pos hgone]

/-- what a live stream answers, and what it takes -/
theorem send_live (h : st.Sendable) (buf : List Byte) :
    (st.send buf).2 = match st.room buf.length with
      | none => (-2, [])
      | some k => ((k : Int), buf.take k) := by
  have hgone : ¬ (st.dead = true ∨ st.state = .dead) := by
    rw [h.alive]
    simpa using h.state
  unfold send
  rw [if_neg (by rw [h.wr]; exact Bool.false_ne_true), if_neg hgone]
  cases st.room buf.length with
  | none => rfl
  | some k =>
    dsimp only
    by_cases h0 : k = 0
    · rw [if_pos h0, h0]
      rfl
    · rw [if_neg h0]

end DtStream

theorem sendSock_of {T : StreamTable} {s : Nat} {i : Slot} (h : T.bySock s = some i)
    (buf : List Byte) : (T.sendSock s buf).r = ((T.g_st i).send buf).2.1 ∧
      (T.sendSock s buf).took = ((T.g_st i).send buf).2.2 := by
  unfold StreamTable.sendSock
  rw [h]
  exact ⟨rfl, rfl⟩

/-- what one attempt at `b` can say, for a table in which the socket is live, and for any other -/
theorem sendSock_cases (T : StreamTable) (s : Nat) (b : List Byte) :
    (∃ k, k ≤ b.length ∧ k ≤ DT_ST_MAXOUT ∧ (T.sendSock s b).r = k ∧
      (T.sendSock s b).took = b.take k ∧ (T.Live s → 0 < b.length → 0 < k)) ∨
    ((T.sendSock s b).r < 0 ∧ (T.sendSock s b).took = [] ∧
      (T.Live s → (T.sendSock s b).r = -2)) := by
  cases hi : T.bySock s with
  | none =>
    left
    unfold StreamTable.sendSock
    rw [hi]
    refine ⟨0, Nat.zero_le _, Nat.zero_le _, rfl, rfl, ?_⟩
    rintro ⟨j, hj, -⟩
    rw [hi] at hj
    cases hj
  | some i =>
    obtain ⟨hr, ht⟩ := sendSock_of hi b
    rw [hr, ht]
    have hlive : T.Live s → (T.g_st i).Sendable := by
      rintro ⟨j, hj, hs⟩
      rw [hi] at hj
      rwa [Option.some.inj hj]
    by_cases hw : (T.g_st i).wrShut = true
    · rw [DtStream.send_shut hw]
      refine Or.inr ⟨show (-3 : Int) < 0 by decide, rfl, fun hl => ?_⟩
      have hwr := (hlive hl).wr
      rw [hw] at hwr
      cases hwr
    · by_cases hs : (T.g_st i).Sendable
      · rw [DtStream.send_live hs]
        cases hroom : (T.g_st i).room b.length with
        | none => exact Or.inr ⟨show (-2 : Int) < 0 by decide, rfl, fun _ => rfl⟩
        | some k =>
          obtain ⟨hk, hmax⟩ := DtStream.room_bound hroom
          exact Or.inl ⟨k, hk, hmax, rfl, rfl, fun _ => DtStream.room_pos hroom⟩
      · rw [DtStream.send_dead (Bool.eq_false_iff.mpr hw) hs]
        exact Or.inr ⟨show (-1 : Int) < 0 by decide, rfl, fun hl => absurd (hlive hl) hs⟩

/-! ## the loop -/

/-- a call that has queued something reports what it has queued, and has queued everything unless
it is nonblocking or the stream stopped to take bytes -/
theorem sendWait_done {nb : Bool} {s : Nat} {buf : List Byte} {looks : List StreamTable}
    {done : Nat} {p : SendRes} (h : sendWait nb s buf done looks = some p) (h0 : 0 < done)
    (hle : done ≤ buf.length) :
    ∃ d, done ≤ d ∧ d ≤ buf.length ∧ p.r = cInt d ∧ p.took = (buf.drop done).take (d - done) ∧
      (nb = false → d ≠ buf.length → ∃ T ∈ looks, ¬ T.Live s) := by
  induction looks generalizing done p with
  | nil => cases h
  | cons T later ih =>
    unfold sendWait at h
    dsimp only at h
    have hstay : p = { T.sendSock s (buf.drop done) with r := cInt done } →
        (T.sendSock s (buf.drop done)).took = [] → (nb = false → done ≠ buf.length → ¬ T.Live s) →
        ∃ d, done ≤ d ∧ d ≤ buf.length ∧ p.r = cInt d ∧
          p.took = (buf.drop done).take (d - done) ∧
          (nb = false → d ≠ buf.length → ∃ T' ∈ T :: later, ¬ T'.Live s) := by
      rintro rfl ht hl
      refine ⟨done, Nat.le_refl _, hle, by dsimp only, ?_, fun hn hne => ?_⟩
      · rw [Nat.sub_self]
        exact ht
      · exact ⟨T, List.mem_cons_self, hl hn hne⟩
    rcases sendSock_cases T s (buf.drop done) with ⟨k, hk, -, hr, ht, hl⟩ | ⟨hr, ht, hl⟩
    · rw [List.length_drop] at hk hl
      by_cases hk0 : 0 < k
      · rw [hr, if_pos (Int.natCast_pos.mpr hk0), Int.toNat_natCast] at h
        by_cases hmore : done + k < buf.length ∧ ¬ nb = true
        · rw [if_pos hmore] at h
          obtain ⟨q, hq, rfl⟩ := Option.map_eq_some_iff.mp h
          obtain ⟨d, hd, hdl, hqr, hqt, hw⟩ := ih hq (by omega) (by omega)
          refine ⟨d, by omega, hdl, hqr, ?_, fun hn hne => ?_⟩
          · show (T.sendSock s (buf.drop done)).took ++ q.took = _
            rw [ht, hqt, ← List.drop_drop, ← List.take_add]
            congr 1
            omega
          · obtain ⟨T', hT', hno⟩ := hw hn hne
            exact ⟨T', List.mem_cons_of_mem _ hT', hno⟩
        · rw [if_neg hmore] at h
          rw [← Option.some.inj h]
          refine ⟨done + k, by omega, by omega, by dsimp only, ?_, fun hn hne => ?_⟩
          · rw [Nat.add_sub_cancel_left]
            exact ht
          · exact absurd ⟨by omega, by rw [hn]; exact Bool.false_ne_true⟩ hmore
      · obtain rfl : k = 0 := by omega
        rw [hr, if_neg (by decide), if_neg (fun hc => absurd hc.1 (by decide)),
          if_pos (by omega)] at h
        exact hstay (Option.some.inj h).symm ht fun _ hne hlive => hk0 (hl hlive (by omega))
    · rw [if_neg (by omega)] at h
      by_cases hfull : (T.sendSock s (buf.drop done)).r = -2 ∧ ¬ nb = true
      · rw [if_pos hfull] at h
        obtain ⟨d, hd, hdl, hpr, hpt, hw⟩ := ih h h0 hle
        refine ⟨d, hd, hdl, hpr, hpt, fun hn hne => ?_⟩
        obtain ⟨T', hT', hno⟩ := hw hn hne
        exact ⟨T', List.mem_cons_of_mem _ hT', hno⟩
      · rw [if_neg hfull, if_pos (by omega)] at h
        refine hstay (Option.some.inj h).symm ht fun hn _ hlive => hfull ⟨hl hlive, ?_⟩
        rw [hn]
        exact Bool.false_ne_true

theorem cInt_of_lt {n : Nat} (h : n < 2147483648) : cInt n = n := by
  unfold cInt
  rw [Int.bmod_def]
  split_ifs <;> omega

theorem cInt_lt (n : Nat) : cInt n < 2147483648 := by
  unfold cInt
  have h := Int.bmod_lt (x := n) (show 0 < 4294967296 by decide)
  omega

theorem mem_hkSend {nb : Bool} {s : Nat} {buf : List Byte} {looks : List StreamTable}
    {x : SendOut × List Byte} : hkSend true nb s buf looks = some x ↔
      ∃ p, sendWait nb s buf 0 looks = some p ∧ (p.out, p.took) = x := by
  show Option.map _ _ = some x ↔ _
  rw [Option.map_eq_some_iff]

section
variable {nb : Bool} {s : Nat} {buf : List Byte} {T : StreamTable} {i : Slot}

/-- an attempt that fails, and is not made again -/
theorem sendWait_fails (hi : T.bySock s = some i) (hr : ((T.g_st i).send buf).2.1 ≤ 0)
    (hno : ((T.g_st i).send buf).2.1 = -2 → nb = true) (later : List StreamTable) :
    sendWait nb s buf 0 (T :: later) = some (T.sendSock s buf) := by
  have hs := (sendSock_of hi buf).1
  unfold sendWait
  dsimp only
  rw [List.drop_zero, hs, if_neg (by omega), if_neg (fun h => h.2 (hno h.1)),
    if_neg (not_not.mpr rfl)]

/-- the first attempt takes bytes -/
theorem sendWait_takes (hi : T.bySock s = some i) (hs : (T.g_st i).Sendable) {k : Nat}
    (hk : (T.g_st i).room buf.length = some k) (h0 : 0 < k) {later : List StreamTable}
    {p : SendRes} (h : sendWait nb s buf 0 (T :: later) = some p) :
    ∃ d, 0 < d ∧ d ≤ buf.length ∧ (nb = true → d = k) ∧ p.r = cInt d ∧ p.took = buf.take d ∧
      (nb = false → d ≠ buf.length → ∃ T' ∈ T :: later, ¬ T'.Live s) := by
  obtain ⟨hle, -⟩ := DtStream.room_bound hk
  obtain ⟨hr, ht⟩ := sendSock_of hi buf
  rw [DtStream.send_live hs, hk] at hr ht
  dsimp only at hr ht
  unfold sendWait at h
  dsimp only at h
  rw [List.drop_zero, hr, if_pos (Int.natCast_pos.mpr h0), Int.toNat_natCast, Nat.zero_add] at h
  by_cases hmore : k < buf.length ∧ ¬ nb = true
  · rw [if_pos hmore] at h
    obtain ⟨q, hq, rfl⟩ := Option.map_eq_some_iff.mp h
    obtain ⟨d, hd, hdl, hqr, hqt, hw⟩ := sendWait_done hq h0 hle
    refine ⟨d, by omega, hdl, fun hn => absurd hn hmore.2, hqr, ?_, fun hn hne => ?_⟩
    · show (T.sendSock s buf).took ++ q.took = _
      rw [ht, hqt, ← List.take_add]
      congr 1
      omega
    · obtain ⟨T', hT', hno⟩ := hw hn hne
      exact ⟨T', List.mem_cons_of_mem _ hT', hno⟩
  · rw [if_neg hmore] at h
    rw [← Option.some.inj h]
    refine ⟨k, h0, hle, fun _ => rfl, by dsimp only, ht, fun hn hne => ?_⟩
    exact absurd ⟨by omega, by rw [hn]; exact Bool.false_ne_true⟩ hmore

theorem out_eq {p : SendRes} (hi : T.bySock s = some i) (hp : p = T.sendSock s buf) :
    p.out = (⟨T, ((T.g_st i).send buf).2.1, []⟩ : SendRes).out := by
  unfold SendRes.out
  rw [hp, (sendSock_of hi buf).1]

/-- a call that always ends with the same refusal is closed -/
theorem sendClosed_of_refusal (out : SendOut)
    (hout : ∀ later, ∃ p, sendWait nb s buf 0 (T :: later) = some p ∧ p.out = out)
    (hreal : out ≠ .real) (hsent : ∀ r, out ≠ .sent r) (hdead : nb = false → ¬ T.Live s) :
    SendClosed nb s buf T := by
  have hx : ∀ later x, hkSend true nb s buf (T :: later) = some x → x.1 = out := by
    intro later x hx
    obtain ⟨p, hp, rfl⟩ := mem_hkSend.mp hx
    obtain ⟨q, hq, ho⟩ := hout later
    rw [hp] at hq
    rwa [Option.some.inj hq]
  refine ⟨fun later x he => ?_, fun later x r he hr => ?_, fun hn hl => absurd hl (hdead hn)⟩
  · rw [hx later x he]
    exact hreal
  · rw [hx later x he] at hr
    exact absurd hr (hsent r)

/-- a call that takes bytes at once is closed if what it takes in all is an `int` -/
theorem sendClosed_of_takes (hi : T.bySock s = some i) (hs : (T.g_st i).Sendable) {k : Nat}
    (hk : (T.g_st i).room buf.length = some k) (h0 : 0 < k)
    (hlen : nb = false → buf.length < 2147483648) : SendClosed nb s buf T := by
  have hx : ∀ later x, hkSend true nb s buf (T :: later) = some x →
      ∃ d : Nat, d ≤ buf.length ∧ x = (.sent d, buf.take d) ∧
        (nb = false → d ≠ buf.length → ∃ T' ∈ T :: later, ¬ T'.Live s) := by
    intro later x hx
    obtain ⟨p, hp, rfl⟩ := mem_hkSend.mp hx
    obtain ⟨d, hd, hdl, hnb, hr, ht, hw⟩ := sendWait_takes hi hs hk h0 hp
    have hint : d < 2147483648 := by
      cases hn : nb with
      | false => exact Nat.lt_of_le_of_lt hdl (hlen hn)
      | true =>
        obtain ⟨-, hmax⟩ := DtStream.room_bound hk
        rw [hnb hn]
        exact Nat.lt_of_le_of_lt hmax (by decide)
    refine ⟨d, hdl, ?_, hw⟩
    rw [cInt_of_lt hint] at hr
    unfold SendRes.out
    rw [hr, if_pos (Int.natCast_pos.mpr hd), ht]
  refine ⟨fun later x he => ?_, fun later x r he hr => ?_, fun hn _ later x he hne => ?_⟩
  · obtain ⟨d, -, rfl, -⟩ := hx later x he
    exact nofun
  · obtain ⟨d, hdl, rfl, -⟩ := hx later x he
    have hl : (buf.take d).length = d := List.length_take_of_le hdl
    rw [hl]
    exact ⟨(SendOut.sent.inj hr).symm, rfl⟩
  · obtain ⟨d, -, rfl, hw⟩ := hx later x he
    refine hw hn fun hd => hne ?_
    rw [hd]

theorem sendClosed_of_door (hi : T.bySock s = some i) (h : (T.g_st i).Door nb buf.length) :
    SendClosed nb s buf T := by
  by_cases hs : (T.g_st i).Sendable
  · cases hroom : (T.g_st i).room buf.length with
    | none =>
      have hnb : nb = true := by
        by_contra hn
        exact (h.blocks hs (Bool.eq_false_iff.mpr hn)).1 hroom
      have hans : ((T.g_st i).send buf).2.1 = -2 := by
        rw [DtStream.send_live hs, hroom]
      refine sendClosed_of_refusal .again (fun later => ⟨_, sendWait_fails hi (by omega)
        (fun _ => hnb) later, ?_⟩) nofun (fun _ => nofun) fun hn => ?_
      · rw [out_eq hi rfl, hans]
        rfl
      · rw [hnb] at hn
        cases hn
    | some k =>
      have h0 : 0 < k := by
        apply Nat.pos_of_ne_zero
        rintro rfl
        exact h.takes hs hroom
      exact sendClosed_of_takes hi hs hroom h0 fun hn => (h.blocks hs hn).2
  · have hans : ((T.g_st i).send buf).2.1 = -1 := by
      rw [DtStream.send_dead h.wr hs]
    refine sendClosed_of_refusal .reset (fun later => ⟨_, sendWait_fails hi (by omega)
      (fun hc => ?_) later, ?_⟩) nofun (fun _ => nofun) fun _ => ?_
    · rw [hans] at hc
      exact absurd hc (by decide)
    · rw [out_eq hi rfl, hans]
      rfl
    · rintro ⟨j, hj, hl⟩
      rw [hi] at hj
      rw [← Option.some.inj hj] at hl
      exact hs hl

/-! ## courses on which the door is not closed -/

/-- a slot that keeps its identity is found again -/
theorem bySock_set (hi : T.bySock s = some i) (st : DtStream) (hu : st.used = (T.g_st i).used)
    (hg : st.gsock = (T.g_st i).gsock) : (T.set i st).bySock s = some i := by
  have hsame : (fun j => ((T.set i st).g_st j).used && ((T.set i st).g_st j).gsock == s) =
      fun j => (T.g_st j).used && (T.g_st j).gsock == s := by
    funext j
    show ((Function.update T.g_st i st j).used && _) = _
    by_cases hj : j = i
    · subst hj
      show ((Function.update T.g_st j st j).used &&
        (Function.update T.g_st j st j).gsock == s) = _
      rw [Function.update_self, hu, hg]
    · show ((Function.update T.g_st i st j).used &&
        (Function.update T.g_st i st j).gsock == s) = _
      rw [Function.update_of_ne hj]
  unfold StreamTable.bySock at hi ⊢
  rw [hsame]
  exact hi

theorem set_self (T : StreamTable) (i : Slot) (st : DtStream) : (T.set i st).g_st i = st :=
  Function.update_self ..

/-- an attempt that fails with an answer that `send` does not know -/
theorem real_of_fails (hi : T.bySock s = some i)
    (hr : ((T.g_st i).send buf).2.1 = 0 ∨ ((T.g_st i).send buf).2.1 = -3) :
    ¬ SendClosed nb s buf T := by
  intro hc
  have hw : sendWait nb s buf 0 [T] = some (T.sendSock s buf) :=
    sendWait_fails hi (by omega) (fun h => by omega) []
  refine hc.hooked [] _ (mem_hkSend.mpr ⟨_, hw, rfl⟩) ?_
  rw [out_eq hi rfl]
  rcases hr with hr | hr <;> (rw [hr]; rfl)

/-- another thread of the app shuts the write side down while the call waits for room -/
theorem real_of_full (hi : T.bySock s = some i) (hs : (T.g_st i).Sendable)
    (hroom : (T.g_st i).room buf.length = none) : ¬ SendClosed false s buf T := by
  intro hc
  have hi' := bySock_set hi { T.g_st i with wrShut := true } rfl rfl
  have hg := set_self T i { T.g_st i with wrShut := true }
  generalize T.set i { T.g_st i with wrShut := true } = T' at hi' hg
  have hans : ((T'.g_st i).send buf).2.1 = -3 := by
    rw [DtStream.send_shut (by rw [hg])]
  have hw : sendWait false s buf 0 [T, T'] = some (T'.sendSock s buf) := by
    have hr := (sendSock_of hi buf).1
    rw [DtStream.send_live hs, hroom] at hr
    dsimp only at hr
    unfold sendWait
    dsimp only
    rw [List.drop_zero, hr, if_neg (by decide), if_pos ⟨rfl, Bool.false_ne_true⟩]
    exact sendWait_fails hi' (by omega) (fun h => by omega) []
  refine hc.hooked [T'] _ (mem_hkSend.mpr ⟨_, hw, rfl⟩) ?_
  rw [out_eq hi' rfl, hans]
  rfl

theorem DtStream.room_emptied {st : DtStream} (h : st.ototal = 0) (len : Nat) :
    st.room len = some (min len DT_ST_MAXOUT) := by
  have hpos : 0 < DT_ST_MAXOUT := by decide
  unfold room
  rw [h, Nat.zero_add]
  by_cases hl : DT_ST_MAXOUT < len
  · rw [if_pos hl, if_pos hpos]
    dsimp only
    rw [if_neg (by omega), Nat.sub_zero, Nat.min_eq_right hl.le]
  · rw [if_neg hl, Nat.min_eq_left (by omega)]

/-- a blocking call gets rid of the whole buffer if the queue is empty at every turn -/
theorem sendWait_all (hi : T.bySock s = some i) (hs : (T.g_st i).Sendable)
    (he : (T.g_st i).ototal = 0) (n : Nat) {done : Nat} (hd : done < buf.length)
    (hn : buf.length ≤ done + n * DT_ST_MAXOUT) :
    ∃ p, sendWait false s buf done (List.replicate n T) = some p ∧ p.r = cInt buf.length := by
  induction n generalizing done with
  | zero => omega
  | succ n ih =>
    have hpos : 0 < DT_ST_MAXOUT := by decide
    have hr := (sendSock_of hi (buf.drop done)).1
    rw [DtStream.send_live hs, DtStream.room_emptied he, List.length_drop] at hr
    dsimp only at hr
    rw [Nat.succ_mul] at hn
    generalize hk : min (buf.length - done) DT_ST_MAXOUT = k at hr
    rw [List.replicate_succ]
    unfold sendWait
    dsimp only
    rw [hr, if_pos (Int.natCast_pos.mpr (by omega)), Int.toNat_natCast]
    by_cases hmore : done + k < buf.length ∧ ¬ false = true
    · rw [if_pos hmore]
      obtain ⟨q, hq, hqr⟩ := ih hmore.1 (by omega)
      rw [hq]
      exact ⟨_, rfl, hqr⟩
    · rw [if_neg hmore]
      have hall : done + k = buf.length := by
        by_contra hne
        exact hmore ⟨by omega, Bool.false_ne_true⟩
      refine ⟨_, rfl, ?_⟩
      dsimp only
      rw [hall]

/-- a buffer whose length is no `int`: the others make room, and the call does not say that
everything is queued -/
theorem long_of_takes (hi : T.bySock s = some i) (hs : (T.g_st i).Sendable) {k : Nat}
    (hk : (T.g_st i).room buf.length = some k) (h0 : 0 < k) (hlen : 2147483648 ≤ buf.length) :
    ¬ SendClosed false s buf T := by
  intro hc
  have hi' := bySock_set hi { T.g_st i with oh := [], ototal := 0 } rfl rfl
  have hg := set_self T i { T.g_st i with oh := [], ototal := 0 }
  generalize T.set i { T.g_st i with oh := [], ototal := 0 } = T' at hi' hg
  have hs' : (T'.g_st i).Sendable := by
    rw [hg]
    exact ⟨hs.wr, hs.alive, hs.state⟩
  have he : (T'.g_st i).ototal = 0 := by rw [hg]
  obtain ⟨hle, hmax⟩ := DtStream.room_bound hk
  have hcap : DT_ST_MAXOUT = 262144 := rfl
  obtain ⟨p, hp, hpr⟩ : ∃ p, sendWait false s buf 0 (T :: List.replicate buf.length T') = some p ∧
      p.r = cInt buf.length := by
    have hr := (sendSock_of hi buf).1
    rw [DtStream.send_live hs, hk] at hr
    dsimp only at hr
    unfold sendWait
    dsimp only
    rw [List.drop_zero, hr, if_pos (Int.natCast_pos.mpr h0), Int.toNat_natCast, Nat.zero_add,
      if_pos ⟨by omega, Bool.false_ne_true⟩]
    obtain ⟨q, hq, hqr⟩ := sendWait_all hi' hs' he buf.length (show k < buf.length by omega)
      (by rw [hcap]; omega)
    rw [hq]
    exact ⟨_, rfl, hqr⟩
  have hout : p.out ≠ .sent buf.length := by
    have hlt := cInt_lt buf.length
    unfold SendRes.out
    split_ifs
    · intro he
      have he := SendOut.sent.inj he
      omega
    · exact nofun
    · exact nofun
    · exact nofun
  obtain ⟨T'', hT'', hno⟩ := hc.whole rfl ⟨i, hi, hs⟩ _ _ (mem_hkSend.mpr ⟨p, hp, rfl⟩) hout
  rcases List.mem_cons.mp hT'' with rfl | hT''
  · exact hno ⟨i, hi, hs⟩
  · rw [List.eq_of_mem_replicate hT''] at hno
    exact hno ⟨i, hi', hs'⟩

/-- **When the send door is closed.**  For every stream, kind of socket and buffer: exactly if the
write side is not shut down, the stream is dead or takes some bytes now, and, for a blocking call
on one that is not dead, the length is an `int`; a nonblocking call may find no room. -/
theorem send_closed_iff (nb : Bool) (s : Nat) (buf : List Byte) (T : StreamTable) (i : Slot)
    (hi : T.bySock s = some i) :
    SendClosed nb s buf T ↔ (T.g_st i).Door nb buf.length := by
  refine ⟨fun hc => ⟨?_, fun hs hroom => ?_, fun hs hn => ⟨fun hroom => ?_, ?_⟩⟩,
    sendClosed_of_door hi⟩
  · apply Bool.eq_false_iff.mpr
    intro hw
    refine real_of_fails hi (Or.inr ?_) hc
    rw [DtStream.send_shut hw]
  · refine real_of_fails hi (Or.inl ?_) hc
    rw [DtStream.send_live hs, hroom]
    rfl
  · rw [hn] at hc
    exact real_of_full hi hs hroom hc
  · rw [hn] at hc
    by_contra hlen
    cases hroom : (T.g_st i).room buf.length with
    | none => exact real_of_full hi hs hroom hc
    | some k =>
      have h0 : 0 < k := DtStream.room_pos hroom (by omega)
      exact long_of_takes hi hs hroom h0 (by omega) hc

end

set_option maxRecDepth 4000 in
/-- two bytes on an open stream -/
theorem send_closed_two : ∃ tr T, Path StreamTable.step .init tr T ∧
    SendClosed false 7 [2, 3] T := by
  have hrun : (run StreamTable.step .init
      (StreamTable.dialing true ++ StreamTable.confirming)).isSome = true := by decide
  obtain ⟨T, hT⟩ := Option.isSome_iff_exists.mp hrun
  have h : ∀ T ∈ run StreamTable.step .init (StreamTable.dialing true ++ StreamTable.confirming),
      T.bySock 7 = some 0 ∧ (T.g_st 0).wrShut = false ∧ (T.g_st 0).room 2 = some 2 := by
    decide
  obtain ⟨hi, hw, hroom⟩ := h T hT
  refine ⟨_, T, path_run hT, (send_closed_iff false 7 [2, 3] T 0 hi).mpr ⟨hw, ?_, ?_⟩⟩
  · rintro - hr
    rw [List.length_cons, List.length_singleton, hroom] at hr
    cases hr
  · rintro - -
    rw [List.length_cons, List.length_singleton, hroom]
    exact ⟨nofun, by decide⟩

set_option maxRecDepth 4000 in
/-- an empty write on an open stream, and any write behind `shutdown(SHUT_WR)`, go to the real
`send` -/
theorem send_leaks : ∃ tr T, Path StreamTable.step .init tr T ∧
    hkSend true false 7 [] [T] = some (.real, []) ∧ ¬ SendClosed false 7 [] T ∧
    ∃ tr' T', Path StreamTable.step .init tr' T' ∧
      hkSend true false 7 [2, 3] [T'] = some (.real, []) ∧ ¬ SendClosed false 7 [2, 3] T' := by
  have hrun : (run StreamTable.step .init
      (StreamTable.dialing true ++ StreamTable.confirming)).isSome = true := by decide
  have hrun' : (run StreamTable.step .init (StreamTable.dialing true ++ StreamTable.confirming ++
      [.shutdown 7 false true])).isSome = true := by decide
  obtain ⟨T, hT⟩ := Option.isSome_iff_exists.mp hrun
  obtain ⟨T', hT'⟩ := Option.isSome_iff_exists.mp hrun'
  have h : ∀ T ∈ run StreamTable.step .init (StreamTable.dialing true ++ StreamTable.confirming),
      hkSend true false 7 [] [T] = some (.real, []) := by decide
  have h' : ∀ T ∈ run StreamTable.step .init (StreamTable.dialing true ++ StreamTable.confirming ++
      [.shutdown 7 false true]), hkSend true false 7 [2, 3] [T] = some (.real, []) := by
    decide
  exact ⟨_, T, path_run hT, h T hT, fun hc => hc.hooked [] _ (h T hT) rfl,
    _, T', path_run hT', h' T' hT', fun hc => hc.hooked [] _ (h' T' hT') rfl⟩

end ShadowLan
