import ShadowLan.Relay.Transparent

/-!
# What the relay says on a stream

Whatever a coroutine of a stream does, a connection only gets longer, by raw bytes and by the two
verdicts on this stream, and what came in on it stays.

* `Stream.Own`        a piece that is written for a stream;
* `Stream.Says s t`   from `s` to `t` the connections carry such pieces more;
* `says_step`         every step, but for bytes that come in.
-/

namespace ShadowLan
namespace Stream
open Tcp

/-- raw bytes, or a verdict on stream `sid` -/
def Own (sid : Nat) : Piece → Prop
  | .frame t p => t = T_STOK ∧ p = encode_stsid sid ∨ t = T_STFAIL
  | .raw _ => True

structure Says (s t : Stream) : Prop where
  sid : t.sid = s.sid
  out : ∀ w, ∃ l, (t.conns w).out = (s.conns w).out ++ l ∧ ∀ o ∈ l, Own s.sid o
  sent : ∀ w, (t.conns w).sent = (s.conns w).sent

variable {s t u : Stream}

theorem Says.trans (h : Says s t) (h' : Says t u) : Says s u where
  sid := h'.sid.trans h.sid
  out w := by
    obtain ⟨l, h1, h2⟩ := h.out w
    obtain ⟨l', h3, h4⟩ := h'.out w
    refine ⟨l ++ l', by rw [h3, h1, List.append_assoc], fun o ho => ?_⟩
    rcases List.mem_append.mp ho with ho | ho
    · exact h2 o ho
    · rw [← h.sid]
      exact h4 o ho
  sent w := (h'.sent w).trans (h.sent w)

/-- what else there is in the record does not matter -/
theorem says_of (hs : t.sid = s.sid) (hc : t.conns = s.conns) : Says s t where
  sid := hs
  out w := ⟨[], by rw [hc, List.append_nil], fun _ h => absurd h List.not_mem_nil⟩
  sent w := by rw [hc]

theorem says_refl (s : Stream) : Says s s := says_of rfl rfl

theorem says_setConn {w : Who} {k : Tcp} {l : List Piece} (ho : k.out = (s.conns w).out ++ l)
    (hl : ∀ o ∈ l, Own s.sid o) (hs : k.sent = (s.conns w).sent) : Says s (s.setConn w k) where
  sid := rfl
  out w' := by
    by_cases hw : w' = w
    · subst hw
      rw [setConn_self]
      exact ⟨l, ho, hl⟩
    · rw [setConn_other _ hw]
      exact ⟨[], (List.append_nil _).symm, fun _ h => absurd h List.not_mem_nil⟩
  sent w' := by
    by_cases hw : w' = w
    · subst hw
      rw [setConn_self]
      exact hs
    · rw [setConn_other _ hw]

theorem says_mute {w : Who} {k : Tcp} (hg : Grows (s.conns w) [] k) (hs : k.sent = (s.conns w).sent) :
    Says s (s.setConn w k) :=
  says_setConn hg.out (fun _ h => absurd h List.not_mem_nil) hs

/-- only bytes that come in are counted as sent by the peer -/
theorem sent_net {k k' : Tcp} {e : Tcp.Ev} (h : k.net e = some k') (he : ∀ d, e ≠ .arrive d) :
    k'.sent = k.sent := by
  cases e with
  | arrive d => exact absurd rfl (he d)
  | fin =>
    obtain ⟨-, h⟩ := Option.ite_none_left_eq_some.mp h
    rw [← Option.some.inj h]
  | lost e =>
    obtain ⟨-, h⟩ := Option.ite_none_right_eq_some.mp h
    rw [← Option.some.inj h]
  | buffer b p =>
    obtain ⟨-, h⟩ := Option.ite_none_left_eq_some.mp h
    rw [← Option.some.inj h]
  | die | fatal => rw [← Option.some.inj h]

theorem says_close (s : Stream) (w : Who) : Says s (s.close w) := says_mute (grows_close _) rfl

theorem says_write_eof (s : Stream) (w : Who) : Says s (s.write_eof w) :=
  says_mute (grows_write_eof _) ((fed_write_eof _).sent.trans (List.append_nil _))

theorem says_spawn (s : Stream) (x : Coro) : Says s (s.spawn x) := says_of rfl rfl

theorem says_sent {w : Who} {o : Piece} {k : Tcp} {r : Sent} (hk : (s.conns w).send o = (k, r))
    (ho : Own s.sid o) : Says s (s.setConn w k) := by
  have hs := send_reads (s.conns w) o
  rw [hk] at hs
  rcases grows_send hk with ⟨hg, -⟩ | ⟨hg, -⟩
  · exact says_mute hg hs.1
  · refine says_setConn hg.out (fun p hp => ?_) hs.1
    rw [List.mem_singleton.mp hp]
    exact ho

theorem says_send {w : Who} {o : Piece} {waits : Stream → Stream} {fin : Sent → Stream → Stream}
    (ho : Own s.sid o) (hw : ∀ u, Says u (waits u)) (hf : ∀ x u, Says u (fin x u)) :
    Says s (s.send w o waits fin) :=
  send_cases (Q := Says s) (fun _ hk => (says_sent hk ho).trans (hw _))
    fun _ _ hk _ => (says_sent hk ho).trans (hf _ _)

theorem own_stok (s : Stream) : Own s.sid s.stok := Or.inl ⟨rfl, rfl⟩

theorem own_stfail (s : Stream) (r : Reason) : Own s.sid (s.stfail r) := Or.inr rfl

theorem says_closeEnds (s : Stream) : Says s s.closeEnds := by
  unfold closeEnds
  split
  · exact says_close s .opener
  · exact (says_close s .opener).trans (says_close _ _)

theorem says_pop (s : Stream) : Says s s.pop := by
  unfold pop
  split
  · exact (says_closeEnds s).trans (says_of rfl rfl)
  · exact says_refl s

theorem says_fail (s : Stream) (task : Bool) (r : Reason) : Says s (s.fail task r) := by
  unfold fail
  split
  · exact says_send (own_stfail s r) (fun u => says_spawn u _) fun _ u => says_pop u
  · exact says_pop s

theorem says_confirm (s : Stream) (c : Nat) : Says s (s.confirm c) := by
  have hset : Says s { s with state := .ready } := says_of rfl rfl
  unfold confirm
  dsimp only
  refine hset.trans (says_send (own_stok _) (fun u => says_spawn u _) fun x u => ?_)
  split
  · exact says_spawn u _
  · exact says_fail u _ _

theorem says_refuse (s : Stream) (c : Nat) : Says s (s.refuse c) :=
  (says_close s _).trans (says_fail _ false .BAD_ID)

theorem says_claim (s : Stream) (c node : Nat) : Says s (s.claim c node) := by
  have hstok : ∀ u : Stream, Says s u → Says s (u.send (.joinee c) u.stok
      (fun s => s.spawn (.stokJoiner c)) fun r s =>
        if r = .ok then s.confirm c else s.fail false .NO_ROUTE) := fun u hu => by
    refine hu.trans (says_send (own_stok u) (fun u => says_spawn u _) fun x u => ?_)
    split
    · exact says_confirm u c
    · exact says_fail u _ _
  have hset : ∀ b, Says s { s with
      joiner := some c, state := .joined, shut_from := b,
      dest_node := if s.dest_node = 0 then node else s.dest_node } := fun b => says_of rfl rfl
  unfold claim
  dsimp only
  split
  · exact hstok _ ((hset false).trans (says_write_eof _ _))
  · exact hstok _ (hset s.shut_from)

theorem says_grant_claim (s : Stream) (c node : Nat) : Says s (s._grant_claim c node) := by
  unfold _grant_claim
  split
  · exact says_send (own_stfail s _) (fun u => says_spawn u _) fun _ u => says_refuse u c
  · exact says_claim s c node

theorem says_busyRound (win : StClaim) (losers : List StClaim) (s : Stream) :
    Says s (s.busyRound win losers) := by
  induction losers generalizing s with
  | nil => exact says_grant_claim s win.1 win.2
  | cons l rest ih =>
    unfold busyRound
    exact says_send (own_stfail s _) (fun u => says_spawn u _) fun _ u => (says_close u _).trans (ih _)

theorem says_implicit_grant (s : Stream) : Says s s._implicit_grant := by
  unfold _implicit_grant
  split
  · exact says_refl s
  dsimp only
  split
  · exact says_of rfl rfl
  · have hset : Says s { s with claims := [], grant_task := false } := says_of rfl rfl
    exact hset.trans (says_busyRound _ _ _)

theorem says_join (s : Stream) (c node : Nat) : Says s (s.join c node) := by
  have hset : Says s { s with joined := c :: s.joined } := says_of rfl rfl
  unfold join
  dsimp only
  split
  · exact hset.trans (says_send (own_stfail _ _) (fun u => says_spawn u _) fun _ u => says_close u _)
  split
  · split
    · exact says_of rfl rfl
    · exact says_of rfl rfl
  · exact hset.trans (says_grant_claim _ c node)

theorem says_handshake (s : Stream) (c : Nat) (mtype : UInt8) (payload : Bytes) :
    Says s (s.handshake c mtype payload) := by
  unfold handshake
  split
  · exact says_of rfl rfl
  split
  · split
    · split
      · exact says_fail s _ _
      · exact says_refl s
    · exact says_refl s
  · exact says_close s _

theorem says_readFrame {c : Nat} (h : s.readFrame c = some t) : Says s t := by
  unfold readFrame at h
  dsimp only at h
  split at h
  · rw [← Option.some.inj h]
    exact says_fail s _ _
  · rw [← Option.some.inj h]
    exact says_refl s
  split at h
  · rw [← Option.some.inj h]
    have hread : ∀ rest, Says s (s.setConn (.joinee c) { s.conns (.joinee c) with inb := rest }) :=
      fun rest => says_mute (grows_inb _ _) rfl
    exact (hread _).trans (says_handshake _ _ _ _)
  · rw [← Option.some.inj h]
    exact says_fail s _ _
  · obtain ⟨-, h⟩ := Option.ite_none_right_eq_some.mp h
    rw [← Option.some.inj h]
    exact says_fail s _ _

theorem says_resume {x : Coro} (h : s.resume x = some t) : Says s t := by
  cases x with
  | timeout =>
    unfold resume at h
    dsimp only at h
    split at h <;> rw [← Option.some.inj h]
    · exact says_fail s _ _
    · exact says_refl s
  | failing task =>
    rw [← Option.some.inj h]
    exact says_pop s
  | grant =>
    rw [← Option.some.inj h]
    exact says_implicit_grant s
  | busy cur rest win =>
    obtain ⟨-, -, rfl⟩ := Option.map_eq_some_iff.mp h
    exact (says_close s _).trans (says_busyRound win rest _)
  | refused c =>
    obtain ⟨-, -, rfl⟩ := Option.map_eq_some_iff.mp h
    exact says_close s _
  | badId c =>
    obtain ⟨-, -, rfl⟩ := Option.map_eq_some_iff.mp h
    exact says_refuse s c
  | stokJoiner c =>
    obtain ⟨r, -, rfl⟩ := Option.map_eq_some_iff.mp h
    split
    · exact says_confirm s c
    · exact says_fail s _ _
  | stokOpener c =>
    obtain ⟨r, -, rfl⟩ := Option.map_eq_some_iff.mp h
    split
    · exact says_spawn s _
    · exact says_fail s _ _
  | early c =>
    rw [← Option.some.inj h]
    exact says_spawn s _
  | reading c => exact says_readFrame h
  | pipe task pc =>
    cases pc with
    | starting =>
      unfold resume at h
      dsimp only at h
      split at h
      · split at h <;> rw [← Option.some.inj h] <;> exact says_spawn s _
      · rw [← Option.some.inj h]
        exact says_refl s
    | running c a b cancelled =>
      obtain ⟨-, h⟩ := Option.ite_none_right_eq_some.mp h
      rw [← Option.some.inj h]
      exact says_spawn s _
    | ending =>
      rw [← Option.some.inj h]
      exact says_pop s

theorem says_carry (n : Nat) {r w : Who} (hne : w ≠ r) : Says s (s.carry n r w) := by
  have h1 : Says s (s.setConn r { s.conns r with inb := (s.conns r).inb.drop n }) :=
    says_mute (grows_inb _ _) rfl
  have hw : (s.setConn r { s.conns r with inb := (s.conns r).inb.drop n }).conns w = s.conns w :=
    setConn_other _ hne _
  rcases hk : (s.conns w).send (.raw ((s.conns r).inb.take n)) with ⟨k, x⟩
  have hk' := hk
  rw [← hw] at hk'
  unfold carry
  rw [hk]
  exact h1.trans (says_sent hk' trivial)

theorem says_pumpStep {i : Nat} {back : Bool} (h : s.pumpStep i back = some t) : Says s t := by
  have hcases : ∀ {pc : PumpPc} {r w : Who} {x : Stream × PumpPc} (f : List Coro), w ≠ r →
      s.pump pc r w = some x → Says s { x.1 with coros := f } := by
    intro pc r w x f hne hx
    rcases pump_cases hne hx with he | he
    · rw [he]
      exact says_of rfl rfl
    · rw [he]
      exact (says_carry 65536 hne).trans (says_of rfl rfl)
  unfold pumpStep at h
  split at h
  · split at h
    · obtain ⟨x, hx, rfl⟩ := Option.map_eq_some_iff.mp h
      exact hcases _ (by simp) hx
    · obtain ⟨x, hx, rfl⟩ := Option.map_eq_some_iff.mp h
      exact hcases _ (by simp) hx
  · exact absurd h (by simp)

theorem says_stshut (s : Stream) (node : Nat) : Says s (s.stshut node) := by
  unfold stshut
  split
  · exact says_refl s
  split
  · split
    · exact says_of rfl rfl
    · exact says_write_eof s _
  split
  · exact says_write_eof s _
  · exact says_refl s

/-- **A step** writes verdicts on this stream and raw bytes, and only the network brings bytes in -/
theorem says_step {l : Label} (h : s.step l = some t) (hl : ∀ w d, l ≠ .net w (.arrive d)) :
    Says s t := by
  cases l with
  | stjoin c payload =>
    obtain ⟨-, -, node, sid, -, rfl⟩ := join_of_handle h
    exact says_join s c node
  | wake i =>
    obtain ⟨x, -, hx⟩ := Option.bind_eq_some_iff.mp h
    have hw : Says s (s.without i) := says_of rfl rfl
    exact hw.trans (says_resume hx)
  | expire i =>
    unfold step at h
    dsimp only at h
    split at h
    · rw [← Option.some.inj h]
      have hw : Says s (s.without i) := says_of rfl rfl
      exact hw.trans (says_fail _ _ _)
    · exact absurd h (by simp)
  | pump i back => exact says_pumpStep h
  | stshut node =>
    rw [← Option.some.inj h]
    exact says_stshut s node
  | net w e =>
    obtain ⟨k, hk, rfl⟩ := Option.map_eq_some_iff.mp h
    exact says_mute (grows_net hk) (sent_net hk fun d he => hl w d (by rw [he]))
  | hostClaim node v =>
    rw [← Option.some.inj h]
    exact says_of rfl rfl
  | popped =>
    rw [← Option.some.inj h]
    exact says_pop s
  | strayGrant =>
    rw [← Option.some.inj h]
    exact says_implicit_grant s
  | strayPipe =>
    rw [← Option.some.inj h]
    exact says_spawn s _

end Stream
end ShadowLan
