import ShadowLan.Wire.Game

/-!
# Frames on a per-stream connection

A per-stream connection carries framed handshake first and raw bytes later, so a reader must stop
at the end of the frame it read.

* `tcpRead`            `tcp_read` on the bytes that have arrived: a frame and what is behind it, a
                       length out of range, or not enough bytes yet;
* `tcpRead_append`     bytes that arrive later do not change a frame that is there;
* `tcpRead_bad`        nor a length that is out of range;
* `decode_stjoin`, `encode_stsid`, `encode_stfail`   the payloads of the handshake.
-/

namespace ShadowLan

def T_STJOIN : UInt8 := 0x09
def T_STJOINED : UInt8 := 0x0A
def T_STOK : UInt8 := 0x0B
def T_STFAIL : UInt8 := 0x0C

def STJOIN_N : Nat := 8
def STFAIL_N : Nat := 5

/-- how `tcp_read` can come out -/
inductive TcpRead where
  | frame (mtype : UInt8) (payload rest : Bytes)
  | bad
  | more
  deriving DecidableEq

def tcpRead (b : Bytes) : TcpRead :=
  match unpackI (b.take 4) with
  | none => .more
  | some mlen =>
    if mlen < 1 ∨ 8 * 1024 * 1024 < mlen then .bad
    else if (b.drop 4).length < mlen then .more
    else match (b.drop 4).take mlen with
      | [] => .bad
      | t :: p => .frame t p ((b.drop 4).drop mlen)

/-! ## payloads -/

def decode_stjoin (payload : Bytes) : Option (Nat × Nat) :=
  if payload.length ≠ STJOIN_N then none
  else do
    let node ← unpackI (slice payload 0 4)
    let sid ← unpackI (slice payload 4 8)
    return (node, sid)

/-- the payload of `T_STJOINED` and `T_STOK` -/
def encode_stsid (sid : Nat) : Bytes := packI sid

def encode_stfail (sid reason : Nat) : Bytes := packI sid ++ [UInt8.ofNat reason]

def decode_stfail (payload : Bytes) : Option (Nat × Nat) :=
  if payload.length ≠ STFAIL_N then none
  else do
    let sid ← unpackI (slice payload 0 4)
    return (sid, (payload.getD 4 0).toNat)

/-! ## reading -/

theorem length_of_unpackI {b : Bytes} {n : Nat} (h : unpackI b = some n) : b.length = 4 := by
  unfold unpackI at h
  split at h
  · rfl
  · simp at h

/-- a length that has arrived stays the length -/
theorem take_header {b : Bytes} {n : Nat} (h : unpackI (b.take 4) = some n) (e : Bytes) :
    4 ≤ b.length ∧ (b ++ e).take 4 = b.take 4 ∧ (b ++ e).drop 4 = b.drop 4 ++ e := by
  have hl := length_of_unpackI h
  rw [List.length_take] at hl
  have h4 : 4 ≤ b.length := by omega
  exact ⟨h4, List.take_append_of_le_length h4, List.drop_append_of_le_length h4⟩

theorem tcpRead_append {b rest p : Bytes} {t : UInt8} (h : tcpRead b = .frame t p rest)
    (e : Bytes) : tcpRead (b ++ e) = .frame t p (rest ++ e) := by
  unfold tcpRead at h ⊢
  cases hn : unpackI (b.take 4) with
  | none => simp [hn] at h
  | some n =>
    obtain ⟨-, ht, hd⟩ := take_header hn e
    rw [hn] at h
    rw [ht, hd, hn]
    dsimp only at h ⊢
    by_cases hb : n < 1 ∨ 8 * 1024 * 1024 < n
    · rw [if_pos hb] at h
      exact absurd h (by simp)
    · rw [if_neg hb] at h ⊢
      by_cases hm : (b.drop 4).length < n
      · rw [if_pos hm] at h
        exact absurd h (by simp)
      · have hle : n ≤ (b.drop 4).length := by omega
        have hm' : ¬ (b.drop 4 ++ e).length < n := by rw [List.length_append]; omega
        rw [if_neg hm] at h
        rw [if_neg hm', List.take_append_of_le_length hle, List.drop_append_of_le_length hle]
        cases hx : (b.drop 4).take n with
        | nil => simp [hx] at h
        | cons u q =>
          simp only [hx, TcpRead.frame.injEq] at h ⊢
          obtain ⟨h1, h2, h3⟩ := h
          exact ⟨h1, h2, by rw [h3]⟩

theorem tcpRead_bad {b : Bytes} (h : tcpRead b = .bad) (e : Bytes) : tcpRead (b ++ e) = .bad := by
  unfold tcpRead at h ⊢
  cases hn : unpackI (b.take 4) with
  | none => simp [hn] at h
  | some n =>
    obtain ⟨-, ht, hd⟩ := take_header hn e
    rw [hn] at h
    rw [ht, hd, hn]
    dsimp only at h ⊢
    by_cases hb : n < 1 ∨ 8 * 1024 * 1024 < n
    · rw [if_pos hb]
    · rw [if_neg hb] at h ⊢
      by_cases hm : (b.drop 4).length < n
      · rw [if_pos hm] at h
        exact absurd h (by simp)
      · rw [if_neg hm] at h
        -- a body of the right length is not empty
        cases hx : (b.drop 4).take n with
        | nil =>
          have hl := congrArg List.length hx
          rw [List.length_take, List.length_nil] at hl
          omega
        | cons u q => simp [hx] at h

end ShadowLan
