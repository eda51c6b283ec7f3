import ShadowLan.Wire.CodecExact

/-!
# The readers of the relay and the hook are these codecs

The relay and the hook are modelled over readers that are options: here they are the decoders of
`common.py`, with the numbers in the order of the tuple.

* `unpacks_field`, `unpacks_B`            a format is read field by field;
* `decode_stopen_eq` and the others       the reader finds what the decoder returns;
* `decodeGameAt_iff`   the readers keep a text as its bytes, the decoders decode it.
-/

namespace ShadowLan
namespace Py

section
variable {α β : Type}

theorem unpackI_eq (b : Bytes) : unpackI b = if b.length = 4 then some (beNat b) else none := by
  split
  next h =>
    obtain ⟨w, x, y, z, rfl⟩ := List.length_eq_four.mp h
    have e : beNat [w, x, y, z]
        = w.toNat * 256 ^ 3 + (x.toNat * 256 ^ 2 + (y.toNat * 256 ^ 1 + (z.toNat * 256 ^ 0 + 0))) := rfl
    rw [e]
    unfold unpackI
    refine congrArg some ?_
    omega
  next h =>
    cases hu : unpackI b with
    | none => rfl
    | some n => exact absurd (length_of_unpackI hu) h

theorem unpackH_eq (b : Bytes) : unpackH b = if b.length = 2 then some (beNat b) else none := by
  split
  next h =>
    obtain ⟨x, y, rfl⟩ := List.length_eq_two.mp h
    have e : beNat [x, y] = x.toNat * 256 ^ 1 + (y.toNat * 256 ^ 0 + 0) := rfl
    rw [e]
    unfold unpackH
    refine congrArg some ?_
    omega
  next h =>
    unfold unpackH
    split
    · exact absurd rfl h
    · rfl

theorem take_slice {d : Bytes} {i j w : Nat} (h : i + w ≤ j) :
    (slice d i j).take w = slice d i (i + w) := by
  unfold slice
  rw [List.take_take, Nat.min_eq_left (by omega), Nat.add_sub_cancel_left]

theorem drop_slice {d : Bytes} {i j w : Nat} : (slice d i j).drop w = slice d (i + w) j := by
  unfold slice
  rw [List.drop_take, List.drop_drop, Nat.sub_add_eq]

/-- the first field is of `w` bytes, which `read` reads, and the others are behind it -/
theorem unpacks_field {w : Nat} {read : Bytes → Option Nat}
    (hread : ∀ b : Bytes, read b = if b.length = w then some (beNat b) else none) {ws : List Nat}
    {d : Bytes} {i j : Nat} (h : i + w ≤ j) :
    unpacks (w :: ws) (slice d i j) =
      (read (slice d i (i + w))).bind fun v =>
        (unpacks ws (slice d (i + w) j)).map fun vs => (v, vs) := by
  have hl : (slice d i (i + w)).length = w ↔ w ≤ (slice d i j).length := by
    rw [← take_slice h, List.length_take]
    omega
  rw [unpacks, hread, take_slice h, drop_slice]
  by_cases hd : w ≤ (slice d i j).length
  · rw [if_pos hd, if_pos (hl.mpr hd)]
    rfl
  · rw [if_neg hd, if_neg (fun h' => hd (hl.mp h'))]
    rfl

theorem unpacks_I {ws : List Nat} {d : Bytes} {i j : Nat} (h : i + 4 ≤ j) :
    unpacks (I :: ws) (slice d i j) =
      (unpackI (slice d i (i + 4))).bind fun v =>
        (unpacks ws (slice d (i + 4) j)).map fun vs => (v, vs) :=
  unpacks_field unpackI_eq h

theorem unpacks_H {ws : List Nat} {d : Bytes} {i j : Nat} (h : i + 2 ≤ j) :
    unpacks (H :: ws) (slice d i j) =
      (unpackH (slice d i (i + 2))).bind fun v =>
        (unpacks ws (slice d (i + 2) j)).map fun vs => (v, vs) :=
  unpacks_field unpackH_eq h

/-- the last field is a byte that is there -/
theorem unpacks_B {d : Bytes} {i : Nat} (h : i < d.length) :
    unpacks [B] (slice d i (i + 1)) = some ((d.getD i 0).toNat, ()) := by
  have hs : slice d i (i + 1) = [d.getD i 0] := by
    unfold slice
    rw [Nat.add_sub_cancel_left, List.drop_eq_getElem_cons h, List.getD_eq_getElem _ _ h]
    rfl
  have hb (c : UInt8) : unpacks [B] [c] = some (c.toNat * 256 ^ 0 + 0, ()) := rfl
  rw [hs, hb, Nat.pow_zero, Nat.mul_one, Nat.add_zero]

theorem unpacks_nil (d : Bytes) (i : Nat) : unpacks [] (slice d i i) = some () := by
  unfold slice
  rw [Nat.sub_self]
  rfl

theorem decodeFixed_eq (n : Nat) (ws : List Nat) (d : Bytes) :
    decodeFixed n ws d = .ok (if d.length ≠ n then none else unpacks ws (slice d 0 n)) := by
  unfold decodeFixed
  split
  · rfl
  next h =>
    have hd : slice d 0 n = d := List.take_of_length_le (Nat.le_of_eq (not_not.mp h))
    unfold structUnpack
    rw [hd]
    cases unpacks ws d with
    | none => rfl
    | some vs => rfl

/-! ## per-stream ops -/

theorem decode_stopen_eq (d : Bytes) : decode_stopen d =
    .ok ((ShadowLan.decode_stopen d).map fun x => (x.1, x.2.1, x.2.2.1, x.2.2.2, ())) := by
  unfold decode_stopen ShadowLan.decode_stopen
  rw [decodeFixed_eq]
  by_cases hl : d.length ≠ STOPEN_N
  · rw [if_pos hl, if_pos hl]
    rfl
  · rw [if_neg hl, if_neg hl]
    unfold STOPEN_N
    rw [unpacks_I (by decide), unpacks_I (by decide), unpacks_I (by decide), unpacks_H (by decide),
      unpacks_nil]
    cases unpackI (slice d 0 4) <;> cases unpackI (slice d 4 8) <;>
      cases unpackI (slice d 8 12) <;> cases unpackH (slice d 12 14) <;> rfl

theorem decode_stjoin_eq (d : Bytes) : decode_stjoin d =
    .ok ((ShadowLan.decode_stjoin d).map fun x => (x.1, x.2, ())) := by
  unfold decode_stjoin ShadowLan.decode_stjoin
  rw [decodeFixed_eq]
  by_cases hl : d.length ≠ STJOIN_N
  · rw [if_pos hl, if_pos hl]
    rfl
  · rw [if_neg hl, if_neg hl]
    unfold STJOIN_N
    rw [unpacks_I (by decide), unpacks_I (by decide), unpacks_nil]
    cases unpackI (slice d 0 4) <;> cases unpackI (slice d 4 8) <;> rfl

theorem decode_stsid_eq (d : Bytes) : decode_stsid d = .ok (ShadowLan.decode_stsid d) := by
  unfold decode_stsid ShadowLan.decode_stsid
  rw [decodeFixed_eq]
  by_cases hl : d.length ≠ STSID_N
  · rw [if_pos hl, if_pos hl]
    rfl
  · have hd : slice d 0 4 = d := List.take_of_length_le (Nat.le_of_eq (not_not.mp hl))
    rw [if_neg hl, if_neg hl]
    unfold STSID_N
    rw [unpacks_I (by decide), unpacks_nil, Nat.zero_add, hd]
    cases unpackI d <;> rfl

theorem decode_stfail_eq (d : Bytes) : decode_stfail d =
    .ok ((ShadowLan.decode_stfail d).map fun x => (x.1, x.2, ())) := by
  unfold decode_stfail ShadowLan.decode_stfail
  rw [decodeFixed_eq]
  by_cases hl : d.length ≠ STFAIL_N
  · rw [if_pos hl, if_pos hl]
    rfl
  · have hlen : d.length = 5 := not_not.mp hl
    rw [if_neg hl, if_neg hl]
    unfold STFAIL_N
    rw [unpacks_I (by decide), unpacks_B (by omega)]
    cases unpackI (slice d 0 4) <;> rfl

/-! ## datagrams -/

theorem datagram_eq {n : Nat} (hn : 4 ≤ n) (ops : Nat → Bool) (body : Nat → Py (Option α))
    (d : Bytes) : datagram n ops body d =
      if (udpHeaderOk d n && ops (udpOp d).toNat) = true then body (udpOp d).toNat else .ok none := by
  by_cases hl : d.length < n
  · rw [datagram_short hl, if_neg]
    intro h
    rw [udpHeaderOk, decide_eq_false (by omega : ¬ n ≤ d.length)] at h
    cases h
  obtain ⟨a, b, c, e, r, rfl⟩ := exists_head (by omega : 4 ≤ d.length)
  have hle : n ≤ (a :: b :: c :: e :: r).length := by omega
  rw [datagram_cons hle]
  refine if_congr ?_ rfl rfl
  rw [udpHeaderOk, decide_eq_true hle, Bool.and_eq_true, Bool.and_eq_true, Bool.true_and, beq_iff_eq,
    beq_iff_eq, and_assoc]
  rfl

theorem decode_node_eq (d : Bytes) : decode_node d =
    .ok ((decodeNode d).map fun f => (f.token, f.node, f.udpPort, f.flags)) := by
  unfold decode_node decodeNode structUnpack
  rw [unpacks_H (by decide), unpacks_nil]
  by_cases h2 : d.length < 2
  · have hno : unpackH (slice d 0 2) = none := by
      rw [unpackH_eq, if_neg]
      unfold slice
      rw [List.length_take, List.length_drop]
      omega
    rw [if_pos h2, hno]
    rfl
  · rw [if_neg h2]
    cases unpackH (slice d 0 2) with
    | none => rfl
    | some n =>
      show tryExcept _ (if d.length ≠ 2 + n + 7 then _ else _) =
        .ok ((if d.length ≠ 2 + n + 7 then _ else _ : Option NodeFrame).map _)
      by_cases hl : d.length ≠ 2 + n + 7
      · rw [if_pos hl, if_pos hl]
        rfl
      · have hlen : d.length = 2 + n + 7 := not_not.mp hl
        have e9 : 9 + n = 8 + n + 1 := by omega
        have e6 : 2 + n + 4 = 6 + n := by omega
        have e8 : 6 + n + 2 = 8 + n := by omega
        rw [if_neg hl, if_neg hl, unpacks_I (by omega), e6, unpacks_H (by omega), e8, e9,
          unpacks_B (by omega)]
        cases unpackI (slice d (2 + n) (6 + n)) <;> cases unpackH (slice d (6 + n) (8 + n)) <;> rfl

theorem decode_ctl_node_eq (d : Bytes) : decode_ctl_node d =
    .ok ((decodeCtlNode d).map fun f => (f.token, f.node, f.udpPort, f.flags)) := by
  unfold decode_ctl_node decodeCtlNode
  split
  · exact decode_node_eq _
  · rfl

theorem decode_udp_node_eq (d : Bytes) : decode_udp_node d =
    .ok ((decodeUdpNode d).map fun f => (f.token, f.node, f.udpPort, f.flags)) := by
  unfold decode_udp_node decodeUdpNode
  rw [datagram_eq (by decide)]
  have hop : decide ((udpOp d).toNat = U_NODE.toNat) = (udpOp d == U_NODE) := by
    rw [Bool.eq_iff_iff, decide_eq_true_iff, beq_iff_eq, UInt8.toNat_inj]
  rw [hop]
  split
  · exact decode_node_eq _
  · rfl

theorem decode_icmp_eq (d : Bytes) : decode_icmp d =
    .ok ((decodeIcmp d).map fun f => (f.mtype.toNat, f.src, f.dest, f.iid, f.seq, f.data)) := by
  unfold decode_icmp decodeIcmp
  rw [datagram_eq (by decide)]
  have hop : decide ((udpOp d).toNat = U_ICMP_REQ.toNat ∨ (udpOp d).toNat = U_ICMP_REP.toNat)
      = (udpOp d == U_ICMP_REQ || udpOp d == U_ICMP_REP) := by
    rw [Bool.eq_iff_iff, decide_eq_true_iff, Bool.or_eq_true, beq_iff_eq, beq_iff_eq,
      UInt8.toNat_inj, UInt8.toNat_inj]
  rw [hop]
  split
  · unfold structUnpack
    rw [unpacks_I (by decide), unpacks_I (by decide), unpacks_H (by decide), unpacks_H (by decide),
      unpacks_nil]
    cases unpackI (slice d 4 8) <;> cases unpackI (slice d 8 12) <;>
      cases unpackH (slice d 12 14) <;> cases unpackH (slice d 14 16) <;> rfl
  · rfl

/-! ## game datagrams -/

theorem structUnpack_H {d : Bytes} {i v : Nat} :
    structUnpack [H] (slice d i (i + 2)) = .ok (v, ()) ↔ unpackH (slice d i (i + 2)) = some v := by
  unfold structUnpack
  rw [orRaise_ok_iff, unpacks_H (Nat.le_refl _), unpacks_nil]
  cases unpackH (slice d i (i + 2)) with
  | none => exact iff_of_false (fun h => by cases h) fun h => by cases h
  | some n =>
    show some (n, ()) = some (v, ()) ↔ some n = some v
    rw [Option.some.injEq, Option.some.injEq, Prod.mk.injEq, and_iff_left rfl]

theorem structUnpack_HH {d : Bytes} {i v w : Nat} :
    structUnpack [H, H] (slice d i (i + 4)) = .ok (v, w, ()) ↔
      unpackH (slice d i (i + 2)) = some v ∧ unpackH (slice d (i + 2) (i + 4)) = some w := by
  have hw := structUnpack_H (d := d) (i := i + 2) (v := w)
  unfold structUnpack at hw ⊢
  rw [orRaise_ok_iff] at hw
  rw [orRaise_ok_iff, unpacks_H (by omega), ← hw, Option.bind_eq_some_iff]
  constructor
  · rintro ⟨n, hn, h⟩
    obtain ⟨vs, hvs, he⟩ := Option.map_eq_some_iff.mp h
    obtain ⟨rfl, rfl⟩ := Prod.mk.inj he
    exact ⟨hn, hvs⟩
  · rintro ⟨hv, hvs⟩
    exact ⟨v, hv, Option.map_eq_some_iff.mpr ⟨(w, ()), hvs, rfl⟩⟩

/-- a text is kept as the bytes that the decoder decodes -/
theorem decodeGameAt_iff {d : Bytes} {o : Nat} {g : UdpGame} : decodeGameAt d o = some g ↔
    ∃ s, strEncode s = some g.triple.ip ∧
      decodeTriple d o = .ok (g.triple.gport, s, g.triple.cport, g.raw) := by
  constructor
  · intro h
    obtain ⟨gport, hg, h⟩ := Option.bind_eq_some_iff.mp h
    obtain ⟨iplen, hi, h⟩ := Option.bind_eq_some_iff.mp h
    obtain ⟨ip, hip, h⟩ := Option.bind_eq_some_iff.mp h
    obtain ⟨cport, hc, h⟩ := Option.bind_eq_some_iff.mp h
    obtain ⟨hutf, he⟩ := Option.ite_none_right_eq_some.mp hip
    obtain rfl := Option.some.inj he
    obtain ⟨s, hs⟩ := isUtf8_iff.mp hutf
    have e6 : o + 4 + iplen + 2 = o + 6 + iplen := by omega
    rw [← e6] at hc h
    obtain rfl := Option.some.inj h
    refine ⟨s, strDecode_iff.mp hs, bind_ok_iff.mpr ⟨_, structUnpack_HH.mpr ⟨hg, hi⟩,
      bind_ok_iff.mpr ⟨s, orRaise_ok_iff.mpr hs, bind_ok_iff.mpr ⟨(cport, ()), ?_, ?_⟩⟩⟩⟩
    · rw [← e6]
      exact structUnpack_H.mpr hc
    · rw [← e6]
      rfl
  · rintro ⟨s, hs, h⟩
    obtain ⟨⟨gport, iplen, _⟩, hgi, h⟩ := bind_ok_iff.mp h
    obtain ⟨s', hs', h⟩ := bind_ok_iff.mp h
    obtain ⟨⟨cport, _⟩, hc, h⟩ := bind_ok_iff.mp h
    obtain ⟨⟨gp, ip, cp⟩, raw⟩ := g
    have he := Except.ok.inj h
    simp only [Prod.mk.injEq] at he
    obtain ⟨rfl, rfl, rfl, rfl⟩ := he
    have e6 : o + 4 + iplen + 2 = o + 6 + iplen := by omega
    rw [← e6] at hc
    obtain ⟨hg, hi⟩ := structUnpack_HH.mp hgi
    have hdec := orRaise_ok_iff.mp hs'
    have hip : slice d (o + 4) (o + 4 + iplen) = ip :=
      Option.some.inj ((strDecode_iff.mp hdec).symm.trans hs)
    have htext : decodeText (slice d (o + 4) (o + 4 + iplen)) = some ip := by
      rw [decodeText, if_pos (isUtf8_iff.mpr ⟨_, hdec⟩), hip]
    refine Option.bind_eq_some_iff.mpr ⟨gport, hg, Option.bind_eq_some_iff.mpr ⟨iplen, hi,
      Option.bind_eq_some_iff.mpr ⟨ip, htext, Option.bind_eq_some_iff.mpr ⟨cport, ?_, rfl⟩⟩⟩⟩
    rw [← e6]
    exact structUnpack_H.mp hc

theorem decode_udp_game_iff {d : Bytes} {g : UdpGame} : decodeUdpGame d = some g ↔
    ∃ s, strEncode s = some g.triple.ip ∧ decode_udp_game d =
      .ok (some ((udpOp d).toNat, g.triple.gport, s, g.triple.cport, g.raw)) := by
  unfold decodeUdpGame decode_udp_game
  rw [datagram_eq (by decide), Bool.and_true]
  by_cases hh : udpHeaderOk d 6 = true
  · rw [if_pos hh, if_pos hh, decodeGameAt_iff]
    refine exists_congr fun s => and_congr_right fun _ => ?_
    rw [tryExcept_some_iff]
    constructor
    · exact fun h => bind_ok_iff.mpr ⟨_, h, rfl⟩
    · intro h
      obtain ⟨⟨gp, s', cp, raw⟩, htri, h⟩ := bind_ok_iff.mp h
      have he := Option.some.inj (Except.ok.inj h)
      simp only [Prod.mk.injEq] at he
      obtain ⟨-, rfl, rfl, rfl, rfl⟩ := he
      exact htri
  · rw [if_neg hh, if_neg hh]
    exact iff_of_false (fun h => by cases h) fun ⟨_, _, h⟩ => by cases h

theorem decode_pdat_iff {d : Bytes} {dest : Nat} {g : UdpGame} : decodePdat d = some (dest, g) ↔
    ∃ s, strEncode s = some g.triple.ip ∧ decode_pdat d =
      .ok (some (dest, g.triple.gport, s, g.triple.cport, g.raw)) := by
  have hop : decide ((udpOp d).toNat = U_GAME_P2P.toNat) = (udpOp d == U_GAME_P2P) := by
    rw [Bool.eq_iff_iff, decide_eq_true_iff, beq_iff_eq, UInt8.toNat_inj]
  unfold decodePdat decode_pdat
  rw [datagram_eq (by decide), hop]
  by_cases hh : (udpHeaderOk d 10 && udpOp d == U_GAME_P2P) = true
  · rw [if_pos hh, if_pos hh]
    have hdest : ∀ n, structUnpack [I] (slice d 4 8) = .ok (n, ()) ↔ unpackI (slice d 4 8) = some n := by
      intro n
      unfold structUnpack
      rw [orRaise_ok_iff, unpacks_I (by decide), unpacks_nil]
      cases unpackI (slice d 4 8) with
      | none => exact iff_of_false (fun h => by cases h) fun h => by cases h
      | some m =>
        show some (m, ()) = some (n, ()) ↔ some m = some n
        rw [Option.some.injEq, Option.some.injEq, Prod.mk.injEq, and_iff_left rfl]
    constructor
    · intro h
      obtain ⟨n, hn, h⟩ := Option.bind_eq_some_iff.mp h
      obtain ⟨g', hg, h⟩ := Option.bind_eq_some_iff.mp h
      obtain ⟨rfl, rfl⟩ := Prod.mk.inj (Option.some.inj h)
      obtain ⟨s, hs, htri⟩ := decodeGameAt_iff.mp hg
      exact ⟨s, hs, tryExcept_some_iff.mpr (bind_ok_iff.mpr ⟨_, (hdest n).mpr hn,
        bind_ok_iff.mpr ⟨_, htri, rfl⟩⟩)⟩
    · rintro ⟨s, hs, h⟩
      rw [tryExcept_some_iff] at h
      obtain ⟨⟨n, _⟩, hn, h⟩ := bind_ok_iff.mp h
      obtain ⟨⟨gp, s', cp, raw⟩, htri, h⟩ := bind_ok_iff.mp h
      have he := Option.some.inj (Except.ok.inj h)
      simp only [Prod.mk.injEq] at he
      obtain ⟨rfl, rfl, rfl, rfl, rfl⟩ := he
      exact Option.bind_eq_some_iff.mpr ⟨n, (hdest n).mp hn, Option.bind_eq_some_iff.mpr
        ⟨g, decodeGameAt_iff.mpr ⟨s', hs, htri⟩, rfl⟩⟩
  · rw [if_neg hh, if_neg hh]
    exact iff_of_false (fun h => by cases h) fun ⟨_, _, h⟩ => by cases h

end

end Py
end ShadowLan
