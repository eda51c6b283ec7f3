import Mathlib.Data.List.Basic
import ShadowLan.Wire.Udp

/-!
# Game datagrams on the hook's side

The hook writes C2S, S2C and P2P datagrams and reads C2S and S2C with its own code, `dt_put16` and
`dt_get16` at computed offsets.  Unlike the relay it does not look at the text of the address.

* `decodeUdpGame_encode`, `decodePdat_encode`   the relay reads what a hook writes;
* `dtGame_of_decode`                            a hook reads what the relay reads.
-/

namespace ShadowLan

/-! ## writing and reading back -/

/-- triple and payload, behind the header -/
def gameBody (g : UdpGame) : Bytes :=
  packH g.triple.gport ++ (packH g.triple.ip.length ++ (g.triple.ip
    ++ (packH g.triple.cport ++ g.raw)))

/-- the P2P datagram of `dt_on_sendto` -/
def encodePdat (dest : Nat) (g : UdpGame) : Bytes :=
  UMAGIC ++ [UVER, U_GAME_P2P] ++ packI dest ++ gameBody g

/-- the fields are within their widths, and the address is text -/
structure UdpGame.Fits (g : UdpGame) : Prop where
  gport : g.triple.gport < 65536
  cport : g.triple.cport < 65536
  iplen : g.triple.ip.length < 65536
  text : isUtf8 g.triple.ip = true

theorem unpackH_packH {n : Nat} (h : n < 65536) : unpackH (packH n) = some n := by
  simp only [packH, unpackH, UInt8.toNat_ofNat']
  exact congrArg some (by omega)

theorem unpackI_packI (n : Nat) : unpackI (packI n) = some (n % 4294967296) := by
  simp only [packI, unpackI, UInt8.toNat_ofNat']
  exact congrArg some (by omega)

theorem slice_append (a m z : Bytes) : slice (a ++ (m ++ z)) a.length (a.length + m.length) = m := by
  unfold slice
  rw [List.drop_left, Nat.add_sub_cancel_left, List.take_left]

theorem decodeGameAt_body {g : UdpGame} (h : g.Fits) (a : Bytes) :
    decodeGameAt (a ++ gameBody g) a.length = some g := by
  obtain ⟨⟨gport, ip, cport⟩, raw⟩ := g
  obtain ⟨hg, hc, hi, ht⟩ := h
  have h1 : slice (a ++ gameBody ⟨⟨gport, ip, cport⟩, raw⟩) a.length (a.length + 2) = packH gport :=
    slice_append a (packH gport) _
  have h2 : slice (a ++ gameBody ⟨⟨gport, ip, cport⟩, raw⟩) (a.length + 2) (a.length + 4)
      = packH ip.length := by
    have h := slice_append (a ++ packH gport) (packH ip.length) (ip ++ (packH cport ++ raw))
    rw [List.append_assoc, List.length_append] at h
    exact h
  have h3 : slice (a ++ gameBody ⟨⟨gport, ip, cport⟩, raw⟩) (a.length + 4)
      (a.length + 4 + ip.length) = ip := by
    have h := slice_append (a ++ (packH gport ++ packH ip.length)) ip (packH cport ++ raw)
    rw [List.append_assoc, List.append_assoc, List.length_append] at h
    exact h
  have e : (a ++ (packH gport ++ (packH ip.length ++ ip))).length = a.length + 4 + ip.length := by
    simp only [List.length_append, packH, List.length_cons, List.length_nil]
    omega
  have h4 : slice (a ++ gameBody ⟨⟨gport, ip, cport⟩, raw⟩) (a.length + 4 + ip.length)
      (a.length + 6 + ip.length) = packH cport := by
    have h := slice_append (a ++ (packH gport ++ (packH ip.length ++ ip))) (packH cport) raw
    rw [e, List.append_assoc, List.append_assoc, List.append_assoc] at h
    have e' : a.length + 6 + ip.length = a.length + 4 + ip.length + (packH cport).length := by
      show _ = a.length + 4 + ip.length + 2
      omega
    rw [e']
    exact h
  have h5 : (a ++ gameBody ⟨⟨gport, ip, cport⟩, raw⟩).drop (a.length + 6 + ip.length) = raw := by
    have h : (a ++ (packH gport ++ (packH ip.length ++ (ip ++ packH cport))) ++ raw).drop
        (a ++ (packH gport ++ (packH ip.length ++ (ip ++ packH cport)))).length = raw :=
      List.drop_left
    have e' : (a ++ (packH gport ++ (packH ip.length ++ (ip ++ packH cport)))).length
        = a.length + 6 + ip.length := by
      simp only [List.length_append, packH, List.length_cons, List.length_nil]
      omega
    rw [e'] at h
    simpa only [gameBody, List.append_assoc] using h
  unfold decodeGameAt
  rw [h1, unpackH_packH hg]
  show (unpackH (slice _ (a.length + 2) (a.length + 4))).bind _ = _
  rw [h2, unpackH_packH hi]
  show (decodeText (slice _ (a.length + 4) (a.length + 4 + ip.length))).bind _ = _
  rw [h3, decodeText, if_pos ht]
  show (unpackH (slice _ (a.length + 4 + ip.length) (a.length + 6 + ip.length))).bind _ = _
  rw [h4, unpackH_packH hc]
  show some (UdpGame.mk ⟨gport, ip, cport⟩ (List.drop (a.length + 6 + ip.length) _)) = _
  rw [h5]

theorem encodeUdpGame_body (op : UInt8) (g : UdpGame) :
    encodeUdpGame op g = UMAGIC ++ [UVER, op] ++ gameBody g := by
  simp only [encodeUdpGame, gameBody, List.append_assoc]

theorem udpOp_encode (op : UInt8) (g : UdpGame) : udpOp (encodeUdpGame op g) = op := by
  rw [encodeUdpGame_body]
  rfl

theorem udpOp_encodePdat (dest : Nat) (g : UdpGame) : udpOp (encodePdat dest g) = U_GAME_P2P := rfl

theorem length_gameBody (g : UdpGame) : 6 ≤ (gameBody g).length := by
  simp only [gameBody, packH, List.length_append, List.length_cons, List.length_nil]
  omega

theorem decodeUdpGame_encode {g : UdpGame} (h : g.Fits) (op : UInt8) :
    decodeUdpGame (encodeUdpGame op g) = some g := by
  have hlen := length_gameBody g
  have hok : udpHeaderOk (UMAGIC ++ [UVER, op] ++ gameBody g) 6 = true := by
    simp only [udpHeaderOk, UMAGIC, List.length_append, List.length_cons, List.length_nil]
    simp [slice]
    omega
  unfold decodeUdpGame
  rw [encodeUdpGame_body, if_pos hok]
  exact decodeGameAt_body h (UMAGIC ++ [UVER, op])

theorem decodePdat_encode {g : UdpGame} (h : g.Fits) (dest : Nat) :
    decodePdat (encodePdat dest g) = some (dest % 4294967296, g) := by
  have hlen := length_gameBody g
  have hok : udpHeaderOk (encodePdat dest g) 10 = true := by
    simp only [encodePdat, udpHeaderOk, UMAGIC, packI, List.length_append, List.length_cons,
      List.length_nil]
    simp [slice]
    omega
  have hdest : slice (encodePdat dest g) 4 8 = packI dest := by
    have h := slice_append (UMAGIC ++ [UVER, U_GAME_P2P]) (packI dest) (gameBody g)
    rw [← List.append_assoc] at h
    exact h
  unfold decodePdat
  rw [if_pos (by rw [hok, udpOp_encodePdat]; rfl), hdest, unpackI_packI]
  show (decodeGameAt (encodePdat dest g) 8).bind _ = _
  rw [show decodeGameAt (encodePdat dest g) 8 = some g from
    decodeGameAt_body h (UMAGIC ++ [UVER, U_GAME_P2P] ++ packI dest)]
  rfl

/-! ## the hook's reader -/

/-- `dt_get16` -/
def dtGet16 (b : Bytes) (o : Nat) : Nat := (b.getD o 0).toNat * 256 + (b.getD (o + 1) 0).toNat

/-- `dt_get32` -/
def dtGet32 (b : Bytes) (o : Nat) : Nat := dtGet16 b o * 65536 + dtGet16 b (o + 2)

/-- what `dt_udp_ingress` reads of a C2S or an S2C -/
def dtGame (b : Bytes) : Option UdpGame :=
  if udpHeaderOk b 10 then
    let il := dtGet16 b 6
    if b.length < 8 + il + 2 then none
    else some ⟨⟨dtGet16 b 4, slice b 8 (8 + il), dtGet16 b (8 + il)⟩, b.drop (10 + il)⟩
  else none

theorem unpackH_slice {b : Bytes} {o n : Nat} (h : unpackH (slice b o (o + 2)) = some n) :
    o + 2 ≤ b.length ∧ dtGet16 b o = n := by
  have hget : ∀ i, b.getD (o + i) 0 = (b.drop o).getD i 0 := fun i => by
    rw [List.getD_eq_getElem?_getD, List.getD_eq_getElem?_getD, List.getElem?_drop]
  have h0 := hget 0
  rw [Nat.add_zero] at h0
  have hlen : (b.drop o).length = b.length - o := List.length_drop
  unfold dtGet16
  rw [h0, hget 1]
  unfold slice at h
  rw [Nat.add_sub_cancel_left] at h
  revert h hlen
  cases b.drop o with
  | nil => exact nofun
  | cons x r =>
    cases r with
    | nil => exact nofun
    | cons y r =>
      intro h hlen
      refine ⟨?_, Option.some.inj h⟩
      rw [List.length_cons, List.length_cons] at hlen
      omega

theorem dtGame_of_decode {b : Bytes} {g : UdpGame} (h : decodeUdpGame b = some g) :
    dtGame b = some g := by
  unfold decodeUdpGame at h
  obtain ⟨hok, h⟩ := Option.ite_none_right_eq_some.mp h
  unfold decodeGameAt at h
  obtain ⟨gport, hg, h⟩ := Option.bind_eq_some_iff.mp h
  obtain ⟨il, hil, h⟩ := Option.bind_eq_some_iff.mp h
  obtain ⟨ip, hip, h⟩ := Option.bind_eq_some_iff.mp h
  obtain ⟨cport, hc, h⟩ := Option.bind_eq_some_iff.mp h
  obtain ⟨-, eg⟩ := unpackH_slice hg
  obtain ⟨-, ei⟩ := unpackH_slice hil
  rw [show 4 + 6 + il = 4 + 4 + il + 2 by omega] at hc
  obtain ⟨hlen, ec⟩ := unpackH_slice hc
  obtain ⟨-, hip⟩ := Option.ite_none_right_eq_some.mp hip
  unfold dtGame
  have hok10 : udpHeaderOk b 10 = true := by
    simp only [udpHeaderOk, Bool.and_eq_true, decide_eq_true_eq] at hok ⊢
    exact ⟨⟨by omega, hok.1.2⟩, hok.2⟩
  rw [if_pos hok10, ei]
  dsimp only
  rw [if_neg (by omega), eg, ec, Option.some.inj hip]
  exact h

end ShadowLan
