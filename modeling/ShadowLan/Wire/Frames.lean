import Mathlib.Data.List.GetD
import ShadowLan.Wire.Game
import ShadowLan.Wire.Tcp

/-!
# The other frames

What `common.py` writes on control and per-stream connections, with the readers that the hook and
the relay have for them.

* `nodeBody`, `decodeNode_body`       the registration;
* `encode_assign`, `encode_streq`     what the relay tells a hook;
* `decode_stsid`, `stshutSid`, `bcastPorts`   what it is told;
* `dtGet16_at`, `dtGet32_at`          `dt_get16` and `dt_get32` find a field behind any others.
-/

namespace ShadowLan

def T_STOPEN : UInt8 := 0x07
def T_STSHUT : UInt8 := 0x0D

def STSID_N : Nat := 4

/-! ## writers -/

/-- `dt_token_prefix`, the node, its port and its flags; `encode_node` -/
def nodeBody (f : NodeFrame) : Bytes :=
  packH f.token.length ++ f.token ++ packI f.node ++ packH f.udpPort ++ [UInt8.ofNat f.flags]

structure AssignFrame where
  my_virt : Nat
  net : Nat
  bits : Nat
  members : List (Nat × Nat)
  deriving DecidableEq

def encode_assign (a : AssignFrame) : Bytes :=
  packI a.my_virt ++ packI a.net ++ [UInt8.ofNat a.bits] ++ packH a.members.length ++
    a.members.flatMap fun m => packI m.1 ++ packI m.2

def encode_streq (sid gport ovirt : Nat) : Bytes := packI sid ++ packH gport ++ packI ovirt

/-! ## readers -/

def decode_stsid (payload : Bytes) : Option Nat :=
  if payload.length ≠ STSID_N then none else unpackI payload

/-- the sid that the relay takes out of a `T_STSHUT` -/
def stshutSid (payload : Bytes) : Option Nat :=
  if 4 ≤ payload.length then unpackI (slice payload 0 4) else none

/-- the ports and the beacon that the relay takes out of a `T_BCAST` -/
def bcastPorts (payload : Bytes) : Option (Nat × Nat × Bytes) :=
  if 4 ≤ payload.length then do
    let dport ← unpackH (slice payload 0 2)
    let sport ← unpackH (slice payload 2 4)
    return (dport, sport, payload.drop 4)
  else none

/-! ## one field -/

theorem unpackI_packI_lt {n : Nat} (h : n < 4294967296) : unpackI (packI n) = some n := by
  rw [unpackI_packI, Nat.mod_eq_of_lt h]

theorem ofNat_byte_congr {a b : Nat} (h : a % 256 = b % 256) : UInt8.ofNat a = UInt8.ofNat b := by
  apply UInt8.toNat_inj.mp
  rw [UInt8.toNat_ofNat', UInt8.toNat_ofNat']
  exact h

theorem packI_mod (n : Nat) : packI (n % 4294967296) = packI n := by
  have h1 : UInt8.ofNat (n % 4294967296 / 16777216) = UInt8.ofNat (n / 16777216) :=
    ofNat_byte_congr (by omega)
  have h2 : UInt8.ofNat (n % 4294967296 / 65536) = UInt8.ofNat (n / 65536) :=
    ofNat_byte_congr (by omega)
  have h3 : UInt8.ofNat (n % 4294967296 / 256) = UInt8.ofNat (n / 256) :=
    ofNat_byte_congr (by omega)
  have h4 : UInt8.ofNat (n % 4294967296) = UInt8.ofNat n := ofNat_byte_congr (by omega)
  unfold packI
  rw [h1, h2, h3, h4]

theorem getD_append_right (a r : Bytes) (i : Nat) : (a ++ r).getD (a.length + i) 0 = r.getD i 0 := by
  rw [List.getD_append_right _ _ _ _ (Nat.le_add_right _ _), Nat.add_sub_cancel_left]

theorem dtGet16_append (a r : Bytes) (i : Nat) : dtGet16 (a ++ r) (a.length + i) = dtGet16 r i := by
  unfold dtGet16
  rw [Nat.add_assoc, getD_append_right, getD_append_right]

theorem dtGet32_append (a r : Bytes) (i : Nat) : dtGet32 (a ++ r) (a.length + i) = dtGet32 r i := by
  unfold dtGet32
  rw [Nat.add_assoc, dtGet16_append, dtGet16_append]

theorem dtGet16_packH {n : Nat} (h : n < 65536) (r : Bytes) : dtGet16 (packH n ++ r) 0 = n := by
  show (UInt8.ofNat (n / 256)).toNat * 256 + (UInt8.ofNat n).toNat = n
  rw [UInt8.toNat_ofNat', UInt8.toNat_ofNat']
  omega

theorem dtGet32_packI {n : Nat} (h : n < 4294967296) (r : Bytes) : dtGet32 (packI n ++ r) 0 = n := by
  show ((UInt8.ofNat (n / 16777216)).toNat * 256 + (UInt8.ofNat (n / 65536)).toNat) * 65536
    + ((UInt8.ofNat (n / 256)).toNat * 256 + (UInt8.ofNat n).toNat) = n
  simp only [UInt8.toNat_ofNat']
  omega

/-- a 16-bit field behind the bytes of the fields before it -/
theorem dtGet16_at {n : Nat} (h : n < 65536) (a r : Bytes) :
    dtGet16 (a ++ (packH n ++ r)) a.length = n := by
  rw [← Nat.add_zero a.length, dtGet16_append, dtGet16_packH h]

theorem dtGet32_at {n : Nat} (h : n < 4294967296) (a r : Bytes) :
    dtGet32 (a ++ (packI n ++ r)) a.length = n := by
  rw [← Nat.add_zero a.length, dtGet32_append, dtGet32_packI h]

/-- a field that was read is written back as it was -/
theorem byte_of_mod {c : UInt8} {n : Nat} (h : n % 256 = c.toNat) : UInt8.ofNat n = c := by
  apply UInt8.toNat_inj.mp
  rw [UInt8.toNat_ofNat']
  exact h

theorem packI_of_unpackI {b : Bytes} {n : Nat} (h : unpackI b = some n) : packI n = b := by
  unfold unpackI at h
  split at h
  · next w x y z =>
    have hw := w.toNat_lt
    have hx := x.toNat_lt
    have hy := y.toNat_lt
    have hz := z.toNat_lt
    rw [← Option.some.inj h]
    unfold packI
    rw [byte_of_mod (c := w) (by omega), byte_of_mod (c := x) (by omega),
      byte_of_mod (c := y) (by omega), byte_of_mod (c := z) (by omega)]
  · cases h

theorem unpackI_dtGet32 {b : Bytes} (h : b.length = 4) : unpackI b = some (dtGet32 b 0) := by
  obtain ⟨w, x, y, z, rfl⟩ := List.length_eq_four.mp h
  have e : dtGet32 [w, x, y, z] 0
    = (w.toNat * 256 + x.toNat) * 65536 + (y.toNat * 256 + z.toNat) := rfl
  rw [e]
  unfold unpackI
  refine congrArg some ?_
  omega

/-! ## the registration -/

structure NodeFrame.Fits (f : NodeFrame) : Prop where
  token : f.token.length ≤ 256
  node : f.node < 4294967296
  udpPort : f.udpPort < 65536
  flags : f.flags < 256

theorem length_nodeBody (f : NodeFrame) : (nodeBody f).length = 2 + f.token.length + 7 := by
  simp only [nodeBody, packH, packI, List.length_append, List.length_cons, List.length_nil]

theorem decodeNode_body {f : NodeFrame} (h : f.Fits) : decodeNode (nodeBody f) = some f := by
  obtain ⟨token, node, port, flags⟩ := f
  obtain ⟨ht, hn, hp, hf⟩ := h
  have ht : token.length ≤ 256 := ht
  have hlen := length_nodeBody ⟨token, node, port, flags⟩
  have e : nodeBody ⟨token, node, port, flags⟩
      = packH token.length ++ (token ++ (packI node ++ (packH port ++ [UInt8.ofNat flags]))) := by
    simp only [nodeBody, List.append_assoc]
  rw [e] at hlen ⊢
  have h1 : slice (packH token.length ++ (token ++ (packI node ++ (packH port
      ++ [UInt8.ofNat flags])))) 0 2 = packH token.length := slice_append [] (packH token.length) _
  have h2 : slice (packH token.length ++ (token ++ (packI node ++ (packH port
      ++ [UInt8.ofNat flags])))) 2 (2 + token.length) = token :=
    slice_append (packH token.length) token _
  have h3 : slice (packH token.length ++ (token ++ (packI node ++ (packH port
      ++ [UInt8.ofNat flags])))) (2 + token.length) (6 + token.length) = packI node := by
    have h := slice_append (packH token.length ++ token) (packI node)
      (packH port ++ [UInt8.ofNat flags])
    rw [List.append_assoc, List.length_append] at h
    rw [show 6 + token.length = (packH token.length).length + token.length + (packI node).length by
      show _ = 2 + token.length + 4
      omega]
    exact h
  have h4 : slice (packH token.length ++ (token ++ (packI node ++ (packH port
      ++ [UInt8.ofNat flags])))) (6 + token.length) (8 + token.length) = packH port := by
    have h := slice_append (packH token.length ++ (token ++ packI node)) (packH port)
      [UInt8.ofNat flags]
    have e' : (packH token.length ++ (token ++ packI node)).length = 6 + token.length := by
      simp only [packH, packI, List.length_append, List.length_cons, List.length_nil]
      omega
    rw [List.append_assoc, List.append_assoc, e'] at h
    rw [show 8 + token.length = 6 + token.length + (packH port).length by
      show _ = 6 + token.length + 2
      omega]
    exact h
  have h5 : (packH token.length ++ (token ++ (packI node ++ (packH port
      ++ [UInt8.ofNat flags])))).getD (8 + token.length) 0 = UInt8.ofNat flags := by
    have h := getD_append_right (packH token.length ++ (token ++ (packI node ++ packH port)))
      [UInt8.ofNat flags] 0
    have e' : (packH token.length ++ (token ++ (packI node ++ packH port))).length
        = 8 + token.length := by
      simp only [packH, packI, List.length_append, List.length_cons, List.length_nil]
      omega
    rw [List.append_assoc, List.append_assoc, List.append_assoc, e'] at h
    exact h
  rw [decodeNode, h1, unpackH_packH (by omega)]
  show (if _ ≠ _ then none else _) = _
  rw [if_neg (not_not.mpr hlen), h3, unpackI_packI_lt hn]
  show (unpackH (slice _ (6 + token.length) (8 + token.length))).bind _ = _
  rw [h4, unpackH_packH hp, h2, h5, toNat_ofNat_byte hf]
  rfl

theorem unpackI_lt {b : Bytes} {n : Nat} (h : unpackI b = some n) : n < 4294967296 := by
  unfold unpackI at h
  split at h
  · next a b c d =>
    have ha := a.toNat_lt
    have hb := b.toNat_lt
    have hc := c.toNat_lt
    have hd := d.toNat_lt
    rw [← Option.some.inj h]
    omega
  · cases h

theorem unpackH_lt {b : Bytes} {n : Nat} (h : unpackH b = some n) : n < 65536 := by
  unfold unpackH at h
  split at h
  · next c d =>
    have hc := c.toNat_lt
    have hd := d.toNat_lt
    rw [← Option.some.inj h]
    omega
  · cases h

theorem decodeCtlNode_node {payload : Bytes} {f : NodeFrame} (h : decodeCtlNode payload = some f) :
    f.node < 4294967296 := by
  obtain ⟨-, h⟩ := Option.ite_none_right_eq_some.mp h
  unfold decodeNode at h
  obtain ⟨n, -, h⟩ := Option.bind_eq_some_iff.mp h
  obtain ⟨-, h⟩ := Option.ite_none_left_eq_some.mp h
  obtain ⟨node, hnode, h⟩ := Option.bind_eq_some_iff.mp h
  obtain ⟨port, -, h⟩ := Option.bind_eq_some_iff.mp h
  rw [← Option.some.inj h]
  exact unpackI_lt hnode

end ShadowLan
