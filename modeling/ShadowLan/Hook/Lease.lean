import ShadowLan.Hook.Interop
import ShadowLan.Wire.CodecExact
import ShadowLan.Lib.Dict
import Mathlib.Algebra.Ring.Nat

/-!
# The lease of a virtual address

The relay tells every hook in one `ASSIGN` its own address, the subnet and the whole membership.
`dtApplyAssign` reads the message into the tables and raises `g_have_assign`; `dtVirtNode` and
`dtNodeVirt` are what the rest of the hook asks of them.

* `Lease`      the tables and the flag;
* `inVnet_iff`  the comparison of bytes and the rest of the bits is one shift, for every prefix;
* `AssignOk`   an assignment that names every node and every address once;
* `assign_two_way`  the two look-ups are inverse on such an assignment, and a malformed message
  changes nothing.

An address in network order is four bytes.
-/

namespace ShadowLan

structure Lease where
  policy : Policy
  g_have_assign : Bool

/-- `dt_ipnum` -/
def dtIpnum (b : Bytes) : Nat := dtGet32 b 0

namespace Lease

/-- `dt_apply_assign` -/
def dtApplyAssign (s : Lease) (p : Bytes) : Lease :=
  match dtReadAssign p with
  | some _ => { policy := s.policy.applyAssign p, g_have_assign := true }
  | none => s

/-- `dt_virt_node`, of four bytes -/
def dtVirtNode (s : Lease) (inaddr : Bytes) : Nat := s.policy.virtNode (dtIpnum inaddr)

/-- `dt_node_virt` -/
def dtNodeVirt (s : Lease) (node : Nat) : Nat := s.policy.nodeVirt node

end Lease

/-! ## the prefix -/

/-- a byte under the mask of its top bits keeps these -/
theorem and_top {k x : Nat} (hk : k ≤ 8) (hx : x < 256) :
    x &&& ((0xFF <<< k) &&& 0xFF) = (x >>> k) <<< k := by
  apply Nat.eq_of_testBit_eq
  intro i
  have hff : ∀ j, Nat.testBit 0xFF j = decide (j < 8) := fun j => Nat.testBit_two_pow_sub_one 8 j
  rw [Nat.testBit_and, Nat.testBit_and, Nat.testBit_shiftLeft, Nat.testBit_shiftLeft,
    Nat.testBit_shiftRight, hff, hff]
  by_cases hki : k ≤ i
  · rw [Nat.add_sub_cancel' hki]
    by_cases hi : i < 8
    · have hik : i - k < 8 := by omega
      simp [hki, hi, hik]
    · have hb : x.testBit i = false :=
        Nat.testBit_lt_two_pow (lt_of_lt_of_le hx (Nat.pow_le_pow_right (show 2 > 0 by decide) (not_lt.mp hi)))
      simp [hb]
  · simp [hki]

theorem and_top_inj {k x y : Nat} (hk : k ≤ 8) (hx : x < 256) (hy : y < 256) :
    x &&& ((0xFF <<< k) &&& 0xFF) = y &&& ((0xFF <<< k) &&& 0xFF) ↔ x >>> k = y >>> k := by
  rw [and_top hk hx, and_top hk hy, Nat.shiftLeft_eq, Nat.shiftLeft_eq]
  exact Nat.mul_left_inj (Nat.two_pow_pos k).ne'

/-- a number cut inside its last byte: the bytes above it, and what is left of that byte -/
theorem shift_byte {k a b : Nat} (hk : k ≤ 8) :
    a >>> k = b >>> k ↔ a >>> 8 = b >>> 8 ∧ (a % 256) >>> k = (b % 256) >>> k := by
  have hup : ∀ n, n >>> 8 = (n >>> k) / 2 ^ (8 - k) := by
    intro n
    rw [← Nat.shiftRight_eq_div_pow, ← Nat.shiftRight_add, Nat.add_sub_cancel' hk]
  have hlow : ∀ n, (n % 256) >>> k = (n >>> k) % 2 ^ (8 - k) := by
    intro n
    have e : 256 = 2 ^ k * 2 ^ (8 - k) := by
      rw [← Nat.pow_add, Nat.add_sub_cancel' hk]
    rw [Nat.shiftRight_eq_div_pow, Nat.shiftRight_eq_div_pow, e, Nat.mod_mul_right_div_self]
  constructor
  · intro h
    rw [hup, hup, hlow, hlow, h]
    exact ⟨rfl, rfl⟩
  · rintro ⟨h8, hk⟩
    rw [hup, hup] at h8
    rw [hlow, hlow] at hk
    rw [← Nat.div_add_mod (a >>> k) (2 ^ (8 - k)), h8, hk, Nat.div_add_mod]

theorem take_octets {full a b : Nat} (hf : full ≤ 4) (ha : a < 4294967296) (hb : b < 4294967296) :
    (octets a).take full = (octets b).take full ↔ a >>> (32 - 8 * full) = b >>> (32 - 8 * full) := by
  have hcases : full = 0 ∨ full = 1 ∨ full = 2 ∨ full = 3 ∨ full = 4 := by omega
  rcases hcases with rfl | rfl | rfl | rfl | rfl <;>
    simp [octets, Nat.shiftRight_eq_div_pow] <;> omega

theorem getD_octets {full : Nat} (hf : full < 4) (a : Nat) :
    (octets a).getD full 0 = a >>> (24 - 8 * full) % 256 := by
  have hcases : full = 0 ∨ full = 1 ∨ full = 2 ∨ full = 3 := by omega
  rcases hcases with rfl | rfl | rfl | rfl <;> simp [octets, Nat.shiftRight_eq_div_pow]

theorem octets_inj {a b : Nat} (ha : a < 4294967296) (hb : b < 4294967296)
    (h : octets a = octets b) : a = b := by
  have h4 := (take_octets (Nat.le_refl 4) ha hb).mp (congrArg (List.take 4) h)
  exact h4

/-- the whole bytes and the top bits of the next one are the first `bits` bits -/
theorem prefix_iff {bits a b : Nat} (hbits : bits ≤ 32) (ha : a < 4294967296)
    (hb : b < 4294967296) :
    (octets a).take (bits / 8) = (octets b).take (bits / 8) ∧ (bits % 8 = 0 ∨
        (octets a).getD (bits / 8) 0 &&& ((0xFF <<< (8 - bits % 8)) &&& 0xFF) =
          (octets b).getD (bits / 8) 0 &&& ((0xFF <<< (8 - bits % 8)) &&& 0xFF)) ↔
      a >>> (32 - bits) = b >>> (32 - bits) := by
  rw [take_octets (by omega) ha hb]
  by_cases hrem : bits % 8 = 0
  · have e : 8 * (bits / 8) = bits := by omega
    rw [e]
    exact ⟨fun h => h.1, fun h => ⟨h, Or.inl hrem⟩⟩
  · have hfull : bits / 8 < 4 := by omega
    have hk : 8 - bits % 8 ≤ 8 := Nat.sub_le _ _
    have hlt : ∀ n, n % 256 < 256 := fun n => Nat.mod_lt n (by decide)
    have e8 : 32 - 8 * (bits / 8) = 24 - 8 * (bits / 8) + 8 := by omega
    have ek : 32 - bits = 24 - 8 * (bits / 8) + (8 - bits % 8) := by omega
    rw [getD_octets hfull, getD_octets hfull, and_top_inj hk (hlt _) (hlt _), e8, ek,
      Nat.shiftRight_add, Nat.shiftRight_add, Nat.shiftRight_add, Nat.shiftRight_add,
      shift_byte (a := a >>> (24 - 8 * (bits / 8))) hk, or_iff_right hrem]

/-- `dt_in_vnet` is one comparison of the first bits -/
theorem Policy.inVnet_iff (P : Policy) {addr : Nat} (hm : P.g_members ≠ [])
    (hbits : 1 ≤ P.g_vbits ∧ P.g_vbits ≤ 32) (hn : P.g_vnetb < 4294967296)
    (ha : addr < 4294967296) :
    P.inVnet addr = true ↔ P.g_vnetb >>> (32 - P.g_vbits) = addr >>> (32 - P.g_vbits) := by
  rw [← prefix_iff hbits.2 hn ha]
  unfold inVnet
  simp only [Bool.and_eq_true, Bool.or_eq_true, decide_eq_true_eq]
  constructor
  · rintro ⟨⟨-, htake⟩, hrem⟩
    exact ⟨htake, hrem⟩
  · rintro ⟨htake, hrem⟩
    exact ⟨⟨⟨⟨hm, hbits.1⟩, hbits.2⟩, htake⟩, hrem⟩

/-! ## what an assignment says -/

/-- the members as the four bytes of a field hold them -/
def wireMembers (members : List (Nat × Nat)) : List (Nat × Nat) :=
  members.map fun m => (m.1 % 4294967296, m.2 % 4294967296)

structure AssignOk (net bits : Nat) (ms : List (Nat × Nat)) : Prop where
  length : 1 ≤ bits ∧ bits ≤ 32
  few : ms.length ≤ DT_MAXMEMB
  named : ∀ m ∈ ms, m.1 ≠ 0
  nodes : (ms.map Prod.fst).Nodup
  virts : (ms.map Prod.snd).Nodup
  inside : ∀ m ∈ ms, net >>> (32 - bits) = m.2 >>> (32 - bits)
  off_net : ∀ m ∈ ms, m.2 ≠ net

/-- the members of an assignment by node -/
def AssignOk.byNode {net bits : Nat} {ms : List (Nat × Nat)} (h : AssignOk net bits ms) :
    Dict Nat Nat := ⟨ms, h.nodes⟩

/-- and by address -/
def AssignOk.byVirt {net bits : Nat} {ms : List (Nat × Nat)} (h : AssignOk net bits ms) :
    Dict Nat Nat :=
  ⟨ms.map Prod.swap, by
    have e : (ms.map Prod.swap).map Prod.fst = ms.map Prod.snd := List.map_map
    rw [e]
    exact h.virts⟩

namespace Py

theorem beBytes_I (n : Nat) : beBytes I n = packI n := by
  show [UInt8.ofNat (n / 16777216), UInt8.ofNat (n / 65536), UInt8.ofNat (n / 256),
    UInt8.ofNat (n / 1)] = packI n
  rw [Nat.div_one]
  rfl

theorem beBytes_H (n : Nat) : beBytes H n = packH n := by
  show [UInt8.ofNat (n / 256), UInt8.ofNat (n / 1)] = packH n
  rw [Nat.div_one]
  rfl

theorem rowsBytes_eq (members : List (Nat × Nat)) :
    rowsBytes members = members.flatMap fun m => packI m.1 ++ packI m.2 := by
  unfold rowsBytes
  congr 1
  funext m
  show beBytes I m.1 ++ (beBytes I m.2 ++ []) = _
  rw [beBytes_I, beBytes_I, List.append_nil]

/-- the two writers of an assignment agree on what fits -/
theorem packs_assign (my_virt net bits : Nat) (members : List (Nat × Nat)) :
    packs [I, I, B, H] (my_virt, net, bits, members.length, ()) ++ rowsBytes members =
      ShadowLan.encode_assign ⟨my_virt, net, bits, members⟩ := by
  have hbits : beBytes B bits = [UInt8.ofNat bits] := by
    show [UInt8.ofNat (bits / 1)] = _
    rw [Nat.div_one]
  show (beBytes I my_virt ++ (beBytes I net ++ (beBytes B bits ++ (beBytes H members.length ++ []))))
    ++ rowsBytes members = packI my_virt ++ packI net ++ [UInt8.ofNat bits] ++ packH members.length
      ++ members.flatMap fun m => packI m.1 ++ packI m.2
  rw [beBytes_I, beBytes_I, beBytes_H, hbits, rowsBytes_eq, List.append_nil]
  simp only [List.append_assoc]

/-- the payload of `encode_assign` is that of the masked arguments -/
theorem encode_assign_wire {my_virt net bits : Nat} {members : List (Nat × Nat)} {d : Bytes}
    (h : encode_assign my_virt net bits members = .ok d) :
    d = ShadowLan.encode_assign
      ⟨my_virt % 4294967296, net % 4294967296, bits % 256, wireMembers members⟩ := by
  have hmask : encode_assign my_virt net bits members
      = encode_assign (my_virt % 4294967296) (net % 4294967296) (bits % 256)
          (wireMembers members) := by
    have hrow : ∀ m : Nat × Nat, packMasked [I, I] (m.1, m.2, ())
        = packMasked [I, I] (m.1 % 4294967296, m.2 % 4294967296, ()) := fun m =>
      congrArg (structPack [I, I]) (masked_of_fits (fits_masked [I, I] (m.1, m.2, ()))).symm
    have hrows : (members.mapM fun m => packMasked [I, I] (m.1, m.2, ()))
        = (wireMembers members).mapM fun m => packMasked [I, I] (m.1, m.2, ()) := by
      rw [wireMembers, List.mapM_map]
      exact congrArg (fun f => members.mapM f) (funext hrow)
    have h32 : ∀ n : Nat, n % 4294967296 % 2 ^ 32 = n % 2 ^ 32 := fun n => Nat.mod_mod n 4294967296
    have h8 : bits % 256 % 2 ^ 8 = bits % 2 ^ 8 := Nat.mod_mod bits 256
    unfold encode_assign
    rw [hrows, h32, h32, h8, wireMembers, List.length_map]
  have hfit : Fits [I, I, B] (my_virt % 4294967296, net % 4294967296, bits % 256, ()) :=
    ⟨Nat.mod_lt _ (by decide), Nat.mod_lt _ (by decide), Nat.mod_lt _ (by decide), trivial⟩
  have hrows : ∀ m ∈ wireMembers members, Fits [I, I] (m.1, m.2, ()) := by
    intro m hm
    obtain ⟨x, -, rfl⟩ := List.mem_map.mp hm
    exact ⟨Nat.mod_lt _ (by decide), Nat.mod_lt _ (by decide), trivial⟩
  rw [hmask, encode_assign_ok_iff hfit hrows] at h
  obtain ⟨-, rfl⟩ := h
  exact packs_assign _ _ _ _

end Py

/-! ## the two look-ups -/

/-- the tables hold the assignment -/
structure Policy.Holds (P : Policy) (net bits : Nat) (ms : List (Nat × Nat)) : Prop where
  members : P.g_members = ms.map fun m => ⟨m.1, m.2⟩
  vnetb : P.g_vnetb = net
  vbits : P.g_vbits = bits
  lt_net : net < 4294967296
  wire : ∀ m ∈ ms, m.1 < 4294967296 ∧ m.2 < 4294967296

theorem dtIpnum_packI {n : Nat} (h : n < 4294967296) : dtIpnum (packI n) = n :=
  dtGet32_packI h []

section
variable {P : Policy} {net bits : Nat} {ms : List (Nat × Nat)}

theorem nodeVirt_get? (ok : AssignOk net bits ms) (hP : P.Holds net bits ms) (node : Nat) :
    P.nodeVirt node = (ok.byNode.get? node).getD 0 := by
  unfold Policy.nodeVirt
  rw [hP.members, List.find?_map, Option.map_map]
  rfl

theorem virtNode_get? (ok : AssignOk net bits ms) (hP : P.Holds net bits ms) {addr : Nat}
    (ha : addr < 4294967296) : P.virtNode addr = (ok.byVirt.get? addr).getD 0 := by
  have hfind : ((P.g_members.find? (·.virt = addr)).map (·.node)) = ok.byVirt.get? addr := by
    show _ = ((ms.map Prod.swap).find? fun e => e.1 = addr).map Prod.snd
    rw [hP.members, List.find?_map, Option.map_map, List.find?_map, Option.map_map]
    rfl
  unfold Policy.virtNode
  split
  · rw [hfind]
  · next hout =>
    -- an address that the test keeps out is no member's
    have hnone : ok.byVirt.get? addr = none := by
      rw [Dict.get?_eq_none]
      intro node hmem
      obtain ⟨m, hm, e⟩ := List.mem_map.mp hmem
      obtain rfl : m.2 = addr := congrArg Prod.fst e
      apply hout
      have hne : P.g_members ≠ [] := by
        rw [hP.members]
        exact List.ne_nil_of_mem (List.mem_map_of_mem hm)
      have hlen : 1 ≤ P.g_vbits ∧ P.g_vbits ≤ 32 := hP.vbits ▸ ok.length
      have hnet : P.g_vnetb < 4294967296 := hP.vnetb ▸ hP.lt_net
      rw [P.inVnet_iff hne hlen hnet ha, hP.vnetb, hP.vbits]
      exact ⟨ok.inside m hm, fun e => ok.off_net m hm (octets_inj ha hP.lt_net e.symm)⟩
    rw [hnone]
    rfl

theorem virtNode_member (ok : AssignOk net bits ms) (hP : P.Holds net bits ms) {m : Nat × Nat}
    (hm : m ∈ ms) : P.virtNode (dtIpnum (packI m.2)) = m.1 := by
  have hget : ok.byVirt.get? m.2 = some m.1 := Dict.get?_eq_some.mpr (List.mem_map_of_mem hm)
  have hlt := (hP.wire m hm).2
  rw [dtIpnum_packI hlt, virtNode_get? ok hP hlt, hget]
  rfl

theorem virtNode_other (ok : AssignOk net bits ms) (hP : P.Holds net bits ms) {inaddr : Bytes}
    (hlen : inaddr.length = 4) (hno : ∀ m ∈ ms, inaddr ≠ packI m.2) :
    P.virtNode (dtIpnum inaddr) = 0 := by
  have h4 : unpackI inaddr = some (dtIpnum inaddr) := unpackI_dtGet32 hlen
  have hnone : ok.byVirt.get? (dtIpnum inaddr) = none := by
    rw [Dict.get?_eq_none]
    intro node hmem
    obtain ⟨m, hm, e⟩ := List.mem_map.mp hmem
    have he : m.2 = dtIpnum inaddr := congrArg Prod.fst e
    exact hno m hm (he ▸ (packI_of_unpackI h4).symm)
  rw [virtNode_get? ok hP (unpackI_lt h4), hnone]
  rfl

theorem nodeVirt_member (ok : AssignOk net bits ms) (hP : P.Holds net bits ms) {m : Nat × Nat}
    (hm : m ∈ ms) : P.nodeVirt m.1 = m.2 := by
  have hget : ok.byNode.get? m.1 = some m.2 := Dict.get?_eq_some.mpr hm
  rw [nodeVirt_get? ok hP, hget]
  rfl

theorem nodeVirt_other (ok : AssignOk net bits ms) (hP : P.Holds net bits ms) {node : Nat}
    (hno : ∀ m ∈ ms, node ≠ m.1) : P.nodeVirt node = 0 := by
  have hnone : ok.byNode.get? node = none :=
    Dict.get?_eq_none.mpr fun _ hmem => hno _ hmem rfl
  rw [nodeVirt_get? ok hP, hnone]
  rfl

end

/-! ## the message -/

namespace Lease

theorem dtApplyAssign_encode (s : Lease) {a : AssignFrame} (h : a.Fits) :
    (s.dtApplyAssign (encode_assign a)).policy.Holds a.net a.bits a.members := by
  have e : (s.dtApplyAssign (encode_assign a)).policy = s.policy.applyAssign (encode_assign a) := by
    unfold dtApplyAssign
    rw [dtReadAssign_encode h]
  rw [e, Policy.applyAssign_encode _ h]
  exact ⟨rfl, rfl, rfl, h.net, h.members⟩

/-- a payload that the reader turns down -/
theorem dtReadAssign_eq_none {p : Bytes} (h : p.length < DT_ASSIGN_HDR_N ∨
    p.length ≠ DT_ASSIGN_HDR_N + 8 * dtGet16 p 9 ∨ (p.getD 8 0).toNat = 0 ∨
    32 < (p.getD 8 0).toNat ∨ DT_MAXMEMB < dtGet16 p 9) : dtReadAssign p = none := by
  unfold dtReadAssign
  dsimp only
  by_cases hshort : p.length < DT_ASSIGN_HDR_N
  · rw [if_pos hshort]
  by_cases hbad : (p.getD 8 0).toNat = 0 ∨ 32 < (p.getD 8 0).toNat ∨ DT_MAXMEMB < dtGet16 p 9
  · rw [if_neg hshort, if_pos hbad]
  · rw [if_neg hshort, if_neg hbad, if_pos ((h.resolve_left hshort).resolve_right hbad)]

/-- **An exact two-way map.**  After an assignment whose members have nodes other than 0, no node and
no address twice, and addresses in the subnet other than that of the subnet itself, the address of a
member leads to its node and the node to the address, every other address and every other node to 0.
A payload that is too short, of the wrong length, with a bad prefix length or with too many members
leaves the tables and the flag as they are. -/
theorem assign_two_way (s : Lease) :
    (∀ my_virt net bits members d, Py.encode_assign my_virt net bits members = .ok d →
      AssignOk (net % 4294967296) (bits % 256) (wireMembers members) →
      (∀ m ∈ wireMembers members, (s.dtApplyAssign d).dtVirtNode (packI m.2) = m.1 ∧
          (s.dtApplyAssign d).dtNodeVirt m.1 = m.2) ∧
        (∀ inaddr : Bytes, inaddr.length = 4 → (∀ m ∈ wireMembers members, inaddr ≠ packI m.2) →
          (s.dtApplyAssign d).dtVirtNode inaddr = 0) ∧
        ∀ node, (∀ m ∈ wireMembers members, node ≠ m.1) →
          (s.dtApplyAssign d).dtNodeVirt node = 0) ∧
    ∀ p : Bytes, (p.length < DT_ASSIGN_HDR_N ∨ p.length ≠ DT_ASSIGN_HDR_N + 8 * dtGet16 p 9 ∨
        (p.getD 8 0).toNat = 0 ∨ 32 < (p.getD 8 0).toNat ∨ DT_MAXMEMB < dtGet16 p 9) →
      s.dtApplyAssign p = s := by
  refine ⟨fun my_virt net bits members d hd ok => ?_, fun p hp => ?_⟩
  · obtain rfl := Py.encode_assign_wire hd
    have hwire : ∀ m ∈ wireMembers members, m.1 < 4294967296 ∧ m.2 < 4294967296 := by
      intro m hm
      obtain ⟨x, -, rfl⟩ := List.mem_map.mp hm
      exact ⟨Nat.mod_lt _ (by decide), Nat.mod_lt _ (by decide)⟩
    have hP := s.dtApplyAssign_encode (a :=
      ⟨my_virt % 4294967296, net % 4294967296, bits % 256, wireMembers members⟩)
      ⟨Nat.mod_lt _ (by decide), Nat.mod_lt _ (by decide), ok.length, ok.few, hwire⟩
    exact ⟨fun m hm => ⟨virtNode_member ok hP hm, nodeVirt_member ok hP hm⟩,
      fun inaddr hlen hno => virtNode_other ok hP hlen hno,
      fun node hno => nodeVirt_other ok hP hno⟩
  · unfold dtApplyAssign
    rw [dtReadAssign_eq_none hp]

/-- a hook that has no lease yet -/
def unleased : Lease where
  policy :=
    { g_direct := false, g_lan_only := false, g_only_ports := [], g_node := 7, g_myvirt := 0
      g_members := [], g_vnetb := 0, g_vbits := 24, g_lips := [] }
  g_have_assign := false

/-- nodes 7 and 9 in 10.200.0.0/16; and the message without its last byte -/
theorem assign_two_way_pair : ∃ d,
    Py.encode_assign 0x0AC80002 0x0AC80000 16 [(7, 0x0AC80002), (9, 0x0AC80003)] = .ok d ∧
      (unleased.dtApplyAssign d).dtVirtNode (packI 0x0AC80003) = 9 ∧
      (unleased.dtApplyAssign d).dtNodeVirt 7 = 0x0AC80002 ∧
      unleased.dtApplyAssign d.dropLast = unleased := by
  have hms : wireMembers [(7, 0x0AC80002), (9, 0x0AC80003)] = [(7, 0x0AC80002), (9, 0x0AC80003)] :=
    rfl
  have ok : AssignOk (0x0AC80000 % 4294967296) (16 % 256)
      (wireMembers [(7, 0x0AC80002), (9, 0x0AC80003)]) := by
    rw [hms]
    exact ⟨by decide, by decide, by decide, by decide, by decide, by decide, by decide⟩
  refine ⟨_, rfl, ?_, ?_, (assign_two_way unleased).2 _ (Or.inr (Or.inl (by decide)))⟩
  · exact (((assign_two_way unleased).1 0x0AC80002 _ _ _ _ rfl ok).1 (9, 0x0AC80003) (by decide)).1
  · exact (((assign_two_way unleased).1 0x0AC80002 _ _ _ _ rfl ok).1 (7, 0x0AC80002) (by decide)).2

end Lease

end ShadowLan
