import ShadowLan.Hook.Control
import ShadowLan.Hook.Policy
import ShadowLan.Hook.Slot

/-!
# What the hook writes and reads

All frames between a hook and the relay, by what they say.  The hook's frames are built with
`dt_put16` and `dt_put32` where the program needs them; what it reads, it picks out of the bytes at
fixed offsets.

* `HookFrame.build`    the bytes of a frame that the hook sends;
* `dtCtlDispatch`, `dtUdpIngress`, `dtStreamFrame`   what it makes of a frame that it gets;
* `dtReadAssign`, `Policy.applyAssign`               the new members.
-/

namespace ShadowLan

def DT_ASSIGN : UInt8 := 0x02
def DT_BCAST_FROM : UInt8 := 0x04
def DT_STOPEN : UInt8 := 0x07
def DT_STREQ : UInt8 := 0x08
def DT_STJOIN : UInt8 := 0x09
def DT_STJOINED : UInt8 := 0x0A

def DT_ASSIGN_HDR_N : Nat := 11
def DT_STREQ_N : Nat := 10
def DT_MAXMEMB : Nat := 256

/-- on a control connection, on a per-stream connection, and on the UDP tunnel -/
inductive Packet where
  | ctl (type : UInt8) (p : Bytes)
  | stream (type : UInt8) (p : Bytes)
  | udp (d : Bytes)
  deriving DecidableEq

/-- a frame from a hook -/
inductive HookFrame where
  /-- `dt_send_node` and `dt_send_udp_node` -/
  | node (f : NodeFrame)
  | udpNode (f : NodeFrame)
  /-- the first frame of the opener's connection, and of the joiner's -/
  | stopen (nid dest sid gport : Nat)
  | stjoin (nid sid : Nat)
  | stjoined (sid : Nat)
  | stfail (sid reason : Nat)
  | stshut (sid : Nat)
  | bcast (gport sport : Nat) (raw : Bytes)
  | pdat (dest : Nat) (g : UdpGame)
  | c2s (g : UdpGame)
  | s2c (g : UdpGame)
  | icmp (f : IcmpFrame)
  deriving DecidableEq

/-- a frame from the relay -/
inductive RelayFrame where
  | assign (a : AssignFrame)
  | bcast (gport sport : Nat) (raw : Bytes)
  | bcastFrom (nid gport sport : Nat) (raw : Bytes)
  | streq (sid gport ovirt : Nat)
  | stok (sid : Nat)
  | stfail (sid reason : Nat)
  | c2s (g : UdpGame)
  | s2c (g : UdpGame)
  | icmp (f : IcmpFrame)
  deriving DecidableEq

def HookFrame.build : HookFrame → Packet
  | .node f => .ctl DT_NODE (PVER :: nodeBody f)
  | .udpNode f => .udp (UMAGIC ++ [UVER, U_NODE] ++ nodeBody f)
  | .stopen nid dest sid gport =>
    .stream DT_STOPEN (packI nid ++ packI dest ++ packI sid ++ packH gport)
  | .stjoin nid sid => .stream DT_STJOIN (packI nid ++ packI sid)
  | .stjoined sid => .stream DT_STJOINED (packI sid)
  | .stfail sid reason => .stream (UInt8.ofNat DT_STFAIL) (packI sid ++ [UInt8.ofNat reason])
  | .stshut sid => .ctl DT_STSHUT (packI sid)
  | .bcast gport sport raw => .ctl DT_BCAST (packH gport ++ packH sport ++ raw)
  | .pdat dest g => .udp (encodePdat dest g)
  | .c2s g => .udp (encodeUdpGame U_GAME_C2S g)
  | .s2c g => .udp (encodeUdpGame U_GAME_S2C g)
  | .icmp f => .udp (encodeIcmp f)

/-! ## reading -/

/-- the frame that `dt_apply_assign` accepts, without the type byte -/
def dtReadAssign (p : Bytes) : Option AssignFrame :=
  let bits := (p.getD 8 0).toNat
  let cnt := dtGet16 p 9
  if p.length < DT_ASSIGN_HDR_N then none
  else if bits = 0 ∨ 32 < bits ∨ DT_MAXMEMB < cnt then none
  else if p.length ≠ DT_ASSIGN_HDR_N + 8 * cnt then none
  else some ⟨dtGet32 p 0, dtGet32 p 4, bits, (List.range cnt).map fun i =>
    (dtGet32 p (DT_ASSIGN_HDR_N + 8 * i), dtGet32 p (DT_ASSIGN_HDR_N + 4 + 8 * i))⟩

/-- `dt_apply_assign` -/
def Policy.applyAssign (P : Policy) (p : Bytes) : Policy :=
  match dtReadAssign p with
  | some a =>
    { P with
      g_myvirt := a.my_virt
      g_vnetb := a.net
      g_vbits := a.bits
      g_members := a.members.map fun m => ⟨m.1, m.2⟩ }
  | none => P

/-- what `dt_udp_ingress` hands on -/
def dtUdpIngress (b : Bytes) : Option RelayFrame :=
  if ¬ udpHeaderOk b 10 then none
  else if udpOp b = U_GAME_C2S then (dtGame b).map .c2s
  else if udpOp b = U_ICMP_REQ ∨ udpOp b = U_ICMP_REP then
    if 16 ≤ b.length then
      some (.icmp ⟨udpOp b, dtGet32 b 4, dtGet32 b 8, dtGet16 b 12, dtGet16 b 14, b.drop 16⟩)
    else none
  else if udpOp b = U_GAME_S2C then (dtGame b).map .s2c
  else none

/-- `dt_ctl_dispatch`, of a frame with its type byte -/
def dtCtlDispatch (pl : Bytes) : Option RelayFrame :=
  let t := pl.getD 0 0
  if t = DT_BCAST ∧ 5 ≤ pl.length then
    some (.bcast (dtGet16 pl 1) (dtGet16 pl 3) (pl.drop 5))
  else if t = DT_BCAST_FROM ∧ 9 ≤ pl.length then
    some (.bcastFrom (dtGet32 pl 1) (dtGet16 pl 5) (dtGet16 pl 7) (pl.drop 9))
  else if t = DT_ASSIGN ∧ 1 + DT_ASSIGN_HDR_N ≤ pl.length then
    (dtReadAssign (pl.drop 1)).map .assign
  else if t = DT_STREQ ∧ pl.length = 1 + DT_STREQ_N then
    some (.streq (dtGet32 pl 1) (dtGet16 pl 5) (dtGet32 pl 7))
  else if t = DT_UDP_TUN ∧ 2 ≤ pl.length then dtUdpIngress (pl.drop 1)
  else none

/-- what a stream thread makes of the answer on its connection, up to the test of the sid -/
def dtStreamFrame (type : UInt8) (rp : Bytes) : Option RelayFrame :=
  if type.toNat = DT_STOK ∧ DT_STSID_N ≤ rp.length then some (.stok (dtGet32 rp 0))
  else if type.toNat = DT_STFAIL ∧ DT_STFAIL_N ≤ rp.length then
    some (.stfail (dtGet32 rp 0) (rp.getD 4 0).toNat)
  else none

def hookRead : Packet → Option RelayFrame
  | .ctl type p => dtCtlDispatch (type :: p)
  | .stream type p => dtStreamFrame type p
  | .udp d => dtUdpIngress d

/-- the hook's dispatch by type, counted from the payload -/
theorem dtCtlDispatch_cons (t : UInt8) (p : Bytes) : dtCtlDispatch (t :: p) =
    if t = DT_BCAST ∧ 4 ≤ p.length then some (.bcast (dtGet16 p 0) (dtGet16 p 2) (p.drop 4))
    else if t = DT_BCAST_FROM ∧ 8 ≤ p.length then
      some (.bcastFrom (dtGet32 p 0) (dtGet16 p 4) (dtGet16 p 6) (p.drop 8))
    else if t = DT_ASSIGN ∧ DT_ASSIGN_HDR_N ≤ p.length then (dtReadAssign p).map .assign
    else if t = DT_STREQ ∧ p.length = DT_STREQ_N then
      some (.streq (dtGet32 p 0) (dtGet16 p 4) (dtGet32 p 6))
    else if t = DT_UDP_TUN ∧ 1 ≤ p.length then dtUdpIngress p
    else none := by
  have h5 : 5 ≤ (t :: p).length ↔ 4 ≤ p.length := Nat.succ_le_succ_iff
  have h9 : 9 ≤ (t :: p).length ↔ 8 ≤ p.length := Nat.succ_le_succ_iff
  have h12 : 1 + DT_ASSIGN_HDR_N ≤ (t :: p).length ↔ DT_ASSIGN_HDR_N ≤ p.length := by
    rw [Nat.add_comm]
    exact Nat.succ_le_succ_iff
  have h11 : (t :: p).length = 1 + DT_STREQ_N ↔ p.length = DT_STREQ_N := by
    rw [Nat.add_comm]
    exact Nat.succ_inj
  have h2 : 2 ≤ (t :: p).length ↔ 1 ≤ p.length := Nat.succ_le_succ_iff
  unfold dtCtlDispatch
  simp only [h5, h9, h12, h11, h2]
  rfl

/-- a tunnel datagram reads the same in a frame of the control connection -/
theorem hookRead_tun {d : Bytes} (h : d ≠ []) : hookRead (.ctl DT_UDP_TUN d) = hookRead (.udp d) := by
  show dtCtlDispatch (DT_UDP_TUN :: d) = dtUdpIngress d
  rw [dtCtlDispatch_cons, if_neg (fun h => absurd h.1 (by decide)),
    if_neg (fun h => absurd h.1 (by decide)), if_neg (fun h => absurd h.1 (by decide)),
    if_neg (fun h => absurd h.1 (by decide)), if_pos ⟨rfl, List.length_pos_iff.mpr h⟩]

/-! ## the readings in the models of the parts -/

theorem get32_eq {rp : Bytes} (h : 4 ≤ rp.length) : DtStream.get32 rp = dtGet32 rp 0 := by
  match rp, h with
  | a :: b :: c :: d :: r, _ =>
    show a.toNat * 2 ^ 24 + b.toNat * 2 ^ 16 + c.toNat * 2 ^ 8 + d.toNat
      = (a.toNat * 256 + b.toNat) * 65536 + (c.toNat * 256 + d.toNat)
    omega

/-- the stream `sid` is confirmed by its `T_STOK` -/
theorem isStok_iff {sid : Nat} {type : UInt8} {rp : Bytes} :
    DtStream.isStok sid type.toNat rp = true ↔ dtStreamFrame type rp = some (.stok sid) := by
  unfold DtStream.isStok dtStreamFrame
  rw [Bool.and_eq_true, Bool.and_eq_true, beq_iff_eq, beq_iff_eq, decide_eq_true_iff]
  constructor
  · rintro ⟨⟨ht, hl⟩, hs⟩
    rw [if_pos ⟨ht, hl⟩, ← get32_eq hl, hs]
  · intro h
    by_cases hc : type.toNat = DT_STOK ∧ DT_STSID_N ≤ rp.length
    · rw [if_pos hc] at h
      rw [get32_eq hc.2]
      exact ⟨hc, RelayFrame.stok.inj (Option.some.inj h)⟩
    · rw [if_neg hc] at h
      obtain ⟨-, h⟩ := Option.ite_none_right_eq_some.mp h
      cases Option.some.inj h

/-- and refused by its `T_STFAIL`, with the reason that the verdict notes -/
theorem isStfail_iff {sid : Nat} {type : UInt8} {rp : Bytes} :
    DtStream.isStfail sid type.toNat rp = true ↔
      dtStreamFrame type rp = some (.stfail sid (rp.getD 4 0).toNat) := by
  unfold DtStream.isStfail dtStreamFrame
  rw [Bool.and_eq_true, Bool.and_eq_true, beq_iff_eq, beq_iff_eq, decide_eq_true_iff]
  constructor
  · rintro ⟨⟨ht, hl⟩, hs⟩
    have hne : ¬ (type.toNat = DT_STOK ∧ DT_STSID_N ≤ rp.length) := by
      rintro ⟨hk, -⟩
      rw [ht] at hk
      exact absurd hk (by decide)
    have h4 : 4 ≤ rp.length := Nat.le_of_succ_le hl
    rw [if_neg hne, if_pos ⟨ht, hl⟩, ← get32_eq h4, hs]
  · intro h
    by_cases hc : type.toNat = DT_STOK ∧ DT_STSID_N ≤ rp.length
    · rw [if_pos hc] at h
      cases Option.some.inj h
    · rw [if_neg hc] at h
      obtain ⟨hf, h⟩ := Option.ite_none_right_eq_some.mp h
      have h4 : 4 ≤ rp.length := Nat.le_of_succ_le hf.2
      rw [get32_eq h4]
      exact ⟨hf, (RelayFrame.stfail.inj (Option.some.inj h)).1⟩

end ShadowLan
