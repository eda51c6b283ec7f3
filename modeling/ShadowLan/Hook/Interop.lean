import ShadowLan.Hook.Demux
import ShadowLan.Hook.Frames
import ShadowLan.Relay.Addresses
import ShadowLan.Relay.Assign
import ShadowLan.Relay.Departure
import ShadowLan.Relay.Room

/-!
# One wire format

The hook and the relay each have their own code for the frames between them.

* `relayRead`, `RelayFrame.build`   the relay's side: its readers by type, and its writers;
* `relayRead_build`                 the relay reads what a hook says, whatever it says;
* `hookRead_build`                  and a hook what the relay says;
* `pdat_arrives`                    a P2P datagram comes out of the relay as the C2S it is;
* `assign_fits`                     no `T_ASSIGN` of the relay has more members than a hook takes.
-/

namespace ShadowLan

/-! ## the relay's side -/

/-- the readers of `handle_udp_payload` -/
def relayReadUdp (data : Bytes) : Option HookFrame :=
  if !udpHeaderOk data 4 then none
  else if udpOp data = U_NODE then (decodeUdpNode data).map .udpNode
  else if udpOp data = U_GAME_P2P then (decodePdat data).map fun r => .pdat r.1 r.2
  else if udpOp data = U_ICMP_REQ ∨ udpOp data = U_ICMP_REP then (decodeIcmp data).map .icmp
  else if udpOp data = U_GAME_S2C then (decodeUdpGame data).map .s2c
  else if udpOp data = U_GAME_C2S then (decodeUdpGame data).map .c2s
  else none

/-- the readers of `handle_peer`, of the two ends of a stream, and of the tunnel -/
def relayRead : Packet → Option HookFrame
  | .ctl type p =>
    if type = T_NODE then (decodeCtlNode p).map .node
    else if type = T_UDP_TUN then relayReadUdp p
    else if type = T_STSHUT then (stshutSid p).map .stshut
    else if type = T_BCAST then (bcastPorts p).map fun r => .bcast r.1 r.2.1 r.2.2
    else none
  | .stream type p =>
    if type = T_STOPEN then (decode_stopen p).map fun r => .stopen r.1 r.2.1 r.2.2.1 r.2.2.2
    else if type = T_STJOIN then (decode_stjoin p).map fun r => .stjoin r.1 r.2
    else if type = T_STJOINED then (decode_stsid p).map .stjoined
    else if type = T_STFAIL then (decode_stfail p).map fun r => .stfail r.1 r.2
    else none
  | .udp d => relayReadUdp d

def RelayFrame.build : RelayFrame → Packet
  | .assign a => .ctl T_ASSIGN (encode_assign a)
  | .bcast gport sport raw => .ctl T_BCAST (packH gport ++ packH sport ++ raw)
  | .bcastFrom nid gport sport raw => .ctl T_BCAST_FROM (encode_bcast_from nid gport sport raw)
  | .streq sid gport ovirt => .ctl T_STREQ (encode_streq sid gport ovirt)
  | .stok sid => .stream T_STOK (encode_stsid sid)
  | .stfail sid reason => .stream T_STFAIL (encode_stfail sid reason)
  | .c2s g => .udp (encodeUdpGame U_GAME_C2S g)
  | .s2c g => .udp (encodeUdpGame U_GAME_S2C g)
  | .icmp f => .udp (encodeIcmp f)

/-! ## values in range -/

structure IcmpFrame.Fits (f : IcmpFrame) : Prop where
  op : f.mtype = U_ICMP_REQ ∨ f.mtype = U_ICMP_REP
  src : f.src < 4294967296
  dest : f.dest < 4294967296
  iid : f.iid < 65536
  seq : f.seq < 65536

structure AssignFrame.Fits (a : AssignFrame) : Prop where
  my_virt : a.my_virt < 4294967296
  net : a.net < 4294967296
  bits : 1 ≤ a.bits ∧ a.bits ≤ 32
  few : a.members.length ≤ DT_MAXMEMB
  members : ∀ m ∈ a.members, m.1 < 4294967296 ∧ m.2 < 4294967296

def HookFrame.Fits : HookFrame → Prop
  | .node f | .udpNode f => f.Fits
  | .stopen nid dest sid gport =>
    nid < 4294967296 ∧ dest < 4294967296 ∧ sid < 4294967296 ∧ gport < 65536
  | .stjoin nid sid => nid < 4294967296 ∧ sid < 4294967296
  | .stjoined sid | .stshut sid => sid < 4294967296
  | .stfail sid reason => sid < 4294967296 ∧ reason < 256
  | .bcast gport sport _ => gport < 65536 ∧ sport < 65536
  | .pdat dest g => dest < 4294967296 ∧ g.Fits
  | .c2s g | .s2c g => g.Fits
  | .icmp f => f.Fits

def RelayFrame.Fits : RelayFrame → Prop
  | .assign a => a.Fits
  | .bcast gport sport _ => gport < 65536 ∧ sport < 65536
  | .bcastFrom nid gport sport _ => nid < 4294967296 ∧ gport < 65536 ∧ sport < 65536
  | .streq sid gport ovirt => sid < 4294967296 ∧ gport < 65536 ∧ ovirt < 4294967296
  | .stok sid => sid < 4294967296
  | .stfail sid reason => sid < 4294967296 ∧ reason < 256
  | .c2s g | .s2c g => g.Fits
  | .icmp f => f.Fits

/-! ## from the hook to the relay -/

theorem udpHeaderOk_cons (op : UInt8) (r : Bytes) {n : Nat} (h : n ≤ r.length + 4) :
    udpHeaderOk (UMAGIC ++ [UVER, op] ++ r) n = true := by
  have hlen : n ≤ (UMAGIC ++ [UVER, op] ++ r).length := h
  unfold udpHeaderOk
  rw [decide_eq_true hlen]
  rfl

def icmpBody (f : IcmpFrame) : Bytes :=
  packI f.src ++ (packI f.dest ++ (packH f.iid ++ (packH f.seq ++ f.data)))

theorem length_icmpBody (f : IcmpFrame) : 12 ≤ (icmpBody f).length := Nat.le_add_left 12 f.data.length

theorem encodeIcmp_eq (f : IcmpFrame) : encodeIcmp f = UMAGIC ++ [UVER, f.mtype] ++ icmpBody f := by
  simp only [encodeIcmp, icmpBody, List.append_assoc]

theorem encodePdat_eq (dest : Nat) (g : UdpGame) :
    encodePdat dest g = UMAGIC ++ [UVER, U_GAME_P2P] ++ (packI dest ++ gameBody g) :=
  List.append_assoc ..

theorem decodeIcmp_encode {f : IcmpFrame} (h : f.Fits) : decodeIcmp (encodeIcmp f) = some f := by
  obtain ⟨op, src, dest, iid, seq, data⟩ := f
  obtain ⟨hop, hs, hd, hi, hq⟩ := h
  have hok : udpHeaderOk (encodeIcmp ⟨op, src, dest, iid, seq, data⟩) 16 = true := by
    rw [encodeIcmp_eq]
    exact udpHeaderOk_cons op _ (Nat.add_le_add_right (length_icmpBody _) 4)
  have hops : (udpOp (encodeIcmp ⟨op, src, dest, iid, seq, data⟩) == U_ICMP_REQ
      || udpOp (encodeIcmp ⟨op, src, dest, iid, seq, data⟩) == U_ICMP_REP) = true := by
    rw [Bool.or_eq_true, beq_iff_eq, beq_iff_eq]
    exact hop
  have h1 : slice (encodeIcmp ⟨op, src, dest, iid, seq, data⟩) 4 8 = packI src := rfl
  have h2 : slice (encodeIcmp ⟨op, src, dest, iid, seq, data⟩) 8 12 = packI dest := rfl
  have h3 : slice (encodeIcmp ⟨op, src, dest, iid, seq, data⟩) 12 14 = packH iid := rfl
  have h4 : slice (encodeIcmp ⟨op, src, dest, iid, seq, data⟩) 14 16 = packH seq := rfl
  unfold decodeIcmp
  rw [hok, hops, Bool.and_self, if_pos rfl, h1, h2, h3, h4, unpackI_packI_lt hs, unpackI_packI_lt hd,
    unpackH_packH hi, unpackH_packH hq]
  rfl

theorem decode_stopen_build {nid dest sid gport : Nat} (hn : nid < 4294967296)
    (hd : dest < 4294967296) (hs : sid < 4294967296) (hg : gport < 65536) :
    decode_stopen (packI nid ++ packI dest ++ packI sid ++ packH gport)
      = some (nid, dest, sid, gport) := by
  have hlen : (packI nid ++ packI dest ++ packI sid ++ packH gport).length = STOPEN_N := rfl
  have h1 : slice (packI nid ++ packI dest ++ packI sid ++ packH gport) 0 4 = packI nid := rfl
  have h2 : slice (packI nid ++ packI dest ++ packI sid ++ packH gport) 4 8 = packI dest := rfl
  have h3 : slice (packI nid ++ packI dest ++ packI sid ++ packH gport) 8 12 = packI sid := rfl
  have h4 : slice (packI nid ++ packI dest ++ packI sid ++ packH gport) 12 14 = packH gport := rfl
  unfold decode_stopen
  rw [if_neg (not_not.mpr hlen), h1, h2, h3, h4, unpackI_packI_lt hn, unpackI_packI_lt hd,
    unpackI_packI_lt hs, unpackH_packH hg]
  rfl

theorem decode_stjoin_build {nid sid : Nat} (hn : nid < 4294967296) (hs : sid < 4294967296) :
    decode_stjoin (packI nid ++ packI sid) = some (nid, sid) := by
  have hlen : (packI nid ++ packI sid).length = STJOIN_N := rfl
  have h1 : slice (packI nid ++ packI sid) 0 4 = packI nid := rfl
  have h2 : slice (packI nid ++ packI sid) 4 8 = packI sid := rfl
  unfold decode_stjoin
  rw [if_neg (not_not.mpr hlen), h1, h2, unpackI_packI_lt hn, unpackI_packI_lt hs]
  rfl

theorem decode_stfail_build {sid reason : Nat} (hs : sid < 4294967296) (hr : reason < 256) :
    decode_stfail (packI sid ++ [UInt8.ofNat reason]) = some (sid, reason) := by
  have hlen : (packI sid ++ [UInt8.ofNat reason]).length = STFAIL_N := rfl
  have h1 : slice (packI sid ++ [UInt8.ofNat reason]) 0 4 = packI sid := rfl
  have h2 : (packI sid ++ [UInt8.ofNat reason]).getD 4 0 = UInt8.ofNat reason := rfl
  unfold decode_stfail
  rw [if_neg (not_not.mpr hlen), h1, h2, unpackI_packI_lt hs, toNat_ofNat_byte hr]
  rfl

theorem bcastPorts_build {gport sport : Nat} (hg : gport < 65536) (hs : sport < 65536)
    (raw : Bytes) : bcastPorts (packH gport ++ packH sport ++ raw) = some (gport, sport, raw) := by
  have hlen : 4 ≤ (packH gport ++ packH sport ++ raw).length := Nat.le_add_left 4 raw.length
  have h1 : slice (packH gport ++ packH sport ++ raw) 0 2 = packH gport := rfl
  have h2 : slice (packH gport ++ packH sport ++ raw) 2 4 = packH sport := rfl
  unfold bcastPorts
  rw [if_pos hlen, h1, h2, unpackH_packH hg, unpackH_packH hs]
  rfl

/-- the relay's dispatch by op, behind the test of the header -/
theorem relayReadUdp_cons {op : UInt8} {r : Bytes} :
    relayReadUdp (UMAGIC ++ [UVER, op] ++ r) =
      if op = U_NODE then (decodeUdpNode (UMAGIC ++ [UVER, op] ++ r)).map .udpNode
      else if op = U_GAME_P2P then
        (decodePdat (UMAGIC ++ [UVER, op] ++ r)).map fun r => .pdat r.1 r.2
      else if op = U_ICMP_REQ ∨ op = U_ICMP_REP then
        (decodeIcmp (UMAGIC ++ [UVER, op] ++ r)).map .icmp
      else if op = U_GAME_S2C then (decodeUdpGame (UMAGIC ++ [UVER, op] ++ r)).map .s2c
      else if op = U_GAME_C2S then (decodeUdpGame (UMAGIC ++ [UVER, op] ++ r)).map .c2s
      else none := by
  have hok := udpHeaderOk_cons op r (n := 4) (Nat.le_add_left 4 r.length)
  unfold relayReadUdp
  rw [hok]
  rfl

/-- **The relay reads what a hook says.** -/
theorem relayRead_build (f : HookFrame) (h : f.Fits) : relayRead f.build = some f := by
  cases f with
  | node f =>
    show (decodeNode (nodeBody f)).map HookFrame.node = _
    rw [decodeNode_body h]
    rfl
  | udpNode f =>
    have hlen : 10 ≤ (nodeBody f).length + 4 := by
      rw [length_nodeBody]
      omega
    have hok := udpHeaderOk_cons U_NODE (nodeBody f) hlen
    show relayReadUdp (UMAGIC ++ [UVER, U_NODE] ++ nodeBody f) = _
    rw [relayReadUdp_cons, if_pos rfl, decodeUdpNode, hok]
    show (decodeNode (nodeBody f)).map HookFrame.udpNode = _
    rw [decodeNode_body h]
    rfl
  | stopen nid dest sid gport =>
    obtain ⟨hn, hd, hs, hg⟩ := h
    show (decode_stopen (packI nid ++ packI dest ++ packI sid ++ packH gport)).map
      (fun r => HookFrame.stopen r.1 r.2.1 r.2.2.1 r.2.2.2) = _
    rw [decode_stopen_build hn hd hs hg]
    rfl
  | stjoin nid sid =>
    obtain ⟨hn, hs⟩ := h
    show (decode_stjoin (packI nid ++ packI sid)).map (fun r => HookFrame.stjoin r.1 r.2) = _
    rw [decode_stjoin_build hn hs]
    rfl
  | stjoined sid =>
    show (unpackI (packI sid)).map HookFrame.stjoined = _
    rw [unpackI_packI_lt h]
    rfl
  | stfail sid reason =>
    obtain ⟨hs, hr⟩ := h
    show (decode_stfail (packI sid ++ [UInt8.ofNat reason])).map
      (fun r => HookFrame.stfail r.1 r.2) = _
    rw [decode_stfail_build hs hr]
    rfl
  | stshut sid =>
    show (unpackI (packI sid)).map HookFrame.stshut = _
    rw [unpackI_packI_lt h]
    rfl
  | bcast gport sport raw =>
    obtain ⟨hg, hs⟩ := h
    show (bcastPorts (packH gport ++ packH sport ++ raw)).map
      (fun r => HookFrame.bcast r.1 r.2.1 r.2.2) = _
    rw [bcastPorts_build hg hs]
    rfl
  | pdat dest g =>
    obtain ⟨hd, hg⟩ := h
    show relayReadUdp (encodePdat dest g) = _
    have hdec := decodePdat_encode hg dest
    rw [encodePdat_eq] at hdec ⊢
    rw [relayReadUdp_cons, if_neg (by decide), if_pos rfl, hdec, Nat.mod_eq_of_lt hd]
    rfl
  | c2s g =>
    show relayReadUdp (encodeUdpGame U_GAME_C2S g) = _
    have hdec := decodeUdpGame_encode h U_GAME_C2S
    rw [encodeUdpGame_body] at hdec ⊢
    rw [relayReadUdp_cons, if_neg (by decide), if_neg (by decide), if_neg (by decide),
      if_neg (by decide), if_pos rfl, hdec]
    rfl
  | s2c g =>
    show relayReadUdp (encodeUdpGame U_GAME_S2C g) = _
    have hdec := decodeUdpGame_encode h U_GAME_S2C
    rw [encodeUdpGame_body] at hdec ⊢
    rw [relayReadUdp_cons, if_neg (by decide), if_neg (by decide), if_neg (by decide), if_pos rfl,
      hdec]
    rfl
  | icmp f =>
    show relayReadUdp (encodeIcmp f) = _
    have hdec := decodeIcmp_encode h
    have hnode : f.mtype ≠ U_NODE ∧ f.mtype ≠ U_GAME_P2P := by
      rcases IcmpFrame.Fits.op h with e | e
      · rw [e]
        decide
      · rw [e]
        decide
    rw [encodeIcmp_eq] at hdec ⊢
    rw [relayReadUdp_cons, if_neg hnode.1, if_neg hnode.2, if_pos (IcmpFrame.Fits.op h), hdec]
    rfl

/-! ## from the relay to the hook -/

/-- the hook's dispatch by op -/
theorem dtUdpIngress_cons {op : UInt8} {r : Bytes} (h : 6 ≤ r.length) :
    dtUdpIngress (UMAGIC ++ [UVER, op] ++ r) =
      if op = U_GAME_C2S then (dtGame (UMAGIC ++ [UVER, op] ++ r)).map .c2s
      else if op = U_ICMP_REQ ∨ op = U_ICMP_REP then
        if 16 ≤ r.length + 4 then
          some (.icmp ⟨op, dtGet32 r 0, dtGet32 r 4, dtGet16 r 8, dtGet16 r 10, r.drop 12⟩)
        else none
      else if op = U_GAME_S2C then (dtGame (UMAGIC ++ [UVER, op] ++ r)).map .s2c
      else none := by
  have hok := udpHeaderOk_cons op r (n := 10) (Nat.add_le_add_right h 4)
  unfold dtUdpIngress
  rw [hok]
  rfl

theorem dtUdpIngress_icmp {f : IcmpFrame} (h : f.Fits) : dtUdpIngress (encodeIcmp f) = some (.icmp f) := by
  have hlen := length_icmpBody f
  have hc2s : f.mtype ≠ U_GAME_C2S := by
    rcases h.op with e | e
    · rw [e]
      decide
    · rw [e]
      decide
  have h1 : dtGet32 (icmpBody f) 0 = f.src := dtGet32_packI h.src _
  have h2 : dtGet32 (icmpBody f) 4 = f.dest := dtGet32_at h.dest (packI f.src) _
  have h3 : dtGet16 (icmpBody f) 8 = f.iid := dtGet16_at h.iid (packI f.src ++ packI f.dest) _
  have h4 : dtGet16 (icmpBody f) 10 = f.seq :=
    dtGet16_at h.seq (packI f.src ++ packI f.dest ++ packH f.iid) _
  have h5 : (icmpBody f).drop 12 = f.data := rfl
  rw [encodeIcmp_eq, dtUdpIngress_cons (by omega), if_neg hc2s, if_pos h.op, if_pos (by omega), h1, h2,
    h3, h4, h5]

theorem dtUdpIngress_c2s {g : UdpGame} (h : g.Fits) :
    dtUdpIngress (encodeUdpGame U_GAME_C2S g) = some (.c2s g) := by
  have hread := dtGame_of_decode (decodeUdpGame_encode h U_GAME_C2S)
  rw [encodeUdpGame_body] at hread ⊢
  rw [dtUdpIngress_cons (length_gameBody g), if_pos rfl, hread]
  rfl

theorem dtUdpIngress_s2c {g : UdpGame} (h : g.Fits) :
    dtUdpIngress (encodeUdpGame U_GAME_S2C g) = some (.s2c g) := by
  have hread := dtGame_of_decode (decodeUdpGame_encode h U_GAME_S2C)
  rw [encodeUdpGame_body] at hread ⊢
  rw [dtUdpIngress_cons (length_gameBody g), if_neg (by decide), if_neg (by decide), if_pos rfl,
    hread]
  rfl

/-- the rows of the members, behind any other bytes -/
theorem members_read (ms : List (Nat × Nat)) (h : ∀ m ∈ ms, m.1 < 4294967296 ∧ m.2 < 4294967296)
    (a : Bytes) :
    (List.range ms.length).map (fun i =>
      (dtGet32 (a ++ ms.flatMap fun m => packI m.1 ++ packI m.2) (a.length + 8 * i),
        dtGet32 (a ++ ms.flatMap fun m => packI m.1 ++ packI m.2) (a.length + 4 + 8 * i))) = ms := by
  induction ms generalizing a with
  | nil => rfl
  | cons m ms ih =>
    obtain ⟨hn, hv⟩ := h m List.mem_cons_self
    have hrest := ih (fun m hm => h m (List.mem_cons_of_mem _ hm)) (a ++ (packI m.1 ++ packI m.2))
    have e : a ++ (m :: ms).flatMap (fun m => packI m.1 ++ packI m.2)
        = a ++ (packI m.1 ++ (packI m.2 ++ ms.flatMap fun m => packI m.1 ++ packI m.2)) := by
      rw [List.flatMap_cons, List.append_assoc]
    have h1 := dtGet32_at hn a (packI m.2 ++ ms.flatMap fun m => packI m.1 ++ packI m.2)
    have h2 := dtGet32_at hv (a ++ packI m.1) (ms.flatMap fun m => packI m.1 ++ packI m.2)
    have hlen : (a ++ packI m.1).length = a.length + 4 := List.length_append
    have hlen' : (a ++ (packI m.1 ++ packI m.2)).length = a.length + 8 := List.length_append
    rw [List.append_assoc, hlen] at h2
    rw [hlen', List.append_assoc, List.append_assoc] at hrest
    rw [List.length_cons, List.range_succ_eq_map, List.map_cons, List.map_map, e]
    refine congrArg₂ List.cons ?_ ?_
    · rw [Nat.mul_zero, Nat.add_zero, Nat.add_zero, h1, h2]
    · refine Eq.trans ?_ hrest
      apply List.map_congr_left
      intro i _
      show (dtGet32 _ (a.length + 8 * (i + 1)), dtGet32 _ (a.length + 4 + 8 * (i + 1))) = _
      rw [show a.length + 8 * (i + 1) = a.length + 8 + 8 * i by omega,
        show a.length + 4 + 8 * (i + 1) = a.length + 8 + 4 + 8 * i by omega]

theorem length_members (ms : List (Nat × Nat)) :
    (ms.flatMap fun m => packI m.1 ++ packI m.2).length = 8 * ms.length := by
  induction ms with
  | nil => rfl
  | cons m ms ih =>
    rw [List.flatMap_cons, List.length_append, ih, List.length_cons]
    show 8 + 8 * ms.length = _
    omega

theorem length_encode_assign (a : AssignFrame) :
    (encode_assign a).length = DT_ASSIGN_HDR_N + 8 * a.members.length := by
  unfold encode_assign
  rw [List.length_append, length_members]
  rfl

theorem dtReadAssign_encode {a : AssignFrame} (h : a.Fits) :
    dtReadAssign (encode_assign a) = some a := by
  obtain ⟨virt, net, bits, ms⟩ := a
  obtain ⟨hv, hn, ⟨hb1, hb32⟩, hf, hm⟩ := h
  have hb1 : 1 ≤ bits := hb1
  have hb32 : bits ≤ 32 := hb32
  have hf : ms.length ≤ 256 := hf
  have e : encode_assign ⟨virt, net, bits, ms⟩ = packI virt ++ packI net ++ [UInt8.ofNat bits]
      ++ packH ms.length ++ ms.flatMap fun m => packI m.1 ++ packI m.2 := rfl
  have hlen := length_encode_assign ⟨virt, net, bits, ms⟩
  have h1 : dtGet32 (encode_assign ⟨virt, net, bits, ms⟩) 0 = virt := dtGet32_packI hv _
  have h2 : dtGet32 (encode_assign ⟨virt, net, bits, ms⟩) 4 = net := dtGet32_at hn (packI virt) _
  have h3 : ((encode_assign ⟨virt, net, bits, ms⟩).getD 8 0).toNat = bits :=
    toNat_ofNat_byte (by omega)
  have h4 : dtGet16 (encode_assign ⟨virt, net, bits, ms⟩) 9 = ms.length :=
    dtGet16_at (show ms.length < 65536 by omega) (packI virt ++ packI net ++ [UInt8.ofNat bits]) _
  have h5 := members_read ms hm (packI virt ++ packI net ++ [UInt8.ofNat bits] ++ packH ms.length)
  rw [← e] at h5
  have hhdr : ¬ DT_ASSIGN_HDR_N + 8 * ms.length < DT_ASSIGN_HDR_N := not_lt.mpr (Nat.le_add_right _ _)
  have hrange : ¬ (bits = 0 ∨ 32 < bits ∨ DT_MAXMEMB < ms.length) := by
    have hmax : ¬ DT_MAXMEMB < ms.length := not_lt.mpr hf
    omega
  unfold dtReadAssign
  dsimp only
  rw [hlen, h1, h2, h3, h4, if_neg hhdr, if_neg hrange, if_neg (not_not.mpr rfl)]
  exact congrArg (fun l => some (AssignFrame.mk virt net bits l)) h5

/-- **The hook reads what the relay says.** -/
theorem hookRead_build (f : RelayFrame) (h : f.Fits) : hookRead f.build = some f := by
  cases f with
  | assign a =>
    have hlen : DT_ASSIGN_HDR_N ≤ (encode_assign a).length := by
      rw [length_encode_assign]
      exact Nat.le_add_right _ _
    show dtCtlDispatch (T_ASSIGN :: encode_assign a) = _
    rw [dtCtlDispatch_cons, if_neg (fun h => absurd h.1 (by decide)),
      if_neg (fun h => absurd h.1 (by decide)), if_pos ⟨rfl, hlen⟩, dtReadAssign_encode h]
    rfl
  | bcast gport sport raw =>
    obtain ⟨hg, hs⟩ := h
    have hlen : 4 ≤ (packH gport ++ packH sport ++ raw).length := Nat.le_add_left 4 raw.length
    have h1 : dtGet16 (packH gport ++ packH sport ++ raw) 0 = gport := dtGet16_packH hg _
    have h2 : dtGet16 (packH gport ++ packH sport ++ raw) 2 = sport := dtGet16_at hs (packH gport) _
    show dtCtlDispatch (T_BCAST :: (packH gport ++ packH sport ++ raw)) = _
    rw [dtCtlDispatch_cons, if_pos ⟨rfl, hlen⟩, h1, h2]
    rfl
  | bcastFrom nid gport sport raw =>
    obtain ⟨hn, hg, hs⟩ := h
    have hlen : 8 ≤ (encode_bcast_from nid gport sport raw).length := Nat.le_add_left 8 raw.length
    have h1 : dtGet32 (encode_bcast_from nid gport sport raw) 0 = nid := dtGet32_packI hn _
    have h2 : dtGet16 (encode_bcast_from nid gport sport raw) 4 = gport :=
      dtGet16_at hg (packI nid) _
    have h3 : dtGet16 (encode_bcast_from nid gport sport raw) 6 = sport :=
      dtGet16_at hs (packI nid ++ packH gport) _
    show dtCtlDispatch (T_BCAST_FROM :: encode_bcast_from nid gport sport raw) = _
    rw [dtCtlDispatch_cons, if_neg (fun h => absurd h.1 (by decide)), if_pos ⟨rfl, hlen⟩, h1, h2, h3]
    rfl
  | streq sid gport ovirt =>
    obtain ⟨hs, hg, ho⟩ := h
    have h1 : dtGet32 (encode_streq sid gport ovirt) 0 = sid := dtGet32_packI hs _
    have h2 : dtGet16 (encode_streq sid gport ovirt) 4 = gport := dtGet16_at hg (packI sid) _
    have h3 : dtGet32 (encode_streq sid gport ovirt) 6 = ovirt :=
      dtGet32_at ho (packI sid ++ packH gport) []
    show dtCtlDispatch (T_STREQ :: encode_streq sid gport ovirt) = _
    rw [dtCtlDispatch_cons, if_neg (fun h => absurd h.1 (by decide)),
      if_neg (fun h => absurd h.1 (by decide)), if_neg (fun h => absurd h.1 (by decide)),
      if_pos ⟨rfl, rfl⟩, h1, h2, h3]
  | stok sid =>
    have h1 : dtGet32 (encode_stsid sid) 0 = sid := dtGet32_packI h []
    show some (RelayFrame.stok (dtGet32 (encode_stsid sid) 0)) = _
    rw [h1]
  | stfail sid reason =>
    obtain ⟨hs, hr⟩ := h
    have h1 : dtGet32 (encode_stfail sid reason) 0 = sid := dtGet32_packI hs _
    show some (RelayFrame.stfail (dtGet32 (encode_stfail sid reason) 0)
      (UInt8.ofNat reason).toNat) = _
    rw [h1, toNat_ofNat_byte hr]
  | c2s g => exact dtUdpIngress_c2s h
  | s2c g => exact dtUdpIngress_s2c h
  | icmp f => exact dtUdpIngress_icmp h

/-! ## through the relay -/

/-- what the relay transmits, as it comes to a hook -/
def Out.packet : Out → Packet
  | .sendto data _ => .udp data
  | .tun _ data => .ctl T_UDP_TUN data

/-- the tunnel datagram that an event brings -/
def RelayAct.payload : RelayAct → Option Bytes
  | .tun _ d | .datagram d _ _ => some d
  | _ => none

namespace Relay
variable {s t : Relay}

theorem udpSendto_packet {data : Bytes} (hne : data ≠ []) {addr : Addr} {o : Out}
    (ho : o ∈ s.udpSendto data addr) : hookRead o.packet = hookRead (.udp data) := by
  have htun : hookRead (.ctl T_UDP_TUN data) = hookRead (.udp data) := hookRead_tun hne
  unfold udpSendto at ho
  cases addr with
  | tcp w =>
    dsimp only at ho
    split at ho
    · rw [List.mem_singleton.mp ho]
      exact htun
    · cases ho
  | udp ip port =>
    dsimp only at ho
    split at ho
    · rw [List.mem_singleton.mp ho]
      exact htun
    · rw [List.mem_singleton.mp ho]
      rfl

/-- **A P2P datagram arrives as a C2S**, with the fields that its sender put in. -/
theorem pdat_arrives {g : UdpGame} (hg : g.Fits) (dest : Nat) (addr : Addr) {o : Out}
    (ho : o ∈ (s.handleUdpPayload (encodePdat dest g) addr).2) :
    hookRead o.packet = some (.c2s g) := by
  have hok : udpHeaderOk (encodePdat dest g) 4 = true := by
    rw [encodePdat_eq]
    exact udpHeaderOk_cons U_GAME_P2P _ (Nat.le_add_left 4 _)
  have hp2p : s.handleUdpPayload (encodePdat dest g) addr = s.handleP2p (encodePdat dest g) addr := by
    unfold handleUdpPayload
    rw [hok, udpOp_encodePdat]
    rfl
  have hne : encodeUdpGame U_GAME_C2S g ≠ [] := by
    rw [encodeUdpGame_body]
    exact List.cons_ne_nil _ _
  rw [hp2p] at ho
  unfold handleP2p at ho
  rw [decodePdat_encode hg] at ho
  dsimp only at ho
  split at ho
  · cases ho
  · revert ho
    generalize (if s.targetsOf (dest % 4294967296) addr = [] then s.recordUdpProof addr else s) = u
    generalize (if s.targetsOf (dest % 4294967296) addr = [] then
      u.targetsOf (dest % 4294967296) addr else s.targetsOf (dest % 4294967296) addr) = taddrs
    intro ho
    split at ho
    · cases ho
    · obtain ⟨d, -, hd⟩ := List.mem_flatMap.mp ho
      rw [udpSendto_packet hne hd]
      exact dtUdpIngress_c2s hg

/-- on the UDP socket or out of a frame, in any state of the relay -/
theorem pdat_step {g : UdpGame} (hg : g.Fits) {dest : Nat} {a : RelayAct} {r : Relay × List Out}
    (ha : a.payload = some (encodePdat dest g)) (hr : s.step a = some r) :
    ∀ o ∈ r.2, hookRead o.packet = some (.c2s g) := by
  intro o ho
  cases a with
  | tun w d =>
    obtain ⟨ip, -, hr⟩ := Option.map_eq_some_iff.mp hr
    rw [← hr, Option.some.inj ha] at ho
    unfold tunFrame at ho
    cases hw : s.tunAddr w with
    | none =>
      rw [hw] at ho
      cases ho
    | some addr =>
      rw [hw] at ho
      exact pdat_arrives hg dest addr ho
  | datagram d ip port =>
    rw [← Option.some.inj hr, Option.some.inj ha] at ho
    exact pdat_arrives hg dest (.udp ip port) ho
  | _ => cases ha

/-! ## the members of the relay -/

/-- addresses and nodes are 32 bits wide -/
structure Narrow (s : Relay) : Prop where
  subnet : s.subnet_net < 4294967296
  node : ∀ n e, s.nodes.get? n = some e → n < 4294967296

theorem subnet_nodeFrame (s : Relay) (w : Writer) (ip : String) (payload : Bytes) :
    (s.nodeFrame w ip payload).subnet_net = s.subnet_net := by
  rcases nodeFrame_cases s w ip payload with ⟨-, heq⟩ | ⟨-, -, heq⟩ | ⟨f, -, -, -, heq⟩
  · rw [heq]
    exact teardown_subnet s w
  · rw [heq]
  · have hreg := (base_registerNode s w ip f).subnet
    rw [heq]
    split
    · exact hreg
    · exact (teardown_subnet _ w).trans hreg

/-- no event moves the subnet -/
theorem next_subnet {a : RelayAct} (hst : s.next a = some t) : t.subnet_net = s.subnet_net := by
  rcases next_cases hst with ⟨w, ip, -, -, -, rfl⟩ | ⟨w, ip, -, -, rfl⟩ | ⟨w, ip, p, -, -, rfl⟩ |
    ⟨w, ip, -, -, rfl⟩ | ⟨d, -, rfl⟩ | ⟨-, hs⟩
  · rfl
  · rfl
  · exact subnet_nodeFrame s w ip p
  · exact teardown_subnet s w
  · rfl
  · exact hs.subnet

theorem next_narrow {a : RelayAct} (h : Narrow s) (hst : s.next a = some t) : Narrow t := by
  have hnode : AllNodes (· < 4294967296) s := h.node
  exact ⟨(next_subnet hst).symm ▸ h.subnet, hnode.next hst fun _ _ hf _ => decodeCtlNode_node hf⟩

theorem narrow_init (token : Bytes) (allowed : List Nat) (net clock : Nat) :
    Narrow (init token allowed (subnetNet net) clock) :=
  ⟨lt_of_le_of_lt Nat.and_le_right (by decide), nofun⟩

/-- the addresses that the relay gives out are distinct and 32 bits wide -/
theorem members_few (hp : Placed s) (hn : Narrow s) :
    s.members.length ≤ DT_MAXMEMB ∧ ∀ m ∈ s.members, m.1 < 4294967296 ∧ m.2 < 4294967296 := by
  have hhost : ∀ v ∈ s.hosts, v < 4294967296 := by
    intro v hv
    obtain ⟨i, hi, rfl⟩ := List.mem_map.mp hv
    have hi := List.mem_range.mp hi
    exact Nat.or_lt_two_pow (n := 32) hn.subnet (show i + 2 < 4294967296 by omega)
  have hmem : ∀ m ∈ s.members, ∃ e, s.nodes.get? m.1 = some e ∧ e.virt = m.2 := by
    intro m hm
    obtain ⟨x, hx, rfl⟩ := List.mem_map.mp hm
    exact ⟨x.2, Dict.get?_eq_some.mpr (List.mem_of_mem_filter hx), rfl⟩
  have hnd : (s.members.map Prod.snd).Nodup := by
    have hkeys : (s.members.map Prod.fst).Nodup := by
      unfold members
      rw [List.map_map]
      exact (List.filter_sublist.map Prod.fst).nodup s.nodes.nodup
    refine List.Nodup.map_on ?_ (List.Nodup.of_map _ hkeys)
    intro m hm m' hm' hv
    obtain ⟨e, he, hev⟩ := hmem m hm
    obtain ⟨e', he', hev'⟩ := hmem m' hm'
    exact Prod.ext (hp.unique _ _ e e' he he' (hev.trans (hv.trans hev'.symm))) hv
  have hsub : s.members.map Prod.snd ⊆ s.hosts := by
    intro v hv
    obtain ⟨m, hm, rfl⟩ := List.mem_map.mp hv
    obtain ⟨e, he, hev⟩ := hmem m hm
    exact hev ▸ hp.host m.1 e he
  constructor
  · have hlen := (List.subperm_of_subset hnd hsub).length_le
    have hhosts : s.hosts.length = 253 := by simp [hosts]
    rw [List.length_map, hhosts] at hlen
    exact hlen.trans (by decide)
  · intro m hm
    obtain ⟨e, he, hev⟩ := hmem m hm
    exact ⟨hn.node m.1 e he, hev ▸ hhost e.virt (hp.host m.1 e he)⟩

/-- what a `T_ASSIGN` of the relay says -/
def assignFrame (s : Relay) (w : Writer) : AssignFrame := ⟨s.ownVirt w, s.subnet_net, 24, s.members⟩

theorem encodeAssign_eq (w : Writer) : encodeAssign (s.assign w) = encode_assign (s.assignFrame w) := by
  have hbits : (24 : UInt8) = UInt8.ofNat 24 := by decide
  unfold encodeAssign
  rw [hbits]
  rfl

/-- **A `T_ASSIGN` of the relay fits** the table of the hook. -/
theorem assign_fits {token : Bytes} {allowed : List Nat} {net clock : Nat}
    {tr : List (Relay × RelayAct)} (h : Path next (init token allowed (subnetNet net) clock) tr s)
    (w : Writer) : (s.assignFrame w).Fits := by
  have hp : Placed s := h.inv (placed_init token allowed net clock) fun _ _ _ hu => next_placed hu
  have hn : Narrow s := h.inv (narrow_init token allowed net clock) fun _ _ _ hu => next_narrow hu
  obtain ⟨hfew, hwide⟩ := members_few hp hn
  have hbits : 1 ≤ 24 ∧ 24 ≤ 32 := by decide
  refine ⟨?_, hn.subnet, hbits, hfew, hwide⟩
  show s.ownVirt w < 4294967296
  unfold ownVirt
  cases hw : (s.writer_node.get? w).bind s.nodes.get? with
  | none => decide
  | some e =>
    obtain ⟨n, -, hn'⟩ := Option.bind_eq_some_iff.mp hw
    obtain ⟨i, hi, hv⟩ := List.mem_map.mp (hp.host n e hn')
    have hi := List.mem_range.mp hi
    show e.virt < 4294967296
    rw [← hv]
    exact Nat.or_lt_two_pow (n := 32) hn.subnet (show i + 2 < 4294967296 by omega)

end Relay

/-! ## every frame -/

/-- the hook's tables hold what the relay says -/
theorem Policy.applyAssign_encode (P : Policy) {a : AssignFrame} (h : a.Fits) :
    P.applyAssign (encode_assign a) =
      { P with
        g_myvirt := a.my_virt
        g_vnetb := a.net
        g_vbits := a.bits
        g_members := a.members.map fun m => ⟨m.1, m.2⟩ } := by
  unfold applyAssign
  rw [dtReadAssign_encode h]

/-- the verdict of the stream thread on the relay's answers -/
theorem verdict_build (st : DtStream) {sid reason : Nat} (hs : sid < 4294967296) (hr : reason < 256) :
    st.verdict sid T_STOK.toNat (encode_stsid sid) = { st with state := .opened, everOpen := true } ∧
    st.verdict sid T_STFAIL.toNat (encode_stfail sid reason) =
      { st with state := .dead, fail := reason } := by
  have hok : dtStreamFrame T_STOK (encode_stsid sid) = some (.stok sid) :=
    hookRead_build (.stok sid) hs
  have hfail : dtStreamFrame T_STFAIL (encode_stfail sid reason) = some (.stfail sid reason) :=
    hookRead_build (.stfail sid reason) ⟨hs, hr⟩
  have hreason : ((encode_stfail sid reason).getD 4 0).toNat = reason := toNat_ofNat_byte hr
  constructor
  · unfold DtStream.verdict
    rw [if_pos (isStok_iff.mpr hok)]
  · have hno : ¬ DtStream.isStok sid T_STFAIL.toNat (encode_stfail sid reason) = true := by
      intro h
      rw [isStok_iff, hfail] at h
      cases Option.some.inj h
    have hyes : DtStream.isStfail sid T_STFAIL.toNat (encode_stfail sid reason) = true := by
      rw [isStfail_iff, hfail, hreason]
    unfold DtStream.verdict
    rw [if_neg hno, if_pos hyes, hreason]

/-- **One wire format.**  The relay reads every frame of a hook as what was put in, and a hook every
frame of the relay; its verdict on a stream and its table of members are the relay's.  A P2P datagram
that the relay passes on, in whatever state, is a C2S with the same ports, address and payload. -/
theorem one_wire_format :
    (∀ f : HookFrame, f.Fits → relayRead f.build = some f) ∧
    (∀ f : RelayFrame, f.Fits → hookRead f.build = some f) ∧
    (∀ (st : DtStream) sid reason, sid < 4294967296 → reason < 256 →
      st.verdict sid T_STOK.toNat (encode_stsid sid)
          = { st with state := .opened, everOpen := true } ∧
        st.verdict sid T_STFAIL.toNat (encode_stfail sid reason)
          = { st with state := .dead, fail := reason }) ∧
    (∀ token allowed net clock tr s, Path Relay.next (.init token allowed (subnetNet net) clock) tr s →
      ∀ (w : Writer) (P : Policy),
        hookRead (.ctl T_ASSIGN (encodeAssign (s.assign w))) = some (.assign (s.assignFrame w)) ∧
        P.applyAssign (encodeAssign (s.assign w)) =
          { P with
            g_myvirt := s.ownVirt w
            g_vnetb := s.subnet_net
            g_vbits := 24
            g_members := s.members.map fun m => ⟨m.1, m.2⟩ }) ∧
    (∀ (g : UdpGame) dest, g.Fits → ∀ (s : Relay) a r, s.step a = some r →
      a.payload = some (encodePdat dest g) → ∀ o ∈ r.2, hookRead o.packet = some (.c2s g)) := by
  refine ⟨relayRead_build, hookRead_build, fun st sid reason hs hr => verdict_build st hs hr, ?_, ?_⟩
  · intro token allowed net clock tr s h w P
    have hfits := Relay.assign_fits h w
    rw [Relay.encodeAssign_eq]
    exact ⟨hookRead_build (.assign (s.assignFrame w)) hfits, P.applyAssign_encode hfits⟩
  · intro g dest hg s a r hr ha
    exact Relay.pdat_step hg ha hr

/-- nodes 1, 2 and 3 are on the relay; node 2 asks node 3 for its game -/
theorem one_wire_format_asked : ∃ tr s r,
    Path Relay.next (.init [] [] (subnetNet 0) 0) tr s ∧
    s.step (.datagram (UdpHook.askedFrame 3) "10.0.0.8" 6000) = some r ∧
    r.2 = [.sendto (encodeUdpGame U_GAME_C2S ⟨UdpHook.askedTriple, [7]⟩) UdpHook.thirdAddr] ∧
    (∀ o ∈ r.2, hookRead o.packet = some (.c2s ⟨UdpHook.askedTriple, [7]⟩)) ∧
    hookRead (.ctl T_ASSIGN (encodeAssign (s.assign 1))) = some (.assign (s.assignFrame 1)) ∧
    relayRead (HookFrame.node ⟨[0x74], 2, 40000, 1⟩).build = some (.node ⟨[0x74], 2, 40000, 1⟩) ∧
    hookRead (RelayFrame.streq 9 27015 3).build = some (.streq 9 27015 3) ∧
    (DtStream.zero.verdict 9 T_STFAIL.toNat (encode_stfail 9 5)).fail = 5 := by
  obtain ⟨hrelay, hhook, hverdict, hassign, hpdat⟩ := one_wire_format
  have hrun : (run Relay.next (.init [] [] 0 0) (UdpHook.relayed [])).isSome = true := by
    decide
  obtain ⟨s, hs⟩ := Option.isSome_iff_exists.mp hrun
  have hout : ∀ s ∈ run Relay.next (.init [] [] 0 0) (UdpHook.relayed []),
      (s.step (.datagram (UdpHook.askedFrame 3) "10.0.0.8" 6000)).map Prod.snd
        = some [.sendto (encodeUdpGame U_GAME_C2S ⟨UdpHook.askedTriple, [7]⟩) UdpHook.thirdAddr] := by
    decide
  obtain ⟨r, hr, hsent⟩ := Option.map_eq_some_iff.mp (hout s hs)
  have hfits : UdpGame.Fits ⟨UdpHook.askedTriple, [7]⟩ :=
    ⟨by decide, by decide, by decide, isUtf8_dotted _⟩
  refine ⟨_, s, r, path_run hs, hr, hsent, hpdat _ 3 hfits s _ r hr rfl,
    (hassign [] [] 0 0 _ s (path_run hs) 1 ⟨true, true, [], 2, 0, [], 0, 0, []⟩).1,
    hrelay (.node ⟨[0x74], 2, 40000, 1⟩) ⟨by decide, by decide, by decide, by decide⟩,
    hhook (.streq 9 27015 3) ⟨by decide, by decide, by decide⟩, ?_⟩
  rw [(hverdict DtStream.zero 9 5 (by decide) (by decide)).2]

end ShadowLan
