import ShadowLan.Relay.Departure
import ShadowLan.Wire.Frames
import ShadowLan.Wire.Py

/-!
# The codecs of `common.py`

Every encoder and decoder with what it can raise.  A decoder returns `none` where the source
returns `None`; a tuple of numbers ends in `()`.

* `datagram`             the head that the decoders of UDP datagrams share;
* `decodeFixed`          the decoders of a payload of one fixed format;
* `encode_x`, `decode_x` for each kind of message;
* `Kind`                 the kinds, with the values that a message of the kind has;
* `Kind.Fit`             the numbers are in the ranges of their fields;
* `Kind.Sized`           the string has a UTF-8 form, and what is counted in 16 bits is not too long.
-/

namespace ShadowLan

def STREQ_N : Nat := 10
def ASSIGN_HDR_N : Nat := 11

namespace Py

section
variable {α : Type}

/-! ## shared by several kinds -/

/-- `len(data) < n or data[:2] != UMAGIC or data[2] != UVER` -/
def badHeader (data : Bytes) (n : Nat) : Py Bool :=
  if data.length < n ∨ slice data 0 2 ≠ UMAGIC then .ok true
  else do
    let ver ← item data 2
    return ver ≠ UVER.toNat

/-- a datagram of at least `n` bytes whose op, `data[3]`, is one of those that `ops` accepts -/
def datagram (n : Nat) (ops : Nat → Bool) (body : Nat → Py (Option α)) (data : Bytes) :
    Py (Option α) := do
  if ← badHeader data n then return none
  else
    let op ← item data 3
    if ops op then body op else return none

/-- `UMAGIC + bytes([UVER, op])` -/
def encodeHead (op : Nat) : Py Bytes := do
  let b ← bytesOf [UVER.toNat, op]
  return UMAGIC ++ b

/-- `!HH game_port iplen`, the text, `!H cli_port` and the rest, from offset `o` on -/
def decodeTriple (data : Bytes) (o : Nat) : Py (Nat × Str × Nat × Bytes) := do
  let (game_port, iplen, ()) ← structUnpack [H, H] (slice data o (o + 4))
  let ip ← decodeStr (slice data (o + 4) (o + 4 + iplen))
  let (cport, ()) ← structUnpack [H] (slice data (o + 4 + iplen) (o + 6 + iplen))
  return (game_port, ip, cport, data.drop (o + 6 + iplen))

def encodeTriple (game_port : Nat) (ipb : Bytes) (cli_port : Nat) (raw : Bytes) : Py Bytes := do
  let a ← structPack [H, H] (game_port, ipb.length, ())
  let b ← structPack [H] (cli_port, ())
  return a ++ ipb ++ b ++ raw

/-- a payload of exactly `n` bytes -/
def decodeFixed (n : Nat) (ws : List Nat) (payload : Bytes) : Py (Option (Vals ws)) :=
  tryExcept [.struct] do
    if payload.length ≠ n then return none
    else
      let vs ← structUnpack ws payload
      return some vs

end

/-! ## game datagrams -/

def encode_udp_game (mtype game_port : Nat) (cli_ip : Str) (cli_port : Nat) (raw : Bytes) :
    Py Bytes := do
  let ipb ← encodeStr cli_ip
  let h ← encodeHead mtype
  let t ← encodeTriple game_port ipb cli_port raw
  return h ++ t

def decode_udp_game (data : Bytes) : Py (Option (Nat × Nat × Str × Nat × Bytes)) :=
  datagram 6 (fun _ => true) (fun mtype =>
    tryExcept [.struct, .unicode, .index] do
      let (game_port, ip, cport, raw) ← decodeTriple data 4
      return some (mtype, game_port, ip, cport, raw)) data

def encode_pdat (dest_node game_port : Nat) (cli_ip : Str) (cli_port : Nat) (raw : Bytes) :
    Py Bytes := do
  let ipb ← encodeStr cli_ip
  let h ← encodeHead U_GAME_P2P.toNat
  let dest ← packMasked [I] (dest_node, ())
  let t ← encodeTriple game_port ipb cli_port raw
  return h ++ dest ++ t

def decode_pdat (data : Bytes) : Py (Option (Nat × Nat × Str × Nat × Bytes)) :=
  datagram 10 (fun op => op = U_GAME_P2P.toNat) (fun _ =>
    tryExcept [.struct, .unicode, .index] do
      let (dest, ()) ← structUnpack [I] (slice data 4 8)
      let (game_port, ip, cport, raw) ← decodeTriple data 8
      return some (dest, game_port, ip, cport, raw)) data

/-! ## registration -/

def encode_node (token : Bytes) (node udp_port flags : Nat) : Py Bytes := do
  let n ← structPack [H] (token.length, ())
  let f ← packMasked [I, H, B] (node, udp_port, flags, ())
  return n ++ token ++ f

def decode_node (payload : Bytes) : Py (Option (Bytes × Nat × Nat × Nat)) :=
  tryExcept [.struct] do
    if payload.length < 2 then return none
    else
      let (n, ()) ← structUnpack [H] (slice payload 0 2)
      if payload.length ≠ 2 + n + 7 then return none
      else
        let (node, uport, flags, ()) ← structUnpack [I, H, B] (slice payload (2 + n) (9 + n))
        return some (slice payload 2 (2 + n), node, uport, flags)

def encode_ctl_node (token : Bytes) (node udp_port flags : Nat) : Py Bytes := do
  let v ← bytesOf [PVER.toNat]
  let f ← encode_node token node udp_port flags
  return v ++ f

def decode_ctl_node (payload : Bytes) : Py (Option (Bytes × Nat × Nat × Nat)) :=
  if ctlVer payload = PVER then decode_node (payload.drop 1) else return none

def encode_udp_node (token : Bytes) (node udp_port flags : Nat) : Py Bytes := do
  let h ← encodeHead U_NODE.toNat
  let f ← encode_node token node udp_port flags
  return h ++ f

def decode_udp_node (data : Bytes) : Py (Option (Bytes × Nat × Nat × Nat)) :=
  datagram 10 (fun op => op = U_NODE.toNat) (fun _ => decode_node (data.drop 4)) data

/-! ## the assignment -/

def encode_assign (my_virt net bits : Nat) (members : List (Nat × Nat)) : Py Bytes := do
  let hdr ← structPack [I, I, B, H]
    (my_virt % 2 ^ 32, net % 2 ^ 32, bits % 2 ^ 8, members.length, ())
  let rows ← members.mapM fun m => packMasked [I, I] (m.1, m.2, ())
  return hdr ++ rows.flatten

/-- the row at offset `o` -/
def decodeRow (payload : Bytes) (o : Nat) : Py (Nat × Nat) := do
  let (node, virt, ()) ← structUnpack [I, I] (slice payload o (o + 8))
  return (node, virt)

def decode_assign (payload : Bytes) : Py (Option (Nat × Nat × Nat × List (Nat × Nat))) :=
  tryExcept [.struct] do
    if payload.length < ASSIGN_HDR_N then return none
    else
      let (my_virt, net, bits, n, ()) ← structUnpack [I, I, B, H] (slice payload 0 ASSIGN_HDR_N)
      if payload.length ≠ ASSIGN_HDR_N + 8 * n then return none
      else
        let members ← (List.range n).mapM fun i => decodeRow payload (ASSIGN_HDR_N + 8 * i)
        return some (my_virt, net, bits, members)

/-! ## per-stream ops -/

def encode_stopen (node dest_node sid gport : Nat) : Py Bytes :=
  packMasked [I, I, I, H] (node, dest_node, sid, gport, ())

def decode_stopen : Bytes → Py (Option (Vals [I, I, I, H])) := decodeFixed STOPEN_N [I, I, I, H]

def encode_streq (sid gport ovirt : Nat) : Py Bytes := packMasked [I, H, I] (sid, gport, ovirt, ())

def decode_streq : Bytes → Py (Option (Vals [I, H, I])) := decodeFixed STREQ_N [I, H, I]

def encode_stjoin (node sid : Nat) : Py Bytes := packMasked [I, I] (node, sid, ())

def decode_stjoin : Bytes → Py (Option (Vals [I, I])) := decodeFixed STJOIN_N [I, I]

def encode_stsid (sid : Nat) : Py Bytes := packMasked [I] (sid, ())

/-- the one field, out of its tuple -/
def decode_stsid (payload : Bytes) : Py (Option Nat) :=
  (decodeFixed STSID_N [I] payload).map fun o => o.map Prod.fst

def encode_stfail (sid reason : Nat) : Py Bytes := packMasked [I, B] (sid, reason, ())

def decode_stfail : Bytes → Py (Option (Vals [I, B])) := decodeFixed STFAIL_N [I, B]

/-! ## ICMP and beacons -/

def encode_icmp (mtype src_node dest_node icmp_id icmp_seq : Nat) (data : Bytes) : Py Bytes := do
  let h ← encodeHead mtype
  let f ← packMasked [I, I, H, H] (src_node, dest_node, icmp_id, icmp_seq, ())
  return h ++ f ++ data

def decode_icmp (data : Bytes) : Py (Option (Nat × Nat × Nat × Nat × Nat × Bytes)) :=
  datagram 16 (fun op => op = U_ICMP_REQ.toNat ∨ op = U_ICMP_REP.toNat) (fun op =>
    tryExcept [.struct] do
      let (src, dest, iid, seq, ()) ← structUnpack [I, I, H, H] (slice data 4 16)
      return some (op, src, dest, iid, seq, data.drop 16)) data

def encode_bcast_from (node disc_port src_port : Nat) (raw : Bytes) : Py Bytes := do
  let f ← packMasked [I, H, H] (node, disc_port, src_port, ())
  return f ++ raw

def decode_bcast_from (payload : Bytes) : Py (Option (Nat × Nat × Nat × Bytes)) :=
  tryExcept [.struct] do
    if payload.length < 8 then return none
    else
      let (node, dport, sport, ()) ← structUnpack [I, H, H] (slice payload 0 8)
      return some (node, dport, sport, payload.drop 8)

/-! ## the kinds of message -/

inductive Kind where
  | udp_game
  | pdat
  | node
  | ctl_node
  | udp_node
  | assign
  | stopen
  | streq
  | stjoin
  | stsid
  | stfail
  | icmp
  | bcast_from
  deriving DecidableEq, Repr

/-- the arguments of the encoder, and what the decoder returns -/
abbrev Kind.Val : Kind → Type
  | .udp_game | .pdat => Nat × Nat × Str × Nat × Bytes
  | .node | .ctl_node | .udp_node => Bytes × Nat × Nat × Nat
  | .assign => Nat × Nat × Nat × List (Nat × Nat)
  | .stopen => Vals [I, I, I, H]
  | .streq => Vals [I, H, I]
  | .stjoin => Vals [I, I]
  | .stsid => Nat
  | .stfail => Vals [I, B]
  | .icmp => Nat × Nat × Nat × Nat × Nat × Bytes
  | .bcast_from => Nat × Nat × Nat × Bytes

def Kind.encode : (k : Kind) → k.Val → Py Bytes
  | .udp_game, (mtype, game_port, ip, port, raw) => encode_udp_game mtype game_port ip port raw
  | .pdat, (dest, game_port, ip, port, raw) => encode_pdat dest game_port ip port raw
  | .node, (token, node_id, udp_port, flags) => encode_node token node_id udp_port flags
  | .ctl_node, (token, node_id, udp_port, flags) => encode_ctl_node token node_id udp_port flags
  | .udp_node, (token, node_id, udp_port, flags) => encode_udp_node token node_id udp_port flags
  | .assign, (my_virt, net, bits, members) => encode_assign my_virt net bits members
  | .stopen, (node_id, dest, sid, gport, _) => encode_stopen node_id dest sid gport
  | .streq, (sid, gport, ovirt, _) => encode_streq sid gport ovirt
  | .stjoin, (node_id, sid, _) => encode_stjoin node_id sid
  | .stsid, sid => encode_stsid sid
  | .stfail, (sid, reason, _) => encode_stfail sid reason
  | .icmp, (mtype, src, dest, iid, seq, data) => encode_icmp mtype src dest iid seq data
  | .bcast_from, (node_id, dport, sport, raw) => encode_bcast_from node_id dport sport raw

def Kind.decode : (k : Kind) → Bytes → Py (Option k.Val)
  | .udp_game => decode_udp_game
  | .pdat => decode_pdat
  | .node => decode_node
  | .ctl_node => decode_ctl_node
  | .udp_node => decode_udp_node
  | .assign => decode_assign
  | .stopen => decode_stopen
  | .streq => decode_streq
  | .stjoin => decode_stjoin
  | .stsid => decode_stsid
  | .stfail => decode_stfail
  | .icmp => decode_icmp
  | .bcast_from => decode_bcast_from

def Kind.Fit : (k : Kind) → k.Val → Prop
  | .udp_game, (mtype, game_port, _, port, _) => mtype < 256 ∧ Fits [H, H] (game_port, port, ())
  | .pdat, (dest, game_port, _, port, _) => Fits [I, H, H] (dest, game_port, port, ())
  | .node, (_, node_id, udp_port, flags) | .ctl_node, (_, node_id, udp_port, flags)
  | .udp_node, (_, node_id, udp_port, flags) => Fits [I, H, B] (node_id, udp_port, flags, ())
  | .assign, (my_virt, net, bits, members) =>
    Fits [I, I, B] (my_virt, net, bits, ()) ∧ ∀ m ∈ members, Fits [I, I] (m.1, m.2, ())
  | .stopen, vs => Fits [I, I, I, H] vs
  | .streq, vs => Fits [I, H, I] vs
  | .stjoin, vs => Fits [I, I] vs
  | .stsid, sid => Fits [I] (sid, ())
  | .stfail, vs => Fits [I, B] vs
  | .icmp, (mtype, src, dest, iid, seq, _) =>
    (mtype = U_ICMP_REQ.toNat ∨ mtype = U_ICMP_REP.toNat) ∧ Fits [I, I, H, H] (src, dest, iid, seq, ())
  | .bcast_from, (node_id, dport, sport, _) => Fits [I, H, H] (node_id, dport, sport, ())

def Kind.Sized : (k : Kind) → k.Val → Prop
  | .udp_game, (_, _, ip, _, _) | .pdat, (_, _, ip, _, _) =>
    ∃ b, strEncode ip = some b ∧ b.length < 2 ^ 16
  | .node, (token, _) | .ctl_node, (token, _) | .udp_node, (token, _) => token.length < 2 ^ 16
  | .assign, (_, _, _, members) => members.length < 2 ^ 16
  | _, _ => True

end Py

end ShadowLan
