import Mathlib.Data.List.Perm.Subperm
import ShadowLan.Lib.Runs
import ShadowLan.Relay.Beacon
import ShadowLan.Wire.Frames

/-!
# Beacons between networks

Every `wclient` snoops the discovery ports of its network and sends up what it hears; the relay hands
that to the others, and they broadcast it again.  A broadcast comes back to the one who has sent it,
so a client must know its own: all its broadcasts leave from one socket, and what comes from the port
of that socket on an address of this machine is dropped.

* `Bcast`             `_bcast_socket`, `_close_bcast`, `_own_echo` and `rebroadcast`;
* `BcastNet.step`     the clients, the relay's room, what is sent up, and what is broadcast again;
* `echo_iff`          nothing that was broadcast again is ever sent up, exactly when every copy that is
                      heard has left the socket of the moment, and from this machine;
* `Orderly`           the condition on a fan-out: the relay has every connection under the node that it
                      noted for it, and a client's connections under one node;
* `beacons_run`       then every broadcast is a game's beacon heard by another client, and a beacon is
                      broadcast once for each of them at most.

A frame that was sent on a connection is read once, by the relay or by the client that has the
connection.  Whom the relay writes a copy to is what `Room.bcast` says.
-/

namespace ShadowLan

def LOCALHOST : Nat := 0x7F000001

/-- a new socket: its port, and whether `getsockname` tells it -/
structure NewSock where
  port : Nat
  known : Bool
  bound : port ≠ 0

/-- the part of `WinClient` that broadcasts -/
structure Bcast where
  /-- the socket, by its port -/
  bcast_sock : Option Nat
  bcast_port : Nat
  /-- `none` before it is looked up, and then `none` for the empty text -/
  route_ip : Option (Option Nat)

namespace Bcast
variable (b : Bcast)

/-- `_bcast_socket` -/
def bcast_socket (o : Option NewSock) : Bcast :=
  match b.bcast_sock, o with
  | none, some n => { b with bcast_sock := some n.port, bcast_port := if n.known then n.port else 0 }
  | _, _ => b

/-- `_close_bcast` -/
def close_bcast : Bcast := { b with bcast_sock := none, bcast_port := 0 }

/-- `_own_echo`; `route` is the answer of the kernel, if it is asked -/
def own_echo (ip port : Nat) (route : Option Nat) : Bcast × Bool :=
  if b.bcast_port = 0 ∨ port ≠ b.bcast_port then (b, false)
  else if ip = LOCALHOST then (b, true)
  else
    let r := b.route_ip.getD route
    ({ b with route_ip := some r }, r == some ip)

/-- `rebroadcast`, with the port that the packet has left from; a send that fails is tried again on a
new socket -/
def rebroadcast (o : Option NewSock) (sent : Bool) (o' : Option NewSock) (sent' : Bool) :
    Bcast × Option Nat :=
  let b := b.bcast_socket o
  match b.bcast_sock with
  | none => (b, none)
  | some p =>
    if sent then (b, some p)
    else
      let b := b.close_bcast.bcast_socket o'
      (b, if sent' then b.bcast_sock else none)

end Bcast

/-- a `T_BCAST` that a client has sent on the connection `via`; `of` is the broadcast that it was heard
in, `none` for a game's own -/
structure UpBeacon where
  client : Nat
  via : Writer
  dport : Nat
  raw : Bytes
  of : Option Nat
  deriving DecidableEq

/-- what the relay has written for the `frame`-th of them to the connection that the client has -/
structure Copy where
  frame : Nat
  client : Nat
  via : Writer
  mtype : UInt8
  payload : Bytes
  deriving DecidableEq

/-- a broadcast of a client, for the `frame`-th of what was sent up -/
structure Emission where
  client : Nat
  port : Nat
  dport : Nat
  raw : Bytes
  frame : Nat
  deriving DecidableEq

namespace UpBeacon

/-- `struct.pack("!HH", disc_port, disc_port) + raw` -/
def payload (f : UpBeacon) : Bytes := packH f.dport ++ packH f.dport ++ f.raw

/-- what the relay makes of it, for a sender that has registered as `node`, or has not -/
def passed (f : UpBeacon) (node : Nat) : UInt8 × Bytes :=
  if node ≠ 0 then (T_BCAST_FROM, encode_bcast_from node f.dport f.dport (f.payload.drop 4))
  else (T_BCAST, f.payload)

end UpBeacon

/-- the beacon in a frame, as `tcp_reader_loop` takes it out -/
def beaconOf (mtype : UInt8) (payload : Bytes) : Option (Nat × Bytes) :=
  if mtype = T_BCAST then
    if payload.length < 4 then none
    else (unpackH (slice payload 0 2)).map fun dport => (dport, payload.drop 4)
  else if mtype = T_BCAST_FROM then
    if payload.length < 8 then none
    else (unpackH (slice payload 4 6)).map fun dport => (dport, payload.drop 8)
  else none

/-- the clients, in any number, and the relay -/
structure BcastNet where
  clients : Nat → Bcast
  /-- the connection of `tcp_writer` -/
  conn : Nat → Option Writer
  /-- which client has dialed a connection -/
  owner : Writer → Option Nat
  room : Room
  /-- the beacons of games that a client has heard -/
  natives : List (Nat × Nat × Bytes)
  ups : List UpBeacon
  /-- the frames that the relay has read -/
  fanned : List Nat
  /-- what the clients have not read yet -/
  copies : List Copy
  ems : List Emission

inductive BcastAct where
  /-- a connection that no client has had -/
  | dial (j : Nat) (w : Writer)
  | drop (j : Nat)
  | room (a : RelayAct)
  /-- client `j` hears a beacon of a game on a discovery port -/
  | native (j ip port dport : Nat) (raw : Bytes) (route : Option Nat)
  /-- client `j` hears the `e`-th broadcast from address `ip` -/
  | echo (j e ip dport : Nat) (route : Option Nat)
  /-- the relay reads the `i`-th frame -/
  | fan (i : Nat)
  /-- a client reads the `k`-th copy, and broadcasts it -/
  | recv (k : Nat) (o : Option NewSock) (sent : Bool) (o' : Option NewSock) (sent' : Bool)

namespace BcastNet

def init (room : Room) : BcastNet where
  clients := fun _ => ⟨none, 0, none⟩
  conn := fun _ => none
  owner := fun _ => none
  room := room
  natives := []
  ups := []
  fanned := []
  copies := []
  ems := []

section
variable (N : BcastNet)

/-- `tcp_writer` is there -/
def linked (j : Nat) : Bool := (N.conn j).isSome

def setClient (j : Nat) (b : Bcast) : BcastNet := { N with clients := Function.update N.clients j b }

/-- a turn of `bcast_snoop` -/
def hear (j ip port dport : Nat) (raw : Bytes) (route of : Option Nat) : BcastNet :=
  let r := (N.clients j).own_echo ip port route
  { N.setClient j r.1 with
    ups := N.ups ++ if r.2 then [] else (N.conn j).toList.map fun w => ⟨j, w, dport, raw, of⟩ }

/-- a frame that is written to the connection that a client has -/
def copy (i : Nat) : RoomOut → Option Copy
  | .frame v mtype payload => (N.owner v).bind fun j =>
    if N.conn j = some v then some ⟨i, j, v, mtype, payload⟩ else none
  | .tunnel _ => none

/-- client `j` broadcasts what it has read -/
def emit (c : Copy) (o : Option NewSock) (sent : Bool) (o' : Option NewSock) (sent' : Bool) :
    BcastNet :=
  match beaconOf c.mtype c.payload with
  | none => N
  | some (dport, raw) =>
    let r := (N.clients c.client).rebroadcast o sent o' sent'
    match r.2 with
    | some port =>
      { N.setClient c.client r.1 with ems := N.ems ++ [⟨c.client, port, dport, raw, c.frame⟩] }
    | none => N.setClient c.client r.1

def step : BcastAct → Option BcastNet
  | .dial j w =>
    if N.owner w = none then
      some { N with
        conn := Function.update N.conn j (some w), owner := Function.update N.owner w (some j) }
    else none
  | .drop j => some { N with conn := Function.update N.conn j none }
  | .room a => (N.room.next (.relay a)).map fun room => { N with room := room }
  | .native j ip port dport raw route =>
    if dport < 65536 then
      some { N.hear j ip port dport raw route none with natives := N.natives ++ [(j, dport, raw)] }
    else none
  | .echo j e ip dport route =>
    if dport < 65536 then N.ems[e]?.map fun m => N.hear j ip m.port dport m.raw route (some e)
    else none
  | .fan i =>
    if N.fanned.contains i then none
    else N.ups[i]?.bind fun f =>
      (N.room.step (.bcast f.via f.payload)).map fun r =>
        { N with
          room := r.1, fanned := i :: N.fanned, copies := N.copies ++ r.2.filterMap (N.copy i) }
  | .recv k o sent o' sent' =>
    N.copies[k]?.bind fun c =>
      if N.conn c.client = some c.via then
        some (emit { N with copies := N.copies.eraseIdx k } c o sent o' sent')
      else none

/-- The condition on a copy that is heard by a client with a link: it has left a port that is the one
of the client's socket now, the client knows that port, and the address is that of this machine. -/
def Cut : BcastAct → Prop
  | .echo j e ip _ route => N.linked j = true → ∀ m ∈ N.ems[e]?,
      (N.clients j).bcast_sock = some m.port ∧ (N.clients j).bcast_port ≠ 0 ∧
        (ip = LOCALHOST ∨ (N.clients j).route_ip.getD route = some ip)
  | _ => True

instance : (a : BcastAct) → Decidable (N.Cut a)
  | .echo j e .. => inferInstanceAs (Decidable (N.linked j = true → ∀ m ∈ N.ems[e]?, _))
  | .dial .. | .drop _ | .room _ | .native .. | .fan _ | .recv .. => instDecidableTrue

/-- The condition on a frame that the relay fans out: each link is at the node that `writer_node`
names, the connection that it came on has registered, and the links of the client's connections are at
the node of this one. -/
def Orderly : BcastAct → Prop
  | .fan i => ∀ f ∈ N.ups[i]?, N.room.relay.InStep ∧
      ∃ n ∈ N.room.relay.writer_node.get? f.via, n ≠ 0 ∧
        ∀ x ∈ N.room.relay.allLinks, N.owner x.writer = some f.client → x.node = n
  | _ => True

instance : (a : BcastAct) → Decidable (N.Orderly a)
  | .fan i => inferInstanceAs (Decidable (∀ f ∈ N.ups[i]?,
      (∀ x ∈ N.room.relay.allLinks, N.room.relay.writer_node.get? x.writer = some x.node) ∧
      ∃ n ∈ N.room.relay.writer_node.get? f.via, n ≠ 0 ∧
        ∀ x ∈ N.room.relay.allLinks, N.owner x.writer = some f.client → x.node = n))
  | .dial .. | .drop _ | .room _ | .native .. | .echo .. | .recv .. => instDecidableTrue

/-- nothing that was broadcast again is sent up -/
def Quiet : Prop := ∀ f ∈ N.ups, f.of = none

end

end BcastNet

/-! ## a beacon on its way -/

section
variable {f : UpBeacon} {node : Nat}

theorem slice_payload (f : UpBeacon) :
    slice f.payload 0 2 = packH f.dport ∧ slice f.payload 2 4 = packH f.dport := ⟨rfl, rfl⟩

/-- a client reads the beacon that was sent up -/
theorem beaconOf_passed (node : Nat) (h : f.dport < 65536) :
    beaconOf (f.passed node).1 (f.passed node).2 = some (f.dport, f.raw) := by
  unfold UpBeacon.passed
  split
  · have hslice : slice (encode_bcast_from node f.dport f.dport (f.payload.drop 4)) 4 6
        = packH f.dport := rfl
    have hlen : ¬ (encode_bcast_from node f.dport f.dport (f.payload.drop 4)).length < 8 := by
      simp [encode_bcast_from, packI, packH]
    have hraw : (encode_bcast_from node f.dport f.dport (f.payload.drop 4)).drop 8 = f.raw := rfl
    unfold beaconOf
    dsimp only
    rw [if_neg (by decide), if_pos rfl, if_neg hlen, hslice, unpackH_packH h, hraw]
    rfl
  · have hlen : ¬ f.payload.length < 4 := by
      simp [UpBeacon.payload, packH]
    unfold beaconOf
    dsimp only
    rw [if_pos rfl, if_neg hlen, (slice_payload f).1, unpackH_packH h]
    rfl

/-- all that the relay makes of the frame -/
theorem bcast_passed (h : f.dport < 65536) (s : Room) (w : Writer) :
    ∀ o ∈ (s.bcast w f.payload).2, ∃ v node, o = .frame v (f.passed node).1 (f.passed node).2 := by
  intro o ho
  unfold Room.bcast at ho
  rw [(slice_payload f).1, (slice_payload f).2, unpackH_packH h] at ho
  dsimp only at ho
  split at ho
  · obtain ⟨v, -, rfl⟩ := List.mem_map.mp ho
    unfold Room.beacon
    split
    · rename_i hn
      exact ⟨v, _, by rw [UpBeacon.passed, if_pos hn.1]⟩
    · exact ⟨v, 0, rfl⟩
  · cases ho

end

namespace Bcast
variable {b : Bcast}

/-- the port that is known is that of the socket -/
def Known (b : Bcast) : Prop := b.bcast_port = 0 ∨ b.bcast_sock = some b.bcast_port

theorem Known.bcast_socket (h : b.Known) (o : Option NewSock) : (b.bcast_socket o).Known := by
  unfold Bcast.bcast_socket
  split
  · rename_i n hs
    show (if n.known then n.port else 0) = 0 ∨ some n.port = some (if n.known then n.port else 0)
    cases n.known with
    | true => exact Or.inr rfl
    | false => exact Or.inl rfl
  · exact h

theorem Known.rebroadcast (h : b.Known) (o : Option NewSock) (sent : Bool) (o' : Option NewSock)
    (sent' : Bool) : (b.rebroadcast o sent o' sent').1.Known := by
  have hclosed : (b.bcast_socket o).close_bcast.Known := Or.inl rfl
  unfold Bcast.rebroadcast
  dsimp only
  split
  · exact h.bcast_socket o
  · split
    · exact h.bcast_socket o
    · exact hclosed.bcast_socket o'

theorem Known.own_echo (h : b.Known) (ip port : Nat) (route : Option Nat) :
    (b.own_echo ip port route).1.Known := by
  unfold Bcast.own_echo
  split
  · exact h
  · split
    · exact h
    · exact h

theorem own_echo_iff (h : b.Known) {ip port : Nat} {route : Option Nat} :
    (b.own_echo ip port route).2 = true ↔ b.bcast_sock = some port ∧ b.bcast_port ≠ 0 ∧
      (ip = LOCALHOST ∨ b.route_ip.getD route = some ip) := by
  unfold Bcast.own_echo
  split
  · rename_i hno
    refine iff_of_false Bool.false_ne_true ?_
    rintro ⟨hs, hp, -⟩
    rcases hno with h0 | hne
    · exact hp h0
    · have hport := h.resolve_left hp
      rw [hs] at hport
      exact hne (Option.some.inj hport)
  · rename_i hyes
    obtain ⟨hp, hport⟩ := not_or.mp hyes
    have hs : b.bcast_sock = some port := by
      rw [h.resolve_left hp, not_not.mp hport]
    split
    · rename_i hip
      exact iff_of_true rfl ⟨hs, hp, Or.inl hip⟩
    · rename_i hip
      show (b.route_ip.getD route == some ip) = true ↔ _
      rw [beq_iff_eq]
      exact ⟨fun hr => ⟨hs, hp, Or.inr hr⟩, fun hr => hr.2.2.resolve_left hip⟩

end Bcast

namespace BcastNet
variable {N N' : BcastNet}

/-! ## what every step keeps -/

/-- the copy is what the relay makes of its frame -/
def Copy.Of (ups : List UpBeacon) (c : Copy) : Prop :=
  ∃ f node, ups[c.frame]? = some f ∧ f.passed node = (c.mtype, c.payload)

structure Sane (N : BcastNet) : Prop where
  known : ∀ j, (N.clients j).Known
  fits : ∀ f ∈ N.ups, f.dport < 65536
  heard : ∀ f ∈ N.ups, f.of = none → (f.client, f.dport, f.raw) ∈ N.natives
  count : N.ups.countP (fun f => f.of == none) ≤ N.natives.length
  copies : ∀ c ∈ N.copies, Copy.Of N.ups c
  /-- a broadcast repeats a frame -/
  ems : ∀ m ∈ N.ems, ∃ f, N.ups[m.frame]? = some f ∧ m.dport = f.dport ∧ m.raw = f.raw

theorem known_setClient (h : ∀ j, (N.clients j).Known) (j : Nat) {b : Bcast} (hb : b.Known) :
    ∀ i, ((N.setClient j b).clients i).Known := by
  intro i
  show (Function.update N.clients j b i).Known
  by_cases hi : i = j
  · rw [hi, Function.update_self]
    exact hb
  · rw [Function.update_of_ne hi]
    exact h i

theorem sane_init (room : Room) : (init room).Sane where
  known := fun _ => Or.inl rfl
  fits := fun _ h => absurd h List.not_mem_nil
  heard := fun _ h => absurd h List.not_mem_nil
  count := Nat.le_refl 0
  copies := fun _ h => absurd h List.not_mem_nil
  ems := fun _ h => absurd h List.not_mem_nil

/-- a frame that was sent up stays where it is -/
theorem getElem?_grown {ups more : List UpBeacon} {i : Nat} {f : UpBeacon} (h : ups[i]? = some f) :
    (ups ++ more)[i]? = some f := by
  rw [List.getElem?_append_left (List.getElem?_eq_some_iff.mp h).1, h]

/-- what a client may have sent up is one frame at most -/
theorem mem_said {b : Bool} {j dport : Nat} {raw : Bytes} {of : Option Nat} {conn : Option Writer}
    {f : UpBeacon} (h : f ∈ if b then [] else conn.toList.map fun w => ⟨j, w, dport, raw, of⟩) :
    b = false ∧ ∃ w, conn = some w ∧ f = ⟨j, w, dport, raw, of⟩ := by
  cases b with
  | true => exact absurd h List.not_mem_nil
  | false =>
    obtain ⟨w, hw, rfl⟩ := List.mem_map.mp h
    exact ⟨rfl, w, Option.mem_toList.mp hw, rfl⟩

theorem countP_said (b : Bool) (j dport : Nat) (raw : Bytes) (of : Option Nat)
    (conn : Option Writer) :
    (if b then [] else conn.toList.map fun w => (⟨j, w, dport, raw, of⟩ : UpBeacon)).countP
      (fun f => f.of == none) ≤ if of = none then 1 else 0 := by
  cases b with
  | true => exact Nat.zero_le _
  | false =>
    cases conn with
    | none => exact Nat.zero_le _
    | some w => cases of <;> exact Nat.le_refl _

/-- a client hears something: it may send that up -/
theorem Sane.hear (h : N.Sane) {j ip port dport : Nat} {raw : Bytes} {route of : Option Nat}
    (hd : dport < 65536) {natives : List (Nat × Nat × Bytes)} (hmore : N.natives <+: natives)
    (hof : of = none → (j, dport, raw) ∈ natives ∧ N.natives.length < natives.length) :
    Sane { N.hear j ip port dport raw route of with natives := natives } := by
  have hlen := hmore.length_le
  refine ⟨known_setClient h.known j ((h.known j).own_echo ip port route), fun f hf => ?_,
    fun f hf hn => ?_, ?_, fun c hc => ?_, fun m hm => ?_⟩
  · rcases List.mem_append.mp hf with hf | hf
    · exact h.fits f hf
    · obtain ⟨-, w, -, rfl⟩ := mem_said hf
      exact hd
  · rcases List.mem_append.mp hf with hf | hf
    · exact hmore.subset (h.heard f hf hn)
    · obtain ⟨-, w, -, rfl⟩ := mem_said hf
      exact (hof hn).1
  · show (N.ups ++ _).countP _ ≤ natives.length
    rw [List.countP_append]
    have hcount := h.count
    have hsaid := countP_said ((N.clients j).own_echo ip port route).2 j dport raw of (N.conn j)
    cases of with
    | none =>
      have hlt := (hof rfl).2
      rw [if_pos rfl] at hsaid
      omega
    | some e =>
      rw [if_neg (Option.some_ne_none e)] at hsaid
      omega
  · obtain ⟨f, node, hf, he⟩ := h.copies c hc
    exact ⟨f, node, getElem?_grown hf, he⟩
  · obtain ⟨f, hf, hrest⟩ := h.ems m hm
    exact ⟨f, getElem?_grown hf, hrest⟩

/-- a copy that the relay writes is for the connection that its client has -/
theorem copy_eq_some {i : Nat} {o : RoomOut} {c : Copy} (h : N.copy i o = some c) :
    o = .frame c.via c.mtype c.payload ∧ c.frame = i ∧ N.owner c.via = some c.client ∧
      N.conn c.client = some c.via := by
  cases o with
  | frame v mtype payload =>
    obtain ⟨j, hj, hc⟩ := Option.bind_eq_some_iff.mp h
    obtain ⟨hv, hc⟩ := Option.ite_none_right_eq_some.mp hc
    rw [← Option.some.inj hc]
    exact ⟨rfl, rfl, hj, hv⟩
  | tunnel => cases h

theorem Sane.fan (h : N.Sane) {i : Nat} {f : UpBeacon} (hf : N.ups[i]? = some f) {room : Room}
    {fanned : List Nat} {outs : List RoomOut}
    (hout : ∀ o ∈ outs, ∃ v node, o = .frame v (f.passed node).1 (f.passed node).2) :
    Sane { N with
      room := room, fanned := fanned, copies := N.copies ++ outs.filterMap (N.copy i) } := by
  refine ⟨h.known, h.fits, h.heard, h.count, fun c hc => ?_, h.ems⟩
  rcases List.mem_append.mp hc with hc | hc
  · exact h.copies c hc
  · obtain ⟨o, ho, hco⟩ := List.mem_filterMap.mp hc
    obtain ⟨he, hfr, -⟩ := copy_eq_some hco
    obtain ⟨v, node, rfl⟩ := hout o ho
    obtain ⟨-, hm, hp⟩ := RoomOut.frame.inj he
    exact ⟨f, node, hfr.symm ▸ hf, Prod.ext hm hp⟩

theorem Sane.emit (h : N.Sane) {c : Copy} (hc : Copy.Of N.ups c) (o : Option NewSock) (sent : Bool)
    (o' : Option NewSock) (sent' : Bool) : (N.emit c o sent o' sent').Sane := by
  have hk := known_setClient h.known c.client ((h.known c.client).rebroadcast o sent o' sent')
  obtain ⟨f, node, hf, he⟩ := hc
  have hread : beaconOf c.mtype c.payload = some (f.dport, f.raw) := by
    have hpass := beaconOf_passed node (h.fits f (List.mem_of_getElem? hf))
    rw [he] at hpass
    exact hpass
  unfold BcastNet.emit
  rw [hread]
  dsimp only
  split
  · refine ⟨hk, h.fits, h.heard, h.count, h.copies, fun m hm => ?_⟩
    rcases List.mem_append.mp hm with hm | hm
    · exact h.ems m hm
    · rw [List.mem_singleton.mp hm]
      exact ⟨f, hf, rfl, rfl⟩
  · exact ⟨hk, h.fits, h.heard, h.count, h.copies, h.ems⟩

theorem sane_step {a : BcastAct} (h : N.Sane) (hs : N.step a = some N') : N'.Sane := by
  cases a with
  | dial j w =>
    obtain ⟨-, hs⟩ := Option.ite_none_right_eq_some.mp hs
    rw [← Option.some.inj hs]
    exact ⟨h.known, h.fits, h.heard, h.count, h.copies, h.ems⟩
  | drop j =>
    rw [← Option.some.inj hs]
    exact ⟨h.known, h.fits, h.heard, h.count, h.copies, h.ems⟩
  | room a =>
    obtain ⟨room, -, rfl⟩ := Option.map_eq_some_iff.mp hs
    exact ⟨h.known, h.fits, h.heard, h.count, h.copies, h.ems⟩
  | native j ip port dport raw route =>
    obtain ⟨hd, hs⟩ := Option.ite_none_right_eq_some.mp hs
    rw [← Option.some.inj hs]
    refine h.hear hd (List.prefix_append _ _) fun _ => ⟨List.mem_append_right _ List.mem_cons_self, ?_⟩
    rw [List.length_append]
    exact Nat.lt_succ_self _
  | echo j e ip dport route =>
    obtain ⟨hd, hs⟩ := Option.ite_none_right_eq_some.mp hs
    obtain ⟨m, -, rfl⟩ := Option.map_eq_some_iff.mp hs
    exact h.hear hd (List.prefix_refl N.natives) nofun
  | fan i =>
    obtain ⟨-, hs⟩ := Option.ite_none_left_eq_some.mp hs
    obtain ⟨f, hf, hs⟩ := Option.bind_eq_some_iff.mp hs
    obtain ⟨r, hr, rfl⟩ := Option.map_eq_some_iff.mp hs
    obtain ⟨-, -, hr⟩ := Option.map_eq_some_iff.mp hr
    refine h.fan hf fun o ho => ?_
    rw [← hr] at ho
    exact bcast_passed (h.fits f (List.mem_of_getElem? hf)) N.room f.via o ho
  | recv k o sent o' sent' =>
    obtain ⟨c, hc, hs⟩ := Option.bind_eq_some_iff.mp hs
    obtain ⟨-, hs⟩ := Option.ite_none_right_eq_some.mp hs
    rw [← Option.some.inj hs]
    have hrest : Sane { N with copies := N.copies.eraseIdx k } :=
      ⟨h.known, h.fits, h.heard, h.count, fun d hd => h.copies d (List.mem_of_mem_eraseIdx hd), h.ems⟩
    exact hrest.emit (h.copies c (List.mem_of_getElem? hc)) o sent o' sent'

/-! ## echoes -/

/-- what a client hears is not sent up exactly when it takes it for its own, or has no link -/
theorem quiet_hear {j ip port dport : Nat} {raw : Bytes} {route : Option Nat} {e : Nat}
    (hq : N.Quiet) : (N.hear j ip port dport raw route (some e)).Quiet ↔
      (N.linked j = true → ((N.clients j).own_echo ip port route).2 = true) := by
  constructor
  · intro hall hl
    by_contra hno
    obtain ⟨w, hw⟩ := Option.isSome_iff_exists.mp hl
    have hmem : (⟨j, w, dport, raw, some e⟩ : UpBeacon) ∈
        (N.hear j ip port dport raw route (some e)).ups := by
      unfold BcastNet.hear
      dsimp only
      rw [if_neg hno, hw]
      exact List.mem_append_right _ List.mem_cons_self
    cases hall _ hmem
  · intro hi f hf
    rcases List.mem_append.mp hf with hf | hf
    · exact hq f hf
    · obtain ⟨hno, w, hw, -⟩ := mem_said hf
      have hown := hi (Option.isSome_iff_exists.mpr ⟨w, hw⟩)
      rw [hno] at hown
      cases hown

theorem quiet_step {a : BcastAct} (h : N.Sane) (hq : N.Quiet) (hs : N.step a = some N') :
    N'.Quiet ↔ N.Cut a := by
  cases a with
  | dial j w =>
    obtain ⟨-, hs⟩ := Option.ite_none_right_eq_some.mp hs
    rw [← Option.some.inj hs]
    exact iff_of_true hq trivial
  | drop j =>
    rw [← Option.some.inj hs]
    exact iff_of_true hq trivial
  | room a =>
    obtain ⟨room, -, rfl⟩ := Option.map_eq_some_iff.mp hs
    exact iff_of_true hq trivial
  | native j ip port dport raw route =>
    obtain ⟨-, hs⟩ := Option.ite_none_right_eq_some.mp hs
    rw [← Option.some.inj hs]
    refine iff_of_true (fun f hf => ?_) trivial
    rcases List.mem_append.mp hf with hf | hf
    · exact hq f hf
    · obtain ⟨-, w, -, rfl⟩ := mem_said hf
      rfl
  | echo j e ip dport route =>
    obtain ⟨-, hs⟩ := Option.ite_none_right_eq_some.mp hs
    obtain ⟨m, hm, rfl⟩ := Option.map_eq_some_iff.mp hs
    rw [quiet_hear hq, Bcast.own_echo_iff (h.known j)]
    show _ ↔ (N.linked j = true → ∀ m' ∈ N.ems[e]?, _)
    rw [hm]
    simp
  | fan i =>
    obtain ⟨-, hs⟩ := Option.ite_none_left_eq_some.mp hs
    obtain ⟨f, -, hs⟩ := Option.bind_eq_some_iff.mp hs
    obtain ⟨r, -, rfl⟩ := Option.map_eq_some_iff.mp hs
    exact iff_of_true hq trivial
  | recv k o sent o' sent' =>
    obtain ⟨c, -, hs⟩ := Option.bind_eq_some_iff.mp hs
    obtain ⟨-, hs⟩ := Option.ite_none_right_eq_some.mp hs
    have hups : N'.ups = N.ups := by
      rw [← Option.some.inj hs]
      unfold BcastNet.emit
      dsimp only
      split
      · rfl
      · split <;> rfl
    unfold Quiet
    rw [hups]
    exact iff_of_true hq trivial

/-- **Echoes.**  Along a run nothing that a client has broadcast is ever sent up again, exactly when
each copy that a client with a link hears has left the socket that this client has at the moment, by
a port that it knows, and from loopback or the address that the client takes for its own. -/
theorem echo_iff {room : Room} {t : BcastNet} {tr : List (BcastNet × BcastAct)}
    (h : Path step (init room) tr t) :
    (∀ u ∈ visited tr t, u.Quiet) ↔ ∀ x ∈ tr, x.1.Cut x.2 := by
  refine h.all_iff_ok (I := fun u => u.Sane ∧ u.Quiet)
    ⟨sane_init room, fun _ hf => absurd hf List.not_mem_nil⟩ (fun _ hi => hi.2) ?_ ?_
  · intro u l u' hi hok hs
    exact ⟨sane_step hi.1 hs, (quiet_step hi.1 hi.2 hs).mpr hok⟩
  · intro u l u' hi hno hs hq
    exact hno ((quiet_step hi.1 hi.2 hs).mp hq)

/-- an empty room -/
def emptyRoom : Room := .init [] [] [] 0 0

/-- a game's beacon is broadcast by client 1 -/
def firstBeacon : List BcastAct :=
  [.dial 0 10, .dial 1 11, .room (.accept 10 "10.0.0.9"),
    .room (.node 10 [3, 0, 0, 0, 0, 0, 1, 0, 0, 0]), .room (.accept 11 "10.0.0.8"),
    .room (.node 11 [3, 0, 0, 0, 0, 0, 2, 0, 0, 0]), .native 0 0x0A000005 6112 6112 [1] none, .fan 0,
    .recv 0 (some ⟨5000, true, by decide⟩) true none false]

/-- the socket dies under the next one, and then the first one comes back -/
def oldSocket : List BcastAct :=
  firstBeacon ++ [BcastAct.native 0 0x0A000005 6112 6112 [2] none, .fan 1,
    .recv 0 none false (some ⟨5001, true, by decide⟩) true, .echo 1 0 LOCALHOST 6112 none]

theorem echo_oldSocket : ∃ t, run step (init emptyRoom) oldSocket = some t ∧
    ¬ ∀ u ∈ visited (trace step (init emptyRoom) oldSocket) t, u.Quiet := by
  have hrun : (run step (init emptyRoom) oldSocket).isSome = true := by decide +kernel
  obtain ⟨t, ht⟩ := Option.isSome_iff_exists.mp hrun
  have hcut : ¬ ∀ x ∈ trace step (init emptyRoom) oldSocket, x.1.Cut x.2 := by decide +kernel
  exact ⟨t, ht, fun hq => hcut ((echo_iff (path_run ht)).mp hq)⟩

/-! ## no storm -/

/-- which frames are with which clients: broadcast, or on the way -/
def keys (N : BcastNet) : List (Nat × Nat) :=
  N.ems.map (fun m => (m.frame, m.client)) ++ N.copies.map fun c => (c.frame, c.client)

structure Spread (N : BcastNet) : Prop where
  /-- a frame goes to other clients than the one it is from -/
  others : ∀ p ∈ N.keys, ∃ f, N.ups[p.1]? = some f ∧ f.client ≠ p.2
  fanned : ∀ p ∈ N.keys, p.1 ∈ N.fanned
  /-- and to each of them once -/
  nodup : N.keys.Nodup

theorem spread_init (room : Room) : (init room).Spread :=
  ⟨fun _ h => absurd h List.not_mem_nil, fun _ h => absurd h List.not_mem_nil, List.nodup_nil⟩

theorem Spread.grow (h : N.Spread) {N' : BcastNet} {more : List UpBeacon} (hk : N'.keys = N.keys)
    (hu : N'.ups = N.ups ++ more) (hf : N'.fanned = N.fanned) : N'.Spread := by
  refine ⟨fun p hp => ?_, fun p hp => ?_, hk ▸ h.nodup⟩
  · obtain ⟨f, hf, hne⟩ := h.others p (hk ▸ hp)
    exact ⟨f, hu ▸ getElem?_grown hf, hne⟩
  · exact hf ▸ h.fanned p (hk ▸ hp)

/-- frames to different connections -/
def Apart (o o' : RoomOut) : Prop :=
  ∀ v m p v' m' p', o = .frame v m p → o' = .frame v' m' p' → v ≠ v'

/-- the copies of one frame go to different clients -/
theorem nodup_copies {i : Nat} {xs : List LinkRef} (hx : (xs.map LinkRef.writer).Nodup)
    (g : LinkRef → UInt8 × Bytes) :
    (((xs.map fun x => RoomOut.frame x.writer (g x).1 (g x).2).filterMap (N.copy i)).map
      fun c => (c.frame, c.client)).Nodup := by
  have hapart : (xs.map fun x => RoomOut.frame x.writer (g x).1 (g x).2).Pairwise Apart := by
    refine List.pairwise_map.mpr ((List.pairwise_map.mp hx).imp ?_)
    intro x y hne v m p v' m' p' hv hv'
    rw [← (RoomOut.frame.inj hv).1, ← (RoomOut.frame.inj hv').1]
    exact hne
  refine List.pairwise_map.mpr (hapart.filterMap (N.copy i) ?_)
  intro o o' hne c hc c' hc' he
  obtain ⟨ho, -, -, hconn⟩ := copy_eq_some hc
  obtain ⟨ho', -, -, hconn'⟩ := copy_eq_some hc'
  rw [(Prod.mk.inj he).2, hconn'] at hconn
  exact hne _ _ _ _ _ _ ho ho' (Option.some.inj hconn).symm

/-- the relay fans a frame out -/
theorem Spread.fan (h : N.Spread) {i : Nat} {f : UpBeacon} {r : Room × List RoomOut}
    (hf : N.ups[i]? = some f) (hnew : i ∉ N.fanned) (hr : N.room.bcast f.via f.payload = r)
    (hok : N.Orderly (.fan i)) : Spread { N with
      room := r.1, fanned := i :: N.fanned, copies := N.copies ++ r.2.filterMap (N.copy i) } := by
  obtain ⟨hstep, n, hn, hn0, hnode⟩ := hok f hf
  have hn : N.room.relay.writer_node.get? f.via = some n := hn
  have hout := N.room.bcast_out f.via f.payload
  rw [hr, hn, Option.getD_some] at hout
  have hcopies := N.room.copies_sublist f.via n
  have hkeys : keys { N with
      room := r.1, fanned := i :: N.fanned, copies := N.copies ++ r.2.filterMap (N.copy i) } =
        N.keys ++ (r.2.filterMap (N.copy i)).map fun c => (c.frame, c.client) := by
    unfold keys
    rw [List.map_append, List.append_assoc]
  -- a copy is of this frame, on a link that is not at the node of the client that it is from
  have hcopy : ∀ p ∈ (r.2.filterMap (N.copy i)).map (fun c => (c.frame, c.client)),
      p.1 = i ∧ f.client ≠ p.2 := by
    intro p hp
    obtain ⟨c, hc, rfl⟩ := List.mem_map.mp hp
    obtain ⟨o, ho, hco⟩ := List.mem_filterMap.mp hc
    obtain ⟨he, hfr, howner, -⟩ := copy_eq_some hco
    refine ⟨hfr, fun hclient => ?_⟩
    rcases hout with hout | ⟨g, hout⟩
    · rw [hout] at ho
      cases ho
    · rw [hout] at ho
      obtain ⟨x, hx, rfl⟩ := List.mem_map.mp ho
      have hxw : x.writer = c.via := (RoomOut.frame.inj he).1
      have hlink := hcopies.subset hx
      have hat := hnode x hlink (by rw [hxw, howner, hclient])
      exact (Room.copies_hears hx).2 ⟨hn0, (hstep x hlink).trans (congrArg some hat)⟩
  have hnodup : ((r.2.filterMap (N.copy i)).map fun c => (c.frame, c.client)).Nodup := by
    rcases hout with hout | ⟨g, hout⟩
    · rw [hout]
      exact List.nodup_nil
    · rw [hout]
      exact nodup_copies (Room.copies_nodup hstep) g
  refine ⟨fun p hp => ?_, fun p hp => ?_, ?_⟩
  · rw [hkeys] at hp
    rcases List.mem_append.mp hp with hp | hp
    · exact h.others p hp
    · obtain ⟨rfl, hne⟩ := hcopy p hp
      exact ⟨f, hf, hne⟩
  · rw [hkeys] at hp
    rcases List.mem_append.mp hp with hp | hp
    · exact List.mem_cons_of_mem _ (h.fanned p hp)
    · rw [(hcopy p hp).1]
      exact List.mem_cons_self
  · rw [hkeys]
    refine List.nodup_append.mpr ⟨h.nodup, hnodup, ?_⟩
    rintro p hp q hq rfl
    rw [← (hcopy p hq).1] at hnew
    exact hnew (h.fanned p hp)

/-- a copy that is read is broadcast once at most -/
theorem Spread.recv (h : N.Spread) {k : Nat} {c : Copy} (hc : N.copies[k]? = some c)
    (o : Option NewSock) (sent : Bool) (o' : Option NewSock) (sent' : Bool) :
    (emit { N with copies := N.copies.eraseIdx k } c o sent o' sent').Spread := by
  have hmore : ∀ N' : BcastNet, N'.ups = N.ups → N'.fanned = N.fanned →
      List.Subperm N'.keys N.keys → N'.Spread := by
    intro N' hu hf hk
    refine ⟨fun p hp => ?_, fun p hp => ?_, ?_⟩
    · rw [hu]
      exact h.others p (hk.subset hp)
    · rw [hf]
      exact h.fanned p (hk.subset hp)
    · obtain ⟨l, hl, hsub⟩ := hk
      exact hl.nodup_iff.mp (h.nodup.sublist hsub)
  obtain ⟨hlt, rfl⟩ := List.getElem?_eq_some_iff.mp hc
  have hperm : (N.copies.map fun c => (c.frame, c.client)).Perm
      ((N.copies[k].frame, N.copies[k].client) ::
        (N.copies.eraseIdx k).map fun c => (c.frame, c.client)) :=
    ((List.getElem_cons_eraseIdx_perm hlt).map _).symm
  have hnone : List.Subperm (keys { N with copies := N.copies.eraseIdx k }) N.keys :=
    ((List.Sublist.refl _).append ((List.eraseIdx_sublist _ _).map _)).subperm
  unfold BcastNet.emit
  split
  · exact hmore _ rfl rfl hnone
  · dsimp only
    split
    · refine hmore _ rfl rfl (List.Perm.subperm ?_)
      show (List.map _ (N.ems ++ [_]) ++ List.map _ (N.copies.eraseIdx k)).Perm N.keys
      rw [List.map_append, List.append_assoc]
      exact (hperm.symm).append_left _
    · exact hmore _ rfl rfl hnone

theorem spread_step {a : BcastAct} (h : N.Spread) (hok : N.Orderly a) (hs : N.step a = some N') :
    N'.Spread := by
  cases a with
  | dial j w =>
    obtain ⟨-, hs⟩ := Option.ite_none_right_eq_some.mp hs
    rw [← Option.some.inj hs]
    exact ⟨h.others, h.fanned, h.nodup⟩
  | drop j =>
    rw [← Option.some.inj hs]
    exact ⟨h.others, h.fanned, h.nodup⟩
  | room a =>
    obtain ⟨room, -, rfl⟩ := Option.map_eq_some_iff.mp hs
    exact ⟨h.others, h.fanned, h.nodup⟩
  | native j ip port dport raw route =>
    obtain ⟨-, hs⟩ := Option.ite_none_right_eq_some.mp hs
    rw [← Option.some.inj hs]
    exact h.grow rfl rfl rfl
  | echo j e ip dport route =>
    obtain ⟨-, hs⟩ := Option.ite_none_right_eq_some.mp hs
    obtain ⟨m, -, rfl⟩ := Option.map_eq_some_iff.mp hs
    exact h.grow rfl rfl rfl
  | fan i =>
    obtain ⟨hnew, hs⟩ := Option.ite_none_left_eq_some.mp hs
    obtain ⟨f, hf, hs⟩ := Option.bind_eq_some_iff.mp hs
    obtain ⟨r, hr, rfl⟩ := Option.map_eq_some_iff.mp hs
    obtain ⟨-, -, hr⟩ := Option.map_eq_some_iff.mp hr
    exact h.fan hf (fun hmem => hnew (List.contains_iff_mem.mpr hmem)) hr hok
  | recv k o sent o' sent' =>
    obtain ⟨c, hc, hs⟩ := Option.bind_eq_some_iff.mp hs
    obtain ⟨-, hs⟩ := Option.ite_none_right_eq_some.mp hs
    rw [← Option.some.inj hs]
    exact h.recv hc o sent o' sent'

/-- each frame that was sent up is broadcast once at most by each of the others -/
theorem Spread.few (h : N.Spread) {n : Nat} (hu : ∀ f ∈ N.ups, f.client < n)
    (he : ∀ m ∈ N.ems, m.client < n) : N.ems.length ≤ N.ups.length * (n - 1) := by
  let pairs := N.ups.zipIdx.flatMap fun x => ((List.range n).erase x.1.client).map fun j => (x.2, j)
  have hsub : N.ems.map (fun m => (m.frame, m.client)) ⊆ pairs := by
    intro p hp
    obtain ⟨f, hf, hne⟩ := h.others p (List.mem_append_left _ hp)
    obtain ⟨m, hm, rfl⟩ := List.mem_map.mp hp
    refine List.mem_flatMap.mpr ⟨(f, m.frame), List.mem_zipIdx_iff_getElem?.mpr hf, ?_⟩
    refine List.mem_map.mpr ⟨m.client, ?_, rfl⟩
    exact (List.mem_erase_of_ne hne.symm).mpr (List.mem_range.mpr (he m hm))
  have hlen : pairs.length = N.ups.length * (n - 1) := by
    have hone : ∀ x ∈ N.ups.zipIdx,
        (((List.range n).erase x.1.client).map fun j => (x.2, j)).length = n - 1 := by
      intro x hx
      have hmem : x.1 ∈ N.ups := List.mem_of_getElem? (List.mem_zipIdx_iff_getElem?.mp hx)
      rw [List.length_map, List.length_erase_of_mem (List.mem_range.mpr (hu _ hmem)),
        List.length_range]
    show (N.ups.zipIdx.flatMap _).length = _
    rw [List.length_flatMap, List.map_congr_left hone, List.map_const',
      List.sum_replicate_nat, List.length_zipIdx]
  have hnd := (List.nodup_append.mp h.nodup).1
  calc N.ems.length = (N.ems.map fun m => (m.frame, m.client)).length := by rw [List.length_map]
    _ ≤ pairs.length := (List.subperm_of_subset hnd hsub).length_le
    _ = N.ups.length * (n - 1) := hlen

/-- **No storm.**  In a run whose echoes are all cut, and in which the relay has the clients'
connections in order when it fans a beacon out, what a client broadcasts is a beacon of a game, on the
port and with the bytes that another client has heard; no frame is broadcast twice by one client; and
among `n` clients there are at most `n - 1` broadcasts for each beacon that was heard. -/
theorem beacons_run {room : Room} {t : BcastNet} {tr : List (BcastNet × BcastAct)}
    (h : Path step (init room) tr t) (hc : ∀ x ∈ tr, x.1.Cut x.2) (ho : ∀ x ∈ tr, x.1.Orderly x.2) :
    (∀ m ∈ t.ems, ∃ i, i ≠ m.client ∧ (i, m.dport, m.raw) ∈ t.natives) ∧
    (t.ems.map fun m => (m.frame, m.client)).Nodup ∧
    ∀ n, (∀ f ∈ t.ups, f.client < n) → (∀ m ∈ t.ems, m.client < n) →
      t.ems.length ≤ t.natives.length * (n - 1) := by
  have hs : t.Sane := h.inv (sane_init room) fun _ _ _ hi hl => sane_step hi hl
  have hq : t.Quiet := h.inv_of_ok (I := fun u => u.Sane ∧ u.Quiet)
    ⟨sane_init room, fun _ hf => absurd hf List.not_mem_nil⟩
    (fun _ _ _ hi hok hl => ⟨sane_step hi.1 hl, (quiet_step hi.1 hi.2 hl).mpr hok⟩) hc |>.2
  have hp : t.Spread := h.inv_of_ok (spread_init room) (fun _ _ _ hi hok hl => spread_step hi hok hl) ho
  refine ⟨fun m hm => ?_, (List.nodup_append.mp hp.nodup).1, fun n hu he => ?_⟩
  · obtain ⟨f, hf, hd, hr⟩ := hs.ems m hm
    obtain ⟨f', hf', hne⟩ := hp.others (m.frame, m.client)
      (List.mem_append_left _ (List.mem_map_of_mem hm))
    cases Option.some.inj (hf.symm.trans hf')
    refine ⟨f.client, hne, ?_⟩
    have hmem := List.mem_of_getElem? hf
    rw [hd, hr]
    exact hs.heard f hmem (hq f hmem)
  · have hall : t.ups.countP (fun f => f.of == none) = t.ups.length := by
      rw [List.countP_eq_length]
      intro f hf
      rw [hq f hf]
      rfl
    have hcount := hs.count
    rw [hall] at hcount
    exact Nat.le_trans (hp.few hu he) (Nat.mul_le_mul_right _ hcount)

/-- client 1 hears its own broadcast, and drops it -/
def ownBeacon : List BcastAct := firstBeacon ++ [BcastAct.echo 1 0 LOCALHOST 6112 none]

theorem beacons_ownBeacon : ∃ t, run step (init emptyRoom) ownBeacon = some t ∧
    t.ems = [⟨1, 5000, 6112, [1], 0⟩] ∧ (0, 6112, [1]) ∈ t.natives ∧ t.ups.length = 1 ∧
    (t.ems.map fun m => (m.frame, m.client)).Nodup := by
  have hrun : (run step (init emptyRoom) ownBeacon).isSome = true := by decide +kernel
  obtain ⟨t, ht⟩ := Option.isSome_iff_exists.mp hrun
  have hend : ∀ t ∈ run step (init emptyRoom) ownBeacon, t.ems = [⟨1, 5000, 6112, [1], 0⟩] ∧
      t.natives = [(0, 6112, [1])] ∧ t.ups.length = 1 := by decide +kernel
  obtain ⟨he, hn, hu⟩ := hend t ht
  have hcut : ∀ x ∈ trace step (init emptyRoom) ownBeacon, x.1.Cut x.2 := by decide +kernel
  have horder : ∀ x ∈ trace step (init emptyRoom) ownBeacon, x.1.Orderly x.2 := by decide +kernel
  obtain ⟨-, hnd, -⟩ := beacons_run (path_run ht) hcut horder
  exact ⟨t, ht, he, hn ▸ List.mem_cons_self, hu, hnd⟩

end BcastNet

end ShadowLan
