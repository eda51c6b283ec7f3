import ShadowLan.Lib.Runs
import ShadowLan.Wire.Frames

/-!
# The control link

One thread (`dt_tcp_thread`) owns the control connection to the relay and dials it again whenever it
breaks.  What it sends waits in a queue that any thread fills (`dt_tcp_queue`), also while the link
is down; the queue outlives the connections.

* `dtTcpQueue`, `dtSendNode`   a frame is queued; the registration frame;
* `Ctl.step`                   another thread queues, or the link's thread takes its next step;
* `Registered`                 the first frame on every connection, written or next to be written,
                               is `DT_NODE`;
* `registered_iff`             along a run this holds exactly when the registration of every new
                               connection finds no other frame at the front of the queue;
* `decode_nodePayload`         the relay reads a registration as it was meant;
* `link_bytes`                 the bytes on a connection are those of its frames.

Memory is taken to be there.  Logging and the wake channel are left out, and so is what the thread
reads: it may break the connection at any time.
-/

namespace ShadowLan

def DT_NODE : UInt8 := 0x01
def DT_BCAST : UInt8 := 0x03
def DT_UDP_MODE : UInt8 := 0x05
def DT_UDP_TUN : UInt8 := 0x06
def DT_STSHUT : UInt8 := 0x0D
def DT_CTLQ_DROP : Nat := 64 * 1024
def DT_NODE_F_HOST : UInt8 := 0x01

/-- `struct dt_frame`; `p` is the frame's complete wire bytes -/
structure DtFrame where
  type : UInt8
  p : Bytes
  deriving DecidableEq

def DtFrame.n (f : DtFrame) : Nat := f.p.length

/-- `[u32 len][u8 type][payload]` -/
def dtFrame (type : UInt8) (p : Bytes) : DtFrame := ⟨type, packI (1 + p.length) ++ type :: p⟩

/-- one connection: the bytes the socket took, and the frames they begin -/
structure CtlLink where
  out : Bytes
  frames : List DtFrame
  deriving DecidableEq

/-- where the thread is: between two connections, connected, registered, multiplexing -/
inductive CtlPc where
  | down
  | connected
  | registered
  | up
  deriving DecidableEq

/-- `g_sq` is the list from `g_sqh` to `g_sqt`, `cur` the frame being sent with `cur_off`; `link` is
the connection of the moment and `past` are those that broke -/
structure Ctl where
  g_sq : List DtFrame
  g_sq_bytes : Nat
  cur : Option (DtFrame × Nat)
  pc : CtlPc
  link : CtlLink
  past : List CtlLink
  deriving DecidableEq

/-- what `dt_send_node` reads: `g_token`, `g_node`, `dt_tun_udp_port()`, `g_claimed` -/
structure NodeInfo where
  token : Bytes
  node : Nat
  port : Nat
  claimed : Bool

def nodePayload (i : NodeInfo) : Bytes :=
  PVER :: (packH i.token.length ++ i.token ++ packI i.node ++ packH i.port ++
    [if i.claimed then DT_NODE_F_HOST else 0])

def NodeInfo.frame (i : NodeInfo) : NodeFrame := ⟨i.token, i.node, i.port, if i.claimed then 1 else 0⟩

theorem nodePayload_eq (i : NodeInfo) : nodePayload i = PVER :: nodeBody i.frame := by
  unfold nodePayload NodeInfo.frame
  cases i.claimed <;> rfl

/-- the relay reads the registration that the hook meant; `g_token` holds 256 bytes -/
theorem decode_nodePayload (i : NodeInfo) (ht : i.token.length ≤ 256) (hp : i.port < 65536) :
    decodeCtlNode (nodePayload i)
      = some ⟨i.token, i.node % 4294967296, i.port, if i.claimed then 1 else 0⟩ := by
  have hmod : nodeBody i.frame = nodeBody { i.frame with node := i.node % 4294967296 } := by
    unfold nodeBody
    rw [packI_mod]
    rfl
  rw [nodePayload_eq, hmod]
  refine decodeNode_body ⟨ht, Nat.mod_lt _ (by decide), hp, ?_⟩
  show (if i.claimed then 1 else 0) < 256
  split <;> decide

inductive CtlAct where
  | queue (type : UInt8) (p : Bytes)
  | connect
  | sendNode (i : NodeInfo)
  | udpMode
  | take
  | sent (k : Nat)
  | redial

namespace Ctl
variable (s : Ctl)

def boot : Ctl := ⟨[], 0, none, .down, ⟨[], []⟩, []⟩

/-- `dt_tcp_queue`: a game datagram or a beacon is dropped when the link is backed up -/
def dtTcpQueue (type : UInt8) (p : Bytes) : Ctl :=
  if (type = DT_UDP_TUN ∨ type = DT_BCAST) ∧ DT_CTLQ_DROP < s.g_sq_bytes + (dtFrame type p).n then s
  else { s with g_sq := s.g_sq ++ [dtFrame type p], g_sq_bytes := s.g_sq_bytes + (dtFrame type p).n }

def dtSendNode (i : NodeInfo) : Ctl := s.dtTcpQueue DT_NODE (nodePayload i)

/-- the socket takes `k` more bytes of `f` -/
def wrote (f : DtFrame) (off k : Nat) : CtlLink where
  out := s.link.out ++ slice f.p off (off + k)
  frames := if off = 0 then s.link.frames ++ [f] else s.link.frames

/-- `redial:` an untouched frame is first out on the next link, a half-sent one dies with its own -/
def requeue : Ctl :=
  match s.cur with
  | some (f, 0) => { s with g_sq := f :: s.g_sq, cur := none }
  | some (f, _) => { s with g_sq_bytes := s.g_sq_bytes - f.n, cur := none }
  | none => s

/-- another thread queues a frame, or `dt_tcp_thread` does its next thing -/
def step (g_udp_tcp : Bool) : CtlAct → Option Ctl
  | .queue type p => some (s.dtTcpQueue type p)
  | .connect =>
    if s.pc = .down then some { s with pc := .connected, link := ⟨[], []⟩ } else none
  | .sendNode i =>
    if s.pc = .connected then some { s.dtSendNode i with pc := .registered } else none
  | .udpMode =>
    if s.pc = .registered then
      some { (if g_udp_tcp then s.dtTcpQueue DT_UDP_MODE [] else s) with pc := .up }
    else none
  | .take =>
    match s.pc, s.cur, s.g_sq with
    | .up, none, f :: rest => some { s with g_sq := rest, cur := some (f, 0) }
    | _, _, _ => none
  | .sent k =>
    match s.pc, s.cur with
    | .up, some (f, off) =>
      if 0 < k ∧ off + k ≤ f.n then
        if off + k < f.n then some { s with cur := some (f, off + k), link := s.wrote f off k }
        else some { s with
          cur := none, g_sq_bytes := s.g_sq_bytes - f.n, link := s.wrote f off k }
      else none
    | _, _ => none
  | .redial =>
    if s.pc = .up then some { s.requeue with pc := .down, past := s.past ++ [s.link] } else none

/-- the frame that goes out first on the link: written, or next to be written -/
def firstOut : Option DtFrame :=
  s.link.frames.head?.or ((s.cur.map Prod.fst).or s.g_sq.head?)

/-- The first frame written on a connection is `DT_NODE`; while nothing is written yet, the next
frame to be written is. -/
structure Registered (s : Ctl) : Prop where
  past : ∀ l ∈ s.past, ∀ f ∈ l.frames.head?, f.type = DT_NODE
  link : ∀ f ∈ s.link.frames.head?, f.type = DT_NODE
  next : s.pc = .registered ∨ s.pc = .up → ∃ f, s.firstOut = some f ∧ f.type = DT_NODE

/-- the registration of a new connection finds the queue empty, or an older registration first -/
def StepOk (s : Ctl) : CtlAct → Prop
  | .sendNode _ => ∀ f ∈ s.g_sq.head?, f.type = DT_NODE
  | _ => True

instance (s : Ctl) (a : CtlAct) : Decidable (s.StepOk a) :=
  match a with
  | .sendNode _ => inferInstanceAs (Decidable (∀ f ∈ s.g_sq.head?, f.type = DT_NODE))
  | .queue .. => inferInstanceAs (Decidable True)
  | .connect => inferInstanceAs (Decidable True)
  | .udpMode => inferInstanceAs (Decidable True)
  | .take => inferInstanceAs (Decidable True)
  | .sent _ => inferInstanceAs (Decidable True)
  | .redial => inferInstanceAs (Decidable True)

/-! ## the first frame -/

variable {s} {s' t : Ctl} {g_udp_tcp : Bool}

/-- a queued frame comes last, and nothing else changes but the count -/
theorem dtTcpQueue_cases (type : UInt8) (p : Bytes) : ∃ l n,
    s.dtTcpQueue type p = { s with g_sq := s.g_sq ++ l, g_sq_bytes := n } := by
  unfold dtTcpQueue
  split
  · exact ⟨[], s.g_sq_bytes, by rw [List.append_nil]⟩
  · exact ⟨[dtFrame type p], _, rfl⟩

/-- a registration is always queued -/
theorem dtSendNode_eq (i : NodeInfo) :
    s.dtSendNode i = { s with
      g_sq := s.g_sq ++ [dtFrame DT_NODE (nodePayload i)]
      g_sq_bytes := s.g_sq_bytes + (dtFrame DT_NODE (nodePayload i)).n } := by
  unfold dtSendNode dtTcpQueue
  rw [if_neg]
  rintro ⟨h | h, -⟩
  · exact absurd h (by decide)
  · exact absurd h (by decide)

theorem firstOut_append {f : DtFrame} {l : List DtFrame} {n : Nat} (h : s.firstOut = some f) :
    ({ s with g_sq := s.g_sq ++ l, g_sq_bytes := n } : Ctl).firstOut = some f := by
  unfold firstOut at h ⊢
  rcases Option.or_eq_some_iff.mp h with hl | ⟨hl, h⟩
  · rw [hl, Option.some_or]
  · rw [hl, Option.none_or]
    rcases Option.or_eq_some_iff.mp h with hc | ⟨hc, hq⟩
    · rw [hc, Option.some_or]
    · rw [hc, Option.none_or]
      show (s.g_sq ++ l).head? = some f
      rw [List.head?_append, hq, Option.some_or]

/-- Off the flush loop no frame is in hand, a connection starts with nothing written, and a frame in
hand that is part written is on the link. -/
structure Inv (s : Ctl) : Prop extends Registered s where
  idle : s.pc ≠ .up → s.cur = none
  fresh : s.pc = .connected ∨ s.pc = .registered → s.link.frames = []
  begun : ∀ f off, s.cur = some (f, off) → off ≠ 0 → s.link.frames ≠ []

theorem inv_boot : Inv boot where
  past := by
    intro l hl
    cases hl
  link := by
    intro f hf
    cases hf
  next := by
    rintro (h | h) <;> cases h
  idle := by
    intro _
    rfl
  fresh := by
    intro _
    rfl
  begun := by
    intro f off h
    cases h

/-- more frames behind those that wait -/
theorem Inv.append {l : List DtFrame} {n : Nat} (hI : Inv s) :
    Inv { s with g_sq := s.g_sq ++ l, g_sq_bytes := n } where
  past := hI.past
  link := hI.link
  idle := hI.idle
  fresh := hI.fresh
  begun := hI.begun
  next := by
    intro hpc
    obtain ⟨f, hf, hn⟩ := hI.next hpc
    exact ⟨f, firstOut_append hf, hn⟩

theorem Inv.queue (hI : Inv s) (type : UInt8) (p : Bytes) : Inv (s.dtTcpQueue type p) := by
  obtain ⟨l, n, e⟩ := dtTcpQueue_cases (s := s) type p
  rw [e]
  exact hI.append

theorem Inv.connect (hI : Inv s) (hpc : s.pc = .down) :
    Inv { s with pc := .connected, link := ⟨[], []⟩ } where
  past := hI.past
  link := by
    intro f hf
    cases hf
  idle := by
    intro _
    exact hI.idle (by rw [hpc]; decide)
  fresh := by
    intro _
    rfl
  begun := by
    intro f off h
    have hnone := hI.idle (by rw [hpc]; decide)
    rw [show s.cur = some (f, off) from h] at hnone
    cases hnone
  next := by
    rintro (h | h) <;> cases h

/-- the registration on a new connection: what goes out first is the head of the queue -/
theorem firstOut_sendNode (hI : Inv s) (hpc : s.pc = .connected) (i : NodeInfo) :
    ({ s.dtSendNode i with pc := .registered } : Ctl).firstOut
      = some (s.g_sq.head?.getD (dtFrame DT_NODE (nodePayload i))) := by
  rw [dtSendNode_eq]
  unfold firstOut
  dsimp only
  rw [hI.fresh (Or.inl hpc), hI.idle (by rw [hpc]; decide), List.head?_append]
  cases s.g_sq.head? with
  | none => rfl
  | some f => rfl

theorem Inv.sendNode {i : NodeInfo} (hI : Inv s) (hpc : s.pc = .connected)
    (hok : s.StepOk (.sendNode i)) : Inv { s.dtSendNode i with pc := .registered } where
  past := by
    rw [dtSendNode_eq]
    exact hI.past
  link := by
    rw [dtSendNode_eq]
    exact hI.link
  idle := by
    intro _
    rw [dtSendNode_eq]
    exact hI.idle (by rw [hpc]; decide)
  fresh := by
    intro _
    rw [dtSendNode_eq]
    exact hI.fresh (Or.inl hpc)
  begun := by
    rw [dtSendNode_eq]
    exact hI.begun
  next := by
    intro _
    refine ⟨_, firstOut_sendNode hI hpc i, ?_⟩
    cases hq : s.g_sq.head? with
    | none => rfl
    | some f => exact hok f hq

theorem Inv.up (hI : Inv s) (hpc : s.pc = .registered) : Inv { s with pc := .up } where
  past := hI.past
  link := hI.link
  idle := by
    intro h
    exact absurd rfl h
  fresh := by
    rintro (h | h) <;> cases h
  begun := hI.begun
  next := by
    intro _
    exact hI.next (Or.inl hpc)

theorem Inv.take {f : DtFrame} {rest : List DtFrame} (hI : Inv s) (hpc : s.pc = .up)
    (hc : s.cur = none) (hq : s.g_sq = f :: rest) :
    Inv { s with g_sq := rest, cur := some (f, 0) } where
  past := hI.past
  link := hI.link
  idle := by
    intro h
    exact absurd hpc h
  fresh := by
    intro h
    rw [show s.pc = .up from hpc] at h
    rcases h with h | h <;> cases h
  begun := by
    intro g off h hne
    cases h
    exact absurd rfl hne
  next := by
    intro _
    obtain ⟨g, hg, hn⟩ := hI.next (Or.inr hpc)
    refine ⟨g, ?_, hn⟩
    rw [← hg]
    unfold firstOut
    rw [hc, hq]
    rfl

/-- what goes out first is not changed by a write -/
theorem head_wrote {f g : DtFrame} {off : Nat} (hI : Inv s) (hc : s.cur = some (f, off))
    (hg : s.firstOut = some g) (k : Nat) : (s.wrote f off k).frames.head? = some g := by
  unfold firstOut at hg
  rw [hc] at hg
  unfold wrote
  dsimp only
  rcases Option.or_eq_some_iff.mp hg with hl | ⟨hl, hg⟩
  · split
    · rw [List.head?_append, hl, Option.some_or]
    · exact hl
  · have hempty : s.link.frames = [] := List.head?_eq_none_iff.mp hl
    have hoff : off = 0 := by
      by_contra hne
      exact hI.begun f off hc hne hempty
    rw [if_pos hoff, hempty]
    exact hg

/-- after a write, whatever is in hand then -/
theorem Inv.wrote {f : DtFrame} {off : Nat} (hI : Inv s) (hpc : s.pc = .up)
    (hc : s.cur = some (f, off)) (k n : Nat) (c : Option (DtFrame × Nat)) :
    Inv { s with cur := c, g_sq_bytes := n, link := s.wrote f off k } := by
  obtain ⟨g, hg, hn⟩ := hI.next (Or.inr hpc)
  have hhead := head_wrote hI hc hg k
  exact {
    past := hI.past
    link := by
      intro x hx
      rw [show (s.wrote f off k).frames.head? = some g from hhead] at hx
      cases hx
      exact hn
    idle := fun h => absurd hpc h
    fresh := by
      intro h
      rw [show s.pc = .up from hpc] at h
      rcases h with h | h <;> cases h
    begun := by
      intro x o _ _ hempty
      rw [show (s.wrote f off k).frames = [] from hempty] at hhead
      cases hhead
    next := by
      intro _
      refine ⟨g, ?_, hn⟩
      unfold firstOut
      rw [show ({ s with cur := c, g_sq_bytes := n, link := s.wrote f off k } : Ctl).link.frames.head?
        = some g from hhead, Option.some_or] }

/-- the frame in hand goes back or dies; nothing is in hand then -/
theorem requeue_cases (s : Ctl) : ∃ q n,
    s.requeue = { s with g_sq := q, g_sq_bytes := n, cur := none } := by
  unfold requeue
  split
  · next f h => exact ⟨f :: s.g_sq, s.g_sq_bytes, rfl⟩
  · next f off _ h => exact ⟨s.g_sq, s.g_sq_bytes - f.n, rfl⟩
  · next h => exact ⟨s.g_sq, s.g_sq_bytes, by rw [← h]⟩

theorem Inv.redial (hI : Inv s) :
    Inv { s.requeue with pc := .down, past := s.past ++ [s.link] } := by
  obtain ⟨q, n, e⟩ := requeue_cases s
  rw [e]
  exact {
    past := by
      intro l hl f hf
      rcases List.mem_append.mp hl with hl | hl
      · exact hI.past l hl f hf
      · rw [List.mem_singleton.mp hl] at hf
        exact hI.link f hf
    link := hI.link
    idle := fun _ => rfl
    fresh := by rintro (h | h) <;> cases h
    begun := by
      intro f off h
      cases h
    next := by rintro (h | h) <;> cases h }

theorem step_take (h : s.step g_udp_tcp .take = some s') : ∃ f rest,
    s.pc = .up ∧ s.cur = none ∧ s.g_sq = f :: rest ∧
      s' = { s with g_sq := rest, cur := some (f, 0) } := by
  unfold step at h
  dsimp only at h
  split at h
  · next f rest hpc hc hq => exact ⟨f, rest, hpc, hc, hq, (Option.some.inj h).symm⟩
  · cases h

/-- a write leaves the rest of the frame in hand, or the frame is done -/
theorem step_sent {k : Nat} (h : s.step g_udp_tcp (.sent k) = some s') : ∃ f off,
    s.pc = .up ∧ s.cur = some (f, off) ∧ 0 < k ∧
      ((off + k < f.n ∧ s' = { s with cur := some (f, off + k), link := s.wrote f off k }) ∨
        (off + k = f.n ∧ s' = { s with
          cur := none, g_sq_bytes := s.g_sq_bytes - f.n, link := s.wrote f off k })) := by
  unfold step at h
  dsimp only at h
  split at h
  · next f off hpc hc =>
    obtain ⟨⟨hk, hle⟩, h⟩ := Option.ite_none_right_eq_some.mp h
    refine ⟨f, off, hpc, hc, hk, ?_⟩
    split at h
    · next hlt => exact Or.inl ⟨hlt, (Option.some.inj h).symm⟩
    · next hge => exact Or.inr ⟨by omega, (Option.some.inj h).symm⟩
  · cases h

theorem Inv.step {a : CtlAct} (hI : Inv s) (hok : s.StepOk a)
    (hs : s.step g_udp_tcp a = some s') : Inv s' := by
  cases a with
  | queue type p =>
    cases hs
    exact hI.queue type p
  | connect =>
    obtain ⟨hpc, h⟩ := Option.ite_none_right_eq_some.mp hs
    cases h
    exact hI.connect hpc
  | sendNode i =>
    obtain ⟨hpc, h⟩ := Option.ite_none_right_eq_some.mp hs
    cases h
    exact hI.sendNode hpc hok
  | udpMode =>
    obtain ⟨hpc, h⟩ := Option.ite_none_right_eq_some.mp hs
    cases h
    split
    · apply (hI.queue DT_UDP_MODE []).up
      obtain ⟨l, n, e⟩ := dtTcpQueue_cases (s := s) DT_UDP_MODE []
      rw [e]
      exact hpc
    · exact hI.up hpc
  | take =>
    obtain ⟨f, rest, hpc, hc, hq, rfl⟩ := step_take hs
    exact hI.take hpc hc hq
  | sent k =>
    obtain ⟨f, off, hpc, hc, -, ⟨-, rfl⟩ | ⟨-, rfl⟩⟩ := step_sent hs
    · exact hI.wrote hpc hc k s.g_sq_bytes (some (f, off + k))
    · exact hI.wrote hpc hc k (s.g_sq_bytes - f.n) none
  | redial =>
    obtain ⟨-, h⟩ := Option.ite_none_right_eq_some.mp hs
    cases h
    exact hI.redial

/-- a registration behind another frame: that frame goes out first -/
theorem Inv.step_bad {a : CtlAct} (hI : Inv s) (hbad : ¬ s.StepOk a)
    (hs : s.step g_udp_tcp a = some s') : ¬ Registered s' := by
  cases a with
  | sendNode i =>
    obtain ⟨hpc, h⟩ := Option.ite_none_right_eq_some.mp hs
    cases h
    intro hreg
    obtain ⟨f, hf, hn⟩ := hreg.next (Or.inl rfl)
    rw [firstOut_sendNode hI hpc i] at hf
    apply hbad
    intro g hg
    rw [show s.g_sq.head? = some g from hg] at hf
    cases hf
    exact hn
  | _ => exact absurd trivial hbad

/-- **Registration first.**  Over any redials and any frames queued at any time by other threads,
every connection starts with `DT_NODE` exactly when the registration of every new connection finds
the queue empty or headed by an older registration. -/
theorem registered_iff {tr : List (Ctl × CtlAct)} (h : Path (step · g_udp_tcp) boot tr t) :
    (∀ u ∈ visited tr t, Registered u) ↔ ∀ x ∈ tr, StepOk x.1 x.2 :=
  h.all_iff_ok inv_boot (fun _ hI => hI.toRegistered) (fun _ _ _ hI hok hs => hI.step hok hs)
    (fun _ _ _ hI hbad hs => hI.step_bad hbad hs)

/-- a link registers, breaks and is dialled again with nothing queued in between -/
def quietRedial : List CtlAct :=
  [.connect, .sendNode ⟨[], 7, 4000, false⟩, .udpMode, .take, .sent 15, .take, .sent 5, .redial,
   .connect, .sendNode ⟨[], 7, 4000, false⟩, .udpMode, .take, .sent 15]

theorem registered_quietRedial : ∃ t, run (step · true) boot quietRedial = some t ∧
    ∀ u ∈ visited (trace (step · true) boot quietRedial) t, Registered u := by
  have hsome : (run (step · true) boot quietRedial).isSome = true := by decide
  obtain ⟨t, ht⟩ := Option.isSome_iff_exists.mp hsome
  have hok : ∀ x ∈ trace (step · true) boot quietRedial, StepOk x.1 x.2 := by decide
  exact ⟨t, ht, (registered_iff (path_run ht)).mpr hok⟩

/-- a stream is half-closed while the link is down -/
def finWhileDown : List CtlAct :=
  [.connect, .sendNode ⟨[], 7, 4000, false⟩, .udpMode, .take, .sent 15, .redial,
   .queue DT_STSHUT [0, 0, 0, 9], .connect, .sendNode ⟨[], 7, 4000, false⟩, .udpMode, .take, .sent 9]

/-- the half-close is the first frame on the next connection -/
theorem stshut_first : ∃ t, run (step · false) boot finWhileDown = some t ∧
    t.link = ⟨[0, 0, 0, 5, 0x0D, 0, 0, 0, 9], [dtFrame DT_STSHUT [0, 0, 0, 9]]⟩ := by
  have hsome : (run (step · false) boot finWhileDown).isSome = true := by decide
  obtain ⟨t, ht⟩ := Option.isSome_iff_exists.mp hsome
  have hall : ∀ u ∈ run (step · false) boot finWhileDown,
      u.link = ⟨[0, 0, 0, 5, 0x0D, 0, 0, 0, 9], [dtFrame DT_STSHUT [0, 0, 0, 9]]⟩ := by
    decide
  exact ⟨t, ht, hall t ht⟩

/-! ## what the relay receives -/

/-- the bytes of the link's frames, of which the last may be cut short -/
def Cut (l : CtlLink) : Prop :=
  ∃ whole rest, l.out = whole.flatMap DtFrame.p ++ rest ∧
    (l.frames = whole ∧ rest = [] ∨ ∃ f, l.frames = whole ++ [f] ∧ rest <+: f.p ∧ rest ≠ [])

structure Written (s : Ctl) : Prop where
  past : ∀ l ∈ s.past, Cut l
  idle : s.pc ≠ .up → s.cur = none
  whole : s.pc ≠ .down → s.cur = none → s.link.out = s.link.frames.flatMap DtFrame.p
  part : ∀ f off, s.cur = some (f, off) → off ≤ f.n ∧ ∃ whole,
    s.link.out = whole.flatMap DtFrame.p ++ f.p.take off ∧
      s.link.frames = if off = 0 then whole else whole ++ [f]

theorem Written.cut (h : Written s) (hpc : s.pc ≠ .down) : Cut s.link := by
  cases hc : s.cur with
  | none => exact ⟨s.link.frames, [], by rw [List.append_nil, h.whole hpc hc], Or.inl ⟨rfl, rfl⟩⟩
  | some c =>
    obtain ⟨f, off⟩ := c
    obtain ⟨hle, whole, hout, hfr⟩ := h.part f off hc
    refine ⟨whole, f.p.take off, hout, ?_⟩
    by_cases hoff : off = 0
    · left
      rw [if_pos hoff] at hfr
      exact ⟨hfr, by rw [hoff, List.take_zero]⟩
    · right
      rw [if_neg hoff] at hfr
      refine ⟨f, hfr, List.take_prefix off f.p, fun hnil => hoff ?_⟩
      have hlen := congrArg List.length hnil
      rw [List.length_take, List.length_nil] at hlen
      have hn : off ≤ f.p.length := hle
      omega

/-- the bytes after a write are those of the frames before it and the part that is out now -/
theorem Written.wrote {f : DtFrame} {off : Nat} (h : Written s) (hc : s.cur = some (f, off))
    (k : Nat) : ∃ whole, (s.wrote f off k).out = whole.flatMap DtFrame.p ++ f.p.take (off + k) ∧
      (s.wrote f off k).frames = whole ++ [f] := by
  obtain ⟨-, whole, hout, hfr⟩ := h.part f off hc
  refine ⟨whole, ?_, ?_⟩
  · show s.link.out ++ slice f.p off (off + k) = _
    rw [hout, List.append_assoc, slice, Nat.add_sub_cancel_left, ← List.take_add]
  · show (if off = 0 then s.link.frames ++ [f] else s.link.frames) = _
    rw [hfr]
    by_cases hoff : off = 0
    · rw [if_pos hoff, if_pos hoff]
    · rw [if_neg hoff, if_neg hoff]

theorem Written.append {l : List DtFrame} {n : Nat} (h : Written s) :
    Written { s with g_sq := s.g_sq ++ l, g_sq_bytes := n } where
  past := h.past
  idle := h.idle
  whole := h.whole
  part := h.part

theorem Written.pc {p : CtlPc} (h : Written s) (hpc : s.pc ≠ .down) (hc : s.cur = none) :
    Written { s with pc := p } where
  past := h.past
  idle := fun _ => hc
  whole := fun _ => h.whole hpc
  part := h.part

theorem Written.queue (h : Written s) (type : UInt8) (p : Bytes) :
    Written (s.dtTcpQueue type p) ∧ (s.dtTcpQueue type p).cur = s.cur ∧
      (s.dtTcpQueue type p).pc = s.pc := by
  obtain ⟨l, n, e⟩ := dtTcpQueue_cases (s := s) type p
  rw [e]
  exact ⟨h.append, rfl, rfl⟩

theorem Written.step {a : CtlAct} (h : Written s) (hs : s.step g_udp_tcp a = some s') :
    Written s' := by
  cases a with
  | queue type p =>
    cases hs
    exact (h.queue type p).1
  | connect =>
    obtain ⟨hpc, hs⟩ := Option.ite_none_right_eq_some.mp hs
    cases hs
    have hnone := h.idle (by rw [hpc]; decide)
    exact {
      past := h.past
      idle := fun _ => hnone
      whole := fun _ _ => rfl
      part := by
        intro f off hc
        rw [show s.cur = some (f, off) from hc] at hnone
        cases hnone }
  | sendNode i =>
    obtain ⟨hpc, hs⟩ := Option.ite_none_right_eq_some.mp hs
    cases hs
    obtain ⟨hw, hcur, hp⟩ := h.queue DT_NODE (nodePayload i)
    exact hw.pc (by rw [hp, hpc]; decide) (hcur.trans (h.idle (by rw [hpc]; decide)))
  | udpMode =>
    obtain ⟨hpc, hs⟩ := Option.ite_none_right_eq_some.mp hs
    cases hs
    have hnone := h.idle (by rw [hpc]; decide)
    split
    · obtain ⟨hw, hcur, hp⟩ := h.queue DT_UDP_MODE []
      exact hw.pc (by rw [hp, hpc]; decide) (hcur.trans hnone)
    · exact h.pc (by rw [hpc]; decide) hnone
  | take =>
    obtain ⟨f, rest, hpc, hc, hq, rfl⟩ := step_take hs
    exact {
      past := h.past
      idle := fun hne => absurd hpc hne
      whole := by
        intro _ hnone
        cases hnone
      part := by
        intro g off hg
        cases hg
        refine ⟨Nat.zero_le _, s.link.frames, ?_, rfl⟩
        rw [List.take_zero, List.append_nil]
        exact h.whole (by rw [hpc]; decide) hc }
  | sent k =>
    obtain ⟨f, off, hpc, hc, hk, hcase⟩ := step_sent hs
    obtain ⟨whole, hout, hfr⟩ := h.wrote hc k
    rcases hcase with ⟨hlt, rfl⟩ | ⟨hdone, rfl⟩
    · exact {
        past := h.past
        idle := fun hne => absurd hpc hne
        whole := by
          intro _ hnone
          cases hnone
        part := by
          intro g o hg
          cases hg
          exact ⟨Nat.le_of_lt hlt, whole, hout, by rw [if_neg (by omega)]; exact hfr⟩ }
    · exact {
        past := h.past
        idle := fun _ => rfl
        whole := by
          intro _ _
          have hall : f.p.take (off + k) = f.p := by
            rw [hdone]
            exact List.take_length
          show (s.wrote f off k).out = (s.wrote f off k).frames.flatMap DtFrame.p
          rw [hout, hfr, hall, List.flatMap_append, List.flatMap_singleton]
        part := by
          intro g o hg
          cases hg }
  | redial =>
    obtain ⟨hpc, hs⟩ := Option.ite_none_right_eq_some.mp hs
    cases hs
    have hcut := h.cut (by rw [hpc]; decide)
    obtain ⟨q, n, e⟩ := requeue_cases s
    rw [e]
    exact {
      past := by
        intro l hl
        rcases List.mem_append.mp hl with hl | hl
        · exact h.past l hl
        · rw [List.mem_singleton.mp hl]
          exact hcut
      idle := fun _ => rfl
      whole := fun hne => absurd rfl hne
      part := by
        intro f off hc
        cases hc }

/-- on every connection the relay receives the frames that were begun on it, the last one perhaps
cut short -/
theorem link_bytes {tr : List (Ctl × CtlAct)} (h : Path (step · g_udp_tcp) boot tr t) :
    (∀ l ∈ t.past, Cut l) ∧ (t.pc ≠ .down → Cut t.link) := by
  have h0 : Written boot := {
    past := by
      intro l hl
      cases hl
    idle := fun _ => rfl
    whole := fun hne => absurd rfl hne
    part := by
      intro f off hc
      cases hc }
  have hw : Written t := h.inv h0 fun _ _ _ hw hs => hw.step hs
  exact ⟨hw.past, hw.cut⟩

end Ctl

end ShadowLan
