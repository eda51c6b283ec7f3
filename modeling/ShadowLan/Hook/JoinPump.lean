import ShadowLan.Lib.Runs
import ShadowLan.Hook.Slot

/-!
# The pump of a hosted stream

After the handshake `dt_join_thread` moves bytes between the local game's socket `real` and the
stream's relay connection `fd`.  Each direction has a hold of one recv, an offset of what is sent of
it and a FIN flag, and reads again only when its hold is empty.

* `Hold`         one direction, with what it read and what it wrote;
* `Pump`         both directions and where the thread is;
* `Pump.step`    a loop head, a `select`, one `send` or `recv`, or a round of the final drain;
* `hosted_pump`  what is written is a prefix of what was read, and all of it when the thread leaves
                 by the two FINs.

The answers of the kernel are the labels: every order of partial sends, stalls and FINs is a run.
-/

namespace ShadowLan

/-- the size of `obuf` and of `ibuf` -/
def HOLD_SIZE : Nat := 65536

/-- how long the final drain goes on, in milliseconds -/
def DRAIN_MS : Nat := 500

/-- one direction: its hold (`op_n`, `op_o` in `obuf`), and whether its source has sent FIN -/
structure Hold where
  hold : Chunk Byte
  fin : Bool
  /-- what `recv` gave -/
  got : List Byte
  /-- what `send` took -/
  sent : List Byte
  deriving DecidableEq

/-- the two directions: `op` from the game to the relay, `ip` from the relay to the game -/
inductive Way where
  | op
  | ip
  deriving DecidableEq

/-- the four calls of a turn: `send op` is on `fd`, `send ip` on `real`, `recv op` on `real` and
`recv ip` on `fd` -/
inductive PumpCall where
  | send (w : Way)
  | recv (w : Way)
  deriving DecidableEq

def PumpCall.way : PumpCall → Way
  | .send w | .recv w => w

inductive SendAns where
  | took (k : Nat)
  /-- `EAGAIN`, `EWOULDBLOCK`, and `EINTR` on Linux -/
  | again
  /-- any other error -/
  | err
  deriving DecidableEq

inductive RecvAns where
  | got (b : List Byte)
  | fin
  | again
  | err
  deriving DecidableEq

/-- why the thread left its loop -/
inductive Why where
  /-- `g_tun_run` is cleared -/
  | stopped
  /-- the hosted row is gone, or marked dead -/
  | dead
  /-- both sides have sent FIN -/
  | fins
  | sendErr (w : Way)
  | recvErr (w : Way)
  deriving DecidableEq

inductive PumpAt where
  | top
  | select
  /-- after a `select`: the calls it allows, in the order of the source -/
  | work (todo : List PumpCall)
  /-- in the final drain for `spent` ms, with the sends of the round -/
  | drain (why : Why) (spent : Nat) (todo : List Way)
  /-- the sockets are closed -/
  | closed (why : Why)
  deriving DecidableEq

structure Pump where
  op : Hold
  ip : Hold
  shut_sent : Bool
  eof_sent : Bool
  pc : PumpAt
  deriving DecidableEq

inductive PumpEv where
  /-- the loop head, with `g_tun_run` and `dead` -/
  | head (run dead : Bool)
  /-- `select` fails, or its 25 ms pass -/
  | idle
  /-- `select` returns, with what it leaves of the two sets -/
  | ready (isset : List PumpCall)
  | sent (a : SendAns)
  | recvd (a : RecvAns)
  /-- the test of the final drain, `d` ms after the one before -/
  | round (d : Nat)
  deriving DecidableEq

namespace Hold

def empty : Hold := ⟨⟨[], 0⟩, false, [], []⟩

/-- `opend` and `ipend` -/
def pend (h : Hold) : Bool := decide (h.hold.off < h.hold.n)

/-- `op_o += k`, and `op_n = op_o = 0` when all of it is sent -/
def took (h : Hold) (k : Nat) : Hold :=
  { h with
    hold := if h.hold.n ≤ h.hold.off + k then ⟨[], 0⟩ else ⟨h.hold.p, h.hold.off + k⟩,
    sent := h.sent ++ h.hold.rest.take k }

/-- the same in the final drain, which resets nothing -/
def drained (h : Hold) (k : Nat) : Hold :=
  { h with hold := ⟨h.hold.p, h.hold.off + k⟩, sent := h.sent ++ h.hold.rest.take k }

/-- `op_n = n`, `op_o = 0` -/
def fill (h : Hold) (b : List Byte) : Hold := { h with hold := ⟨b, 0⟩, got := h.got ++ b }

def ended (h : Hold) : Hold := { h with fin := true }

/-- `op_n = op_o = 0` after a hard error of the final drain -/
def drop (h : Hold) : Hold := { h with hold := ⟨[], 0⟩ }

/-- a `send` of the rest of the hold takes `k` bytes of it -/
def canTake (h : Hold) (k : Nat) : Bool := decide (0 < k ∧ k ≤ h.hold.rest.length)

end Hold

/-- a `recv` into an empty hold -/
def RecvAns.fits : RecvAns → Bool
  | .got b => decide (b ≠ [] ∧ b.length ≤ HOLD_SIZE)
  | _ => true

namespace Pump

def fresh : Pump := ⟨.empty, .empty, false, false, .top⟩

def dir (q : Pump) : Way → Hold
  | .op => q.op
  | .ip => q.ip

def setDir (q : Pump) (w : Way) (h : Hold) : Pump :=
  match w with
  | .op => { q with op := h }
  | .ip => { q with ip := h }

def at' (q : Pump) (pc : PumpAt) : Pump := { q with pc := pc }

/-- the `break`s: on to the final drain -/
def leave (q : Pump) (why : Why) : Pump := q.at' (.drain why 0 [])

/-- the end of a call: the next of the turn, or the loop head -/
def next (q : Pump) : List PumpCall → Pump
  | [] => q.at' .top
  | c :: todo => q.at' (.work (c :: todo))

/-- `FD_SET`: to send what is held, or to read when nothing is held and no FIN was read -/
def asks (q : Pump) : PumpCall → Bool
  | .send w => (q.dir w).pend
  | .recv w => !(q.dir w).pend && !(q.dir w).fin

/-- the calls in the order of the source -/
def calls : List PumpCall := [.send .op, .send .ip, .recv .op, .recv .ip]

/-- the loop head: the three ways out, then `DT_STSHUT` and `shutdown(real)` -/
def head (q : Pump) (run dead : Bool) : Pump :=
  if !run then q.leave .stopped
  else if dead then q.leave .dead
  else if q.ip.fin && q.op.fin then q.leave .fins
  else
    { q with
      shut_sent := q.shut_sent || (q.op.fin && q.op.hold.n == q.op.hold.off),
      eof_sent := q.eof_sent || (q.ip.fin && q.ip.hold.n == q.ip.hold.off),
      pc := .select }

/-- `r_send` on the direction's sink -/
def onSend (q : Pump) (w : Way) (todo : List PumpCall) : SendAns → Option Pump
  | .took k =>
    if (q.dir w).canTake k then some ((q.setDir w ((q.dir w).took k)).next todo) else none
  | .again => some (q.next todo)
  | .err => some (q.leave (.sendErr w))

/-- `r_recv` from the direction's source.  On Windows a `recv` on `real` that would block is an error
like any other. -/
def onRecv (linux : Bool) (q : Pump) (w : Way) (todo : List PumpCall) : RecvAns → Option Pump
  | .got b =>
    if (RecvAns.got b).fits then some ((q.setDir w ((q.dir w).fill b)).next todo) else none
  | .fin => some ((q.setDir w (q.dir w).ended).at' .top)
  | .again => some (if linux || w == .ip then q.at' .top else q.leave (.recvErr w))
  | .err => some (q.leave (.recvErr w))

/-- a send of the final drain -/
def onDrain (q : Pump) (w : Way) (why : Why) (spent : Nat) (todo : List Way) :
    SendAns → Option Pump
  | .took k =>
    if (q.dir w).canTake k then
      some ((q.setDir w ((q.dir w).drained k)).at' (.drain why spent todo))
    else none
  | .again => some (q.at' (.drain why spent todo))
  | .err => some ((q.setDir w (q.dir w).drop).at' (.drain why spent todo))

/-- the test of the final drain: a round of sends, or `close` -/
def round (q : Pump) (why : Why) (spent : Nat) : Pump :=
  if (q.ip.pend || q.op.pend) && decide (spent < DRAIN_MS) then
    q.at' (.drain why spent ([Way.ip, .op].filter fun w => (q.dir w).pend))
  else q.at' (.closed why)

def step (linux : Bool) (q : Pump) (e : PumpEv) : Option Pump :=
  match q.pc, e with
  | .top, .head run dead => some (q.head run dead)
  | .select, .idle => some (q.at' .top)
  | .select, .ready isset => some (q.next (calls.filter fun c => q.asks c && isset.contains c))
  | .work (.send w :: todo), .sent a => q.onSend w todo a
  | .work (.recv w :: todo), .recvd a => q.onRecv linux w todo a
  | .drain why spent (w :: todo), .sent a => q.onDrain w why spent todo a
  | .drain why spent [], .round d => some (q.round why (spent + d))
  | _, _ => none

/-- why the thread left its loop, once it has -/
def left (q : Pump) : Option Why :=
  match q.pc with
  | .drain why _ _ | .closed why => some why
  | _ => none

end Pump

/-! ## one direction -/

namespace Hold
variable {h : Hold}

/-- In the loop: what was read is what was sent and what is held, and nothing is held after a FIN. -/
structure Whole (h : Hold) : Prop where
  all : h.sent ++ h.hold.rest = h.got
  done : h.fin = true → h.hold.rest = []

/-- at any time: a drain may have dropped what was held -/
def Behind (h : Hold) : Prop := h.sent ++ h.hold.rest <+: h.got

/-- all that was read is sent -/
def Done (h : Hold) : Prop := h.hold.rest = [] ∧ h.sent = h.got

theorem pend_eq_false : h.pend = false ↔ h.hold.rest = [] := by
  have hlen := Chunk.length_rest h.hold
  constructor
  · intro hp
    have hle : ¬ h.hold.off < h.hold.n := of_decide_eq_false hp
    apply List.eq_nil_of_length_eq_zero
    omega
  · intro hr
    rw [hr, List.length_nil] at hlen
    apply decide_eq_false
    omega

theorem Whole.behind (hw : h.Whole) : h.Behind := ⟨[], (List.append_nil _).trans hw.all⟩

theorem Whole.finished (hw : h.Whole) (hf : h.fin = true) : h.Done := by
  have hr := hw.done hf
  have ha := hw.all
  rw [hr, List.append_nil] at ha
  exact ⟨hr, ha⟩

theorem Behind.sent_sofar (hb : h.Behind) : h.sent <+: h.got :=
  (List.prefix_append _ _).trans hb

theorem whole_empty : empty.Whole := ⟨rfl, fun _ => rfl⟩

/-- what is left of the hold after a send -/
theorem rest_took (k : Nat) : (h.took k).hold.rest = h.hold.rest.drop k := by
  show (if h.hold.n ≤ h.hold.off + k then (⟨[], 0⟩ : Chunk Byte)
    else ⟨h.hold.p, h.hold.off + k⟩).rest = h.hold.rest.drop k
  by_cases hk : h.hold.n ≤ h.hold.off + k
  · rw [if_pos hk]
    symm
    rw [Chunk.rest_mk_zero, List.drop_eq_nil_iff, Chunk.length_rest]
    omega
  · rw [if_neg hk, Chunk.rest_advance]

/-- a partial send moves its bytes from the hold to the sink -/
theorem sent_took (k : Nat) :
    (h.took k).sent ++ (h.took k).hold.rest = h.sent ++ h.hold.rest := by
  rw [rest_took]
  show h.sent ++ h.hold.rest.take k ++ h.hold.rest.drop k = h.sent ++ h.hold.rest
  rw [List.append_assoc, List.take_append_drop]

theorem sent_drained (k : Nat) :
    (h.drained k).sent ++ (h.drained k).hold.rest = h.sent ++ h.hold.rest := by
  show h.sent ++ h.hold.rest.take k ++ (⟨h.hold.p, h.hold.off + k⟩ : Chunk Byte).rest = _
  rw [Chunk.rest_advance, List.append_assoc, List.take_append_drop]

theorem Whole.took (hw : h.Whole) (k : Nat) : (h.took k).Whole where
  all := (sent_took k).trans hw.all
  done := fun hf => by
    rw [rest_took, hw.done hf, List.drop_nil]

theorem Whole.fill (hw : h.Whole) (he : h.hold.rest = []) (hf : h.fin = false) (b : List Byte) :
    (h.fill b).Whole where
  all := by
    have ha := hw.all
    rw [he, List.append_nil] at ha
    show h.sent ++ (⟨b, 0⟩ : Chunk Byte).rest = h.got ++ b
    rw [ha, Chunk.rest_mk_zero]
  done := fun ht => absurd (hf.symm.trans ht) Bool.false_ne_true

theorem Whole.ended (hw : h.Whole) (he : h.hold.rest = []) : h.ended.Whole := ⟨hw.all, fun _ => he⟩

theorem Behind.drained (hb : h.Behind) (k : Nat) : (h.drained k).Behind := by
  unfold Behind
  rw [sent_drained]
  exact hb

theorem Behind.drop (hb : h.Behind) : h.drop.Behind := by
  show h.sent ++ (⟨[], 0⟩ : Chunk Byte).rest <+: h.got
  rw [Chunk.rest_mk_zero, List.append_nil]
  exact hb.sent_sofar

theorem Done.canTake (hd : h.Done) (k : Nat) : h.canTake k = false := by
  unfold Hold.canTake
  rw [hd.1]
  exact decide_eq_false (by simp only [List.length_nil]; omega)

theorem Done.drop (hd : h.Done) : h.drop.Done := ⟨rfl, hd.2⟩

end Hold

/-! ## the pump -/

namespace Pump
variable {q q' : Pump} {linux : Bool}

@[simp] theorem dir_at (pc : PumpAt) (w : Way) : (q.at' pc).dir w = q.dir w := by
  cases w <;> rfl

@[simp] theorem dir_setDir (w : Way) (h : Hold) : (q.setDir w h).dir w = h := by
  cases w <;> rfl

theorem dir_setDir_ne {v w : Way} (hne : v ≠ w) (h : Hold) : (q.setDir w h).dir v = q.dir v := by
  cases v <;> cases w <;> first | rfl | exact absurd rfl hne

@[simp] theorem dir_next (todo : List PumpCall) (w : Way) : (q.next todo).dir w = q.dir w := by
  cases todo <;> exact dir_at _ _

/-- a call of a turn sends what is held, or reads because nothing is: never both -/
theorem asks_excl {w : Way} (hs : q.asks (.send w) = true) : q.asks (.recv w) = false := by
  have hp : (q.dir w).pend = true := hs
  show (!(q.dir w).pend && !(q.dir w).fin) = false
  rw [hp]
  rfl

theorem asks_recv {w : Way} (hr : q.asks (.recv w) = true) :
    (q.dir w).hold.rest = [] ∧ (q.dir w).fin = false := by
  have h : (!(q.dir w).pend && !(q.dir w).fin) = true := hr
  rw [Bool.and_eq_true, Bool.not_eq_true', Bool.not_eq_true'] at h
  exact ⟨Hold.pend_eq_false.mp h.1, h.2⟩

/-- a call asks what the hold of its direction says -/
theorem asks_congr {c : PumpCall} (h : q'.dir (PumpCall.way c) = q.dir (PumpCall.way c)) :
    q'.asks c = q.asks c := by
  cases c with
  | send w => exact congrArg Hold.pend h
  | recv w => exact congrArg (fun d : Hold => !d.pend && !d.fin) h

/-- The calls left of a turn were all asked for, each once. -/
def Planned (q : Pump) (todo : List PumpCall) : Prop := todo.Nodup ∧ ∀ c ∈ todo, q.asks c = true

/-- the calls after the first are about the other direction -/
theorem Planned.way_ne {c d : PumpCall} {todo : List PumpCall} (h : q.Planned (c :: todo))
    (hd : d ∈ todo) : PumpCall.way d ≠ PumpCall.way c := by
  intro heq
  have hc := h.2 c List.mem_cons_self
  have hda := h.2 d (List.mem_cons_of_mem c hd)
  have hne : d ≠ c := fun e => (List.nodup_cons.mp h.1).1 (e ▸ hd)
  cases c with
  | send w =>
    cases d with
    | send v => exact hne (congrArg PumpCall.send heq)
    | recv v =>
      have hv : v = w := heq
      rw [hv, asks_excl hc] at hda
      exact Bool.noConfusion hda
  | recv w =>
    cases d with
    | send v =>
      have hv : v = w := heq
      rw [hv] at hda
      rw [asks_excl hda] at hc
      exact Bool.noConfusion hc
    | recv v => exact hne (congrArg PumpCall.recv heq)

/-- after the first call, whatever it does to its own direction -/
theorem Planned.tail {c : PumpCall} {todo : List PumpCall} (h : q.Planned (c :: todo))
    (hd : ∀ w, w ≠ PumpCall.way c → q'.dir w = q.dir w) : q'.Planned todo := by
  refine ⟨(List.nodup_cons.mp h.1).2, fun d hmem => ?_⟩
  rw [asks_congr (hd _ (h.way_ne hmem))]
  exact h.2 d (List.mem_cons_of_mem c hmem)

/-- What holds at every point of the thread: in the loop nothing is lost, and what was read before the
two FINs is written when they end the loop. -/
structure Sound (q : Pump) : Prop where
  behind : ∀ w, (q.dir w).Behind
  whole : q.left = none → ∀ w, (q.dir w).Whole
  work : ∀ todo, q.pc = .work todo → q.Planned todo
  fins : q.left = some .fins → ∀ w, (q.dir w).fin = true ∧ (q.dir w).Done

theorem sound_fresh : fresh.Sound where
  behind := fun w => by
    cases w <;> exact Hold.whole_empty.behind
  whole := fun _ w => by
    cases w <;> exact Hold.whole_empty
  work := fun _ h => PumpAt.noConfusion h
  fins := fun h => Option.noConfusion rfl (heq_of_eq h)

/-- on in the loop -/
theorem Sound.loop (hw : ∀ w, (q.dir w).Whole) (hl : q.left = none)
    (hp : ∀ todo, q.pc = .work todo → q.Planned todo) : q.Sound where
  behind := fun w => (hw w).behind
  whole := fun _ => hw
  work := hp
  fins := fun h => by
    rw [hl] at h
    cases h

theorem Sound.atTop (hw : ∀ w, (q.dir w).Whole) : (q.at' .top).Sound :=
  Sound.loop (fun w => by rw [dir_at]; exact hw w) rfl fun _ h => PumpAt.noConfusion h

theorem Sound.next {todo : List PumpCall} (hw : ∀ w, (q.dir w).Whole) (hp : q.Planned todo) :
    (q.next todo).Sound := by
  cases todo with
  | nil => exact Sound.atTop hw
  | cons c todo =>
    refine Sound.loop (fun w => by rw [dir_next]; exact hw w) rfl fun todo' h => ?_
    have e : c :: todo = todo' := PumpAt.work.inj h
    rw [← e]
    exact ⟨hp.1, fun d hd => (asks_congr (dir_next _ _)).trans (hp.2 d hd)⟩

/-- out of the loop, not by the FINs -/
theorem Sound.leave (hw : ∀ w, (q.dir w).Whole) {why : Why} (hne : why ≠ .fins) :
    (q.leave why).Sound where
  behind := fun w => (dir_at _ w).symm ▸ (hw w).behind
  whole := fun h => by cases h
  work := fun _ h => PumpAt.noConfusion h
  fins := fun h => absurd (Option.some.inj h) hne

theorem Whole.setDir (hw : ∀ w, (q.dir w).Whole) {v : Way} {h : Hold} (hh : h.Whole) :
    ∀ w, ((q.setDir v h).dir w).Whole := by
  intro w
  by_cases hv : w = v
  · rw [hv, dir_setDir]
    exact hh
  · rw [dir_setDir_ne hv]
    exact hw w

/-! ## what one step does -/

theorem Sound.head (hq : q.Sound) (hpc : q.pc = .top) (run dead : Bool) :
    (q.head run dead).Sound := by
  have hw : ∀ w, (q.dir w).Whole := hq.whole (by rw [left, hpc])
  unfold Pump.head
  by_cases hrun : (!run) = true
  · rw [if_pos hrun]
    exact Sound.leave hw (by decide)
  · rw [if_neg hrun]
    by_cases hd : dead = true
    · rw [if_pos hd]
      exact Sound.leave hw (by decide)
    · rw [if_neg hd]
      by_cases hf : (q.ip.fin && q.op.fin) = true
      · rw [if_pos hf]
        rw [Bool.and_eq_true] at hf
        have hfin : ∀ w, (q.dir w).fin = true := fun w => by
          cases w
          · exact hf.2
          · exact hf.1
        -- both holds are empty: neither FIN is read while its direction holds something
        refine ⟨fun w => ?_, fun h => Option.noConfusion rfl (heq_of_eq h),
          fun _ h => PumpAt.noConfusion h, fun _ w => ?_⟩
        · rw [Pump.leave, dir_at]
          exact (hw w).behind
        · rw [Pump.leave, dir_at]
          exact ⟨hfin w, (hw w).finished (hfin w)⟩
      · rw [if_neg hf]
        refine Sound.loop (fun w => ?_) rfl fun _ h => PumpAt.noConfusion h
        cases w
        · exact hw .op
        · exact hw .ip

theorem Sound.ready (hq : q.Sound) (hpc : q.pc = .select) (isset : List PumpCall) :
    (q.next (calls.filter fun c => q.asks c && isset.contains c)).Sound := by
  have hw : ∀ w, (q.dir w).Whole := hq.whole (by rw [left, hpc])
  refine Sound.next hw ⟨List.Pairwise.filter _ (by decide), fun c hc => ?_⟩
  have hb := (List.mem_filter.mp hc).2
  rw [Bool.and_eq_true] at hb
  exact hb.1

theorem Sound.onSend {w : Way} {todo : List PumpCall} {a : SendAns} (hq : q.Sound)
    (hpc : q.pc = .work (.send w :: todo)) (h : q.onSend w todo a = some q') : q'.Sound := by
  have hw : ∀ v, (q.dir v).Whole := hq.whole (by rw [left, hpc])
  have hp := hq.work _ hpc
  cases a with
  | took k =>
    obtain ⟨-, e⟩ := (Option.ite_none_right_eq_some).mp h
    rw [← Option.some.inj e]
    exact Sound.next (Whole.setDir hw ((hw w).took k)) (hp.tail fun v hv => dir_setDir_ne hv _)
  | again =>
    rw [← Option.some.inj h]
    exact Sound.next hw (hp.tail fun _ _ => rfl)
  | err =>
    rw [← Option.some.inj h]
    exact Sound.leave hw (fun e => Why.noConfusion e)

theorem Sound.onRecv {w : Way} {todo : List PumpCall} {a : RecvAns} (hq : q.Sound)
    (hpc : q.pc = .work (.recv w :: todo)) (h : q.onRecv linux w todo a = some q') : q'.Sound := by
  have hw : ∀ v, (q.dir v).Whole := hq.whole (by rw [left, hpc])
  have hp := hq.work _ hpc
  obtain ⟨he, hf⟩ := asks_recv (hp.2 _ List.mem_cons_self)
  cases a with
  | got b =>
    obtain ⟨-, e⟩ := (Option.ite_none_right_eq_some).mp h
    rw [← Option.some.inj e]
    exact Sound.next (Whole.setDir hw ((hw w).fill he hf b))
      (hp.tail fun v hv => dir_setDir_ne hv _)
  | fin =>
    rw [← Option.some.inj h]
    exact Sound.atTop (Whole.setDir hw ((hw w).ended he))
  | again =>
    rw [← Option.some.inj h]
    by_cases hl : (linux || w == .ip) = true
    · rw [if_pos hl]
      exact Sound.atTop hw
    · rw [if_neg hl]
      exact Sound.leave hw (fun e => Why.noConfusion e)
  | err =>
    rw [← Option.some.inj h]
    exact Sound.leave hw (fun e => Why.noConfusion e)

/-- on in the final drain: the directions stay behind, and done where they were -/
theorem Sound.draining {pc : PumpAt} {why : Why} (hl : (q'.at' pc).left = some why)
    (hb : ∀ w, (q'.dir w).Behind)
    (hf : why = .fins → ∀ w, (q'.dir w).fin = true ∧ (q'.dir w).Done) : (q'.at' pc).Sound where
  behind := fun w => (dir_at pc w).symm ▸ hb w
  whole := fun h => by
    rw [hl] at h
    cases h
  work := fun todo h => by
    have hpc : pc = .work todo := h
    rw [hpc] at hl
    cases hl
  fins := fun h w => by
    rw [hl] at h
    rw [dir_at]
    exact hf (Option.some.inj h) w

theorem Sound.onDrain {w : Way} {why : Why} {spent : Nat} {todo : List Way} {a : SendAns}
    (hq : q.Sound) (hpc : q.pc = .drain why spent (w :: todo))
    (h : q.onDrain w why spent todo a = some q') : q'.Sound := by
  have hl : q.left = some why := by rw [left, hpc]
  have hf : why = .fins → ∀ v, (q.dir v).fin = true ∧ (q.dir v).Done := fun e =>
    hq.fins (hl.trans (congrArg some e))
  cases a with
  | took k =>
    obtain ⟨hk, e⟩ := (Option.ite_none_right_eq_some).mp h
    rw [← Option.some.inj e]
    refine Sound.draining rfl (fun v => ?_) fun ef v => ?_
    · by_cases hv : v = w
      · rw [hv, dir_setDir]
        exact (hq.behind w).drained k
      · rw [dir_setDir_ne hv]
        exact hq.behind v
    · -- after the two FINs nothing is held, so no send takes anything
      rw [((hf ef w).2).canTake k] at hk
      exact Bool.noConfusion hk
  | again =>
    rw [← Option.some.inj h]
    exact Sound.draining rfl hq.behind hf
  | err =>
    rw [← Option.some.inj h]
    refine Sound.draining rfl (fun v => ?_) fun ef v => ?_
    · by_cases hv : v = w
      · rw [hv, dir_setDir]
        exact (hq.behind w).drop
      · rw [dir_setDir_ne hv]
        exact hq.behind v
    · by_cases hv : v = w
      · rw [hv, dir_setDir]
        exact ⟨(hf ef w).1, (hf ef w).2.drop⟩
      · rw [dir_setDir_ne hv]
        exact hf ef v

theorem Sound.round (hq : q.Sound) {why : Why} {spent : Nat}
    (hpc : q.pc = .drain why spent []) (d : Nat) : (q.round why d).Sound := by
  have hl : q.left = some why := by rw [left, hpc]
  have hf : why = .fins → ∀ v, (q.dir v).fin = true ∧ (q.dir v).Done := fun e =>
    hq.fins (hl.trans (congrArg some e))
  unfold Pump.round
  split
  · exact Sound.draining rfl hq.behind hf
  · exact Sound.draining rfl hq.behind hf

theorem Sound.step {e : PumpEv} (hq : q.Sound) (h : q.step linux e = some q') : q'.Sound := by
  generalize hpc : q.pc = pc at *
  unfold Pump.step at h
  rw [hpc] at h
  split at h
  · rw [← Option.some.inj h]
    exact hq.head hpc _ _
  · rw [← Option.some.inj h]
    exact Sound.atTop (hq.whole (by rw [left, hpc]))
  · rw [← Option.some.inj h]
    exact hq.ready hpc _
  · exact hq.onSend hpc h
  · exact hq.onRecv hpc h
  · exact hq.onDrain hpc h
  · rw [← Option.some.inj h]
    exact hq.round hpc _
  · cases h

/-- **The hosted pump loses nothing.**  In every run, what either side was sent is a prefix of what the
other side was read; and when the two FINs end the loop, all that was read is sent, until the sockets
are closed. -/
theorem hosted_pump {tr : List (Pump × PumpEv)} (h : Path (step linux) fresh tr q) :
    (q.op.sent <+: q.op.got ∧ q.ip.sent <+: q.ip.got) ∧
    (q.left = some .fins →
      (q.op.fin = true ∧ q.ip.fin = true) ∧ q.op.sent = q.op.got ∧ q.ip.sent = q.ip.got) := by
  have hq : q.Sound := h.inv sound_fresh fun _ _ _ hs he => hs.step he
  refine ⟨⟨(hq.behind .op).sent_sofar, (hq.behind .ip).sent_sofar⟩, fun hl => ?_⟩
  have ho := hq.fins hl .op
  have hi := hq.fins hl .ip
  exact ⟨⟨ho.1, hi.1⟩, ho.2.2, hi.2.2⟩

/-- the game sends two bytes and FIN while the relay connection stalls, the relay sends one and FIN -/
def twoFins : List PumpEv :=
  [.head true false, .ready [.recv .op, .recv .ip], .recvd (.got [1, 2]), .recvd (.got [3]),
    .head true false, .ready [.send .op, .send .ip], .sent .again, .sent (.took 1),
    .head true false, .ready [.send .op, .recv .ip], .sent (.took 1), .recvd .fin,
    .head true false, .idle,
    .head true false, .ready [.send .op], .sent (.took 1),
    .head true false, .ready [.recv .op], .recvd .fin,
    .head true false, .round 0]

theorem hosted_pump_fins :
    ∃ q tr, Path (step true) fresh tr q ∧ q.pc = .closed .fins ∧ q.op.got = [1, 2] ∧
      q.op.sent <+: q.op.got ∧ q.op.sent = q.op.got ∧ q.ip.sent = q.ip.got := by
  have hsome : (run (step true) fresh twoFins).isSome = true := by decide
  obtain ⟨q, hq⟩ := Option.isSome_iff_exists.mp hsome
  have hend : (run (step true) fresh twoFins).all
      (fun q => q.pc == .closed .fins && q.op.got == [1, 2]) = true := by decide
  rw [hq, Option.all_some, Bool.and_eq_true, beq_iff_eq, beq_iff_eq] at hend
  have hl : q.left = some .fins := by rw [left, hend.1]
  have hr := path_run hq
  obtain ⟨⟨hp, -⟩, hf⟩ := hosted_pump hr
  exact ⟨q, _, hr, hend.1, hend.2, hp, (hf hl).2⟩

end Pump

end ShadowLan
