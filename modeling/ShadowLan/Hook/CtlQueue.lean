import Mathlib.Algebra.Ring.Nat
import ShadowLan.Hook.Control

/-!
# Every frame of the control queue

What `dt_tcp_queue` accepts is begun on one connection, in the order it was accepted, or is still
waiting.  The frame in hand lives outside the list: a redial puts it back if nothing of it is
written, and else gives it up.

* `accepted`      the frames that entered the queue along a run;
* `CtlLink.whole` the frames of a connection that are written whole;
* `waiting`       the frames that are begun on no connection;
* `Kept`          what one step keeps of all this;
* `queue_whole`   the count, the bytes, the order and the fate of the frames, in every run.
-/

namespace ShadowLan

/-- the frames that the socket has taken completely -/
def CtlLink.whole (l : CtlLink) : List DtFrame :=
  if (l.frames.map DtFrame.n).sum ≤ l.out.length then l.frames else l.frames.dropLast

/-- The link has `whole` frames, and of the frame `cut` the first bytes. -/
def CtlLink.Split (l : CtlLink) (whole : List DtFrame) (cut : Option (DtFrame × Nat)) : Prop :=
  match cut with
  | none => l.frames = whole ∧ l.out = whole.flatMap DtFrame.p
  | some (f, off) => l.frames = whole ++ [f] ∧ l.out = whole.flatMap DtFrame.p ++ f.p.take off ∧
      0 < off ∧ off < f.n

/-- a datagram of the game or a beacon -/
def droppable (type : UInt8) : Prop := type = DT_UDP_TUN ∨ type = DT_BCAST

namespace Ctl
variable (s : Ctl)

/-- the frames that a `dt_tcp_queue` adds to the queue -/
def kept (type : UInt8) (p : Bytes) : List DtFrame :=
  if (type = DT_UDP_TUN ∨ type = DT_BCAST) ∧ DT_CTLQ_DROP < s.g_sq_bytes + (dtFrame type p).n then []
  else [dtFrame type p]

/-- the frames that enter the queue with a step -/
def entered (g_udp_tcp : Bool) : CtlAct → List DtFrame
  | .queue type p => s.kept type p
  | .sendNode i => s.kept DT_NODE (nodePayload i)
  | .udpMode => if g_udp_tcp then s.kept DT_UDP_MODE [] else []
  | _ => []

/-- the frames that entered the queue along a run -/
def accepted (g_udp_tcp : Bool) (tr : List (Ctl × CtlAct)) : List DtFrame :=
  tr.flatMap fun x => x.1.entered g_udp_tcp x.2

/-- the connections, the one of the moment last -/
def links : List CtlLink := if s.pc = .down then s.past else s.past ++ [s.link]

/-- the frame in hand, once part of it is written -/
def inHand : Option (DtFrame × Nat) := s.cur.filter fun c => c.2 != 0

/-- the frame in hand, before anything of it is written -/
def untouched : List DtFrame :=
  match s.cur with
  | some (f, 0) => [f]
  | _ => []

def waiting : List DtFrame := s.untouched ++ s.g_sq

variable {s}

theorem inHand_none (hc : s.cur = none) : s.inHand = none := by
  unfold inHand
  rw [hc]
  rfl

theorem inHand_untouched {f : DtFrame} (hc : s.cur = some (f, 0)) : s.inHand = none := by
  unfold inHand
  rw [hc]
  rfl

theorem inHand_cut {f : DtFrame} {off : Nat} (hc : s.cur = some (f, off)) (h : off ≠ 0) :
    s.inHand = some (f, off) := by
  unfold inHand
  rw [hc]
  exact Option.filter_some_pos (bne_iff_ne.mpr h)

theorem untouched_cut {f : DtFrame} {off : Nat} (hc : s.cur = some (f, off)) (h : off ≠ 0) :
    s.untouched = [] := by
  unfold untouched
  rw [hc]
  cases off with
  | zero => exact absurd rfl h
  | succ off => rfl

end Ctl

/-! ## one connection -/

namespace CtlLink
variable {l : CtlLink} {whole : List DtFrame} {cut : Option (DtFrame × Nat)}

theorem length_flatMap (fs : List DtFrame) : (fs.flatMap DtFrame.p).length = (fs.map DtFrame.n).sum := by
  rw [List.length_flatMap]
  rfl

/-- the frames that are written whole are told by the length of what was written -/
theorem Split.whole_eq (h : l.Split whole cut) : l.whole = whole := by
  unfold CtlLink.whole
  cases cut with
  | none =>
    obtain ⟨hf, ho⟩ := h
    rw [hf, ho, length_flatMap, if_pos (Nat.le_refl _)]
  | some c =>
    obtain ⟨f, off⟩ := c
    obtain ⟨hf, ho, -, hlt⟩ := h
    have hlen : f.n = f.p.length := rfl
    rw [hf, ho, List.length_append, length_flatMap, List.map_append, List.sum_append, List.length_take,
      if_neg (by
        rw [List.map_singleton, List.sum_singleton]
        omega),
      List.dropLast_concat]

theorem Split.sublist (h : l.Split whole cut) : whole.Sublist l.frames := by
  cases cut with
  | none => rw [h.1]
  | some c =>
    rw [h.1]
    exact List.sublist_append_left _ _

end CtlLink

/-! ## what a step keeps -/

namespace Ctl
variable {s s' t : Ctl} {g_udp_tcp : Bool} {acc : List DtFrame}

/-- the queued bytes: those of the list, and all of the frame in hand -/
def queuedBytes (s : Ctl) : Nat := (s.g_sq.map DtFrame.n).sum + (s.cur.map fun c => c.1.n).getD 0

structure Kept (s : Ctl) (acc : List DtFrame) : Prop where
  bytes : s.g_sq_bytes = s.queuedBytes
  log : acc = s.links.flatMap CtlLink.frames ++ s.waiting
  full : ∀ f ∈ acc, 0 < f.n
  idle : s.pc ≠ .up → s.cur = none
  past : ∀ l ∈ s.past, ∃ whole cut, l.Split whole cut
  link : s.pc ≠ .down → ∃ whole, s.link.Split whole s.inHand

theorem kept_boot : Kept boot [] where
  bytes := rfl
  log := rfl
  full := fun _ h => absurd h List.not_mem_nil
  idle := fun _ => rfl
  past := fun _ h => absurd h List.not_mem_nil
  link := fun h => absurd rfl h

/-- frames enter the queue, and the thread goes on to `pc` -/
def enter (s : Ctl) (l : List DtFrame) (pc : CtlPc) : Ctl :=
  { s with
    g_sq := s.g_sq ++ l
    g_sq_bytes := s.g_sq_bytes + (l.map DtFrame.n).sum
    pc := pc }

/-- what `dt_tcp_queue` does -/
theorem dtTcpQueue_eq (type : UInt8) (p : Bytes) :
    s.dtTcpQueue type p = s.enter (s.kept type p) s.pc := by
  unfold dtTcpQueue kept enter
  split
  · rw [List.append_nil]
    rfl
  · rw [List.map_singleton, List.sum_singleton]

theorem kept_full (type : UInt8) (p : Bytes) : ∀ f ∈ s.kept type p, 0 < f.n := by
  intro f hf
  unfold kept at hf
  split at hf
  · exact absurd hf List.not_mem_nil
  · rw [List.mem_singleton.mp hf]
    exact Nat.zero_lt_succ _

/-- the thread has no frame in hand where it goes on, or stays -/
theorem Kept.enter (h : s.Kept acc) {l : List DtFrame} {pc : CtlPc} (hl : ∀ f ∈ l, 0 < f.n)
    (hpc : pc = s.pc ∨ pc ≠ .down ∧ s.pc ≠ .down ∧ s.cur = none) :
    (s.enter l pc).Kept (acc ++ l) where
  bytes := by
    have hb := h.bytes
    unfold queuedBytes at hb ⊢
    unfold Ctl.enter
    dsimp only
    rw [List.map_append, List.sum_append, hb]
    omega
  log := by
    have hlinks : (s.enter l pc).links = s.links := by
      unfold links Ctl.enter
      dsimp only
      rcases hpc with rfl | ⟨h1, h2, -⟩
      · rfl
      · rw [if_neg h1, if_neg h2]
    rw [hlinks, h.log]
    show s.links.flatMap CtlLink.frames ++ (s.untouched ++ s.g_sq) ++ l =
      s.links.flatMap CtlLink.frames ++ (s.untouched ++ (s.g_sq ++ l))
    simp only [List.append_assoc]
  full := fun f hf => by
    rcases List.mem_append.mp hf with hf | hf
    · exact h.full f hf
    · exact hl f hf
  idle := fun hne => by
    rcases hpc with rfl | ⟨-, -, hc⟩
    · exact h.idle hne
    · exact hc
  past := h.past
  link := fun hne => by
    rcases hpc with rfl | ⟨-, h2, -⟩
    · exact h.link hne
    · exact h.link h2

theorem Kept.connect (h : s.Kept acc) (hpc : s.pc = .down) :
    ({ s with pc := .connected, link := ⟨[], []⟩ } : Ctl).Kept acc := by
  have hnone := h.idle (by rw [hpc]; decide)
  have hlinks : s.links = s.past := if_pos hpc
  exact {
    bytes := h.bytes
    log := by
      rw [h.log, hlinks]
      show _ = (s.past ++ [(⟨[], []⟩ : CtlLink)]).flatMap CtlLink.frames ++ s.waiting
      rw [List.flatMap_append, List.flatMap_singleton, List.append_nil]
    full := h.full
    idle := fun _ => hnone
    past := h.past
    link := fun _ => by
      have hin : ({ s with pc := .connected, link := ⟨[], []⟩ } : Ctl).inHand = none :=
        inHand_none hnone
      refine ⟨[], ?_⟩
      rw [hin]
      exact ⟨rfl, rfl⟩ }

theorem Kept.take (h : s.Kept acc) (hpc : s.pc = .up) (hc : s.cur = none) {f : DtFrame}
    {rest : List DtFrame} (hq : s.g_sq = f :: rest) :
    ({ s with g_sq := rest, cur := some (f, 0) } : Ctl).Kept acc where
  bytes := by
    have hb := h.bytes
    unfold queuedBytes at hb ⊢
    rw [hq, hc] at hb
    rw [hb]
    show f.n + (rest.map DtFrame.n).sum + 0 = (rest.map DtFrame.n).sum + f.n
    omega
  log := by
    rw [h.log]
    show s.links.flatMap CtlLink.frames ++ (s.untouched ++ s.g_sq) =
      s.links.flatMap CtlLink.frames ++ ([f] ++ rest)
    unfold untouched
    rw [hc, hq]
    rfl
  full := h.full
  idle := fun hne => absurd hpc hne
  past := h.past
  link := fun hne => by
    obtain ⟨whole, hw⟩ := h.link hne
    rw [inHand_none hc] at hw
    exact ⟨whole, hw⟩

/-- the link after a write: the frame is cut further on, or whole -/
theorem Kept.split_wrote (h : s.Kept acc) (hpc : s.pc = .up) {f : DtFrame} {off : Nat}
    (hc : s.cur = some (f, off)) (k : Nat) :
    ∃ whole, (s.wrote f off k).frames = whole ++ [f] ∧
      (s.wrote f off k).out = whole.flatMap DtFrame.p ++ f.p.take (off + k) := by
  obtain ⟨whole, hw⟩ := h.link (by rw [hpc]; decide)
  have hslice : slice f.p off (off + k) = (f.p.drop off).take k := by
    unfold slice
    rw [Nat.add_sub_cancel_left]
  refine ⟨whole, ?_⟩
  show (if off = 0 then s.link.frames ++ [f] else s.link.frames) = whole ++ [f] ∧
    s.link.out ++ slice f.p off (off + k) = whole.flatMap DtFrame.p ++ f.p.take (off + k)
  rw [hslice]
  by_cases hoff : off = 0
  · subst hoff
    rw [inHand_untouched hc] at hw
    obtain ⟨hf, ho⟩ := hw
    rw [if_pos rfl, hf, ho, Nat.zero_add, List.drop_zero]
    exact ⟨rfl, rfl⟩
  · rw [inHand_cut hc hoff] at hw
    obtain ⟨hf, ho, -, -⟩ := hw
    rw [if_neg hoff, hf, ho, List.append_assoc, ← List.take_add]
    exact ⟨rfl, rfl⟩

/-- what waits, and what is begun, after a write -/
theorem Kept.log_wrote (h : s.Kept acc) (hpc : s.pc = .up) {f : DtFrame} {off k : Nat}
    (hc : s.cur = some (f, off)) :
    acc = (s.past ++ [s.wrote f off k]).flatMap CtlLink.frames ++ s.g_sq := by
  have hlinks : s.links = s.past ++ [s.link] := if_neg (by rw [hpc]; decide)
  have hfr : (s.wrote f off k).frames = if off = 0 then s.link.frames ++ [f] else s.link.frames := rfl
  rw [h.log, hlinks, waiting, untouched, hc]
  simp only [List.flatMap_append, List.flatMap_singleton, List.append_assoc, hfr]
  cases off with
  | zero => simp only [if_pos, List.append_assoc]
  | succ off =>
    rw [if_neg (Nat.succ_ne_zero off)]
    rfl

theorem Kept.sent (h : s.Kept acc) {k : Nat} (hs : s.step g_udp_tcp (.sent k) = some s') :
    s'.Kept acc := by
  obtain ⟨f, off, hpc, hc, hk, hcase⟩ := step_sent hs
  have hlinks : ∀ c n, ({ s with cur := c, g_sq_bytes := n, link := s.wrote f off k } : Ctl).links
      = s.past ++ [s.wrote f off k] := fun c n => if_neg (by rw [hpc]; decide)
  have hlog := h.log_wrote (k := k) hpc hc
  have hb := h.bytes
  unfold queuedBytes at hb
  rw [hc] at hb
  have hcur : ((some (f, off)).map fun c : DtFrame × Nat => c.1.n).getD 0 = f.n := rfl
  rw [hcur] at hb
  rcases hcase with ⟨hlt, rfl⟩ | ⟨heq, rfl⟩
  · obtain ⟨whole, hf, ho⟩ := h.split_wrote hpc hc k
    have hpos : off + k ≠ 0 := by omega
    exact {
      bytes := hb
      log := by
        rw [hlinks (some (f, off + k)) s.g_sq_bytes, hlog, waiting,
          @untouched_cut _ f (off + k) rfl hpos]
        rfl
      full := h.full
      idle := fun hne => absurd hpc hne
      past := h.past
      link := fun _ => by
        have hin : ({ s with cur := some (f, off + k), link := s.wrote f off k } : Ctl).inHand =
            some (f, off + k) := inHand_cut rfl hpos
        refine ⟨whole, ?_⟩
        rw [hin]
        exact ⟨hf, ho, Nat.pos_of_ne_zero hpos, hlt⟩ }
  · obtain ⟨whole, hf, ho⟩ := h.split_wrote hpc hc k
    exact {
      bytes := by
        show s.g_sq_bytes - f.n = (s.g_sq.map DtFrame.n).sum + 0
        omega
      log := by
        rw [hlinks none (s.g_sq_bytes - f.n), hlog]
        rfl
      full := h.full
      idle := fun _ => rfl
      past := h.past
      link := fun _ => by
        refine ⟨whole ++ [f], hf, ?_⟩
        have hall : f.p.take (off + k) = f.p := by
          rw [heq]
          exact List.take_length
        show (s.wrote f off k).out = (whole ++ [f]).flatMap DtFrame.p
        rw [ho, hall, List.flatMap_append, List.flatMap_singleton] }

theorem Kept.redial (h : s.Kept acc) (hpc : s.pc = .up) :
    ({ s.requeue with pc := .down, past := s.past ++ [s.link] } : Ctl).Kept acc := by
  have hlinks : s.links = s.past ++ [s.link] := if_neg (by rw [hpc]; decide)
  have hpast : ∀ l ∈ s.past ++ [s.link], ∃ whole cut, l.Split whole cut := by
    intro l hl
    rcases List.mem_append.mp hl with hl | hl
    · exact h.past l hl
    · rw [List.mem_singleton.mp hl]
      obtain ⟨whole, hw⟩ := h.link (by rw [hpc]; decide)
      exact ⟨whole, _, hw⟩
  have hb := h.bytes
  have hlog := h.log
  rw [hlinks] at hlog
  unfold queuedBytes at hb
  unfold waiting untouched at hlog
  unfold requeue
  cases hc : s.cur with
  | none =>
    rw [hc] at hb hlog
    exact {
      bytes := by
        rw [hb]
        unfold queuedBytes
        dsimp only
        rw [hc]
      log := by
        rw [hlog]
        unfold waiting untouched
        dsimp only
        rw [hc]
        rfl
      full := h.full
      idle := fun _ => hc
      past := hpast
      link := fun hne => absurd rfl hne }
  | some c =>
    obtain ⟨f, off⟩ := c
    rw [hc] at hb hlog
    have hcur : ((some (f, off)).map fun c : DtFrame × Nat => c.1.n).getD 0 = f.n := rfl
    rw [hcur] at hb
    cases off with
    | zero =>
      -- untouched: first out on the next link
      exact {
        bytes := by
          show s.g_sq_bytes = f.n + (s.g_sq.map DtFrame.n).sum + 0
          omega
        log := hlog
        full := h.full
        idle := fun _ => rfl
        past := hpast
        link := fun hne => absurd rfl hne }
    | succ off =>
      exact {
        bytes := by
          show s.g_sq_bytes - f.n = (s.g_sq.map DtFrame.n).sum + 0
          omega
        log := hlog
        full := h.full
        idle := fun _ => rfl
        past := hpast
        link := fun hne => absurd rfl hne }

/-- **one step** keeps the count, the bytes and the order -/
theorem Kept.step {a : CtlAct} (h : s.Kept acc) (hs : s.step g_udp_tcp a = some s') :
    s'.Kept (acc ++ s.entered g_udp_tcp a) := by
  cases a with
  | queue type p =>
    rw [← Option.some.inj hs, dtTcpQueue_eq]
    exact h.enter (kept_full type p) (Or.inl rfl)
  | connect =>
    obtain ⟨hpc, e⟩ := Option.ite_none_right_eq_some.mp hs
    rw [← Option.some.inj e]
    show Kept _ (acc ++ [])
    rw [List.append_nil]
    exact h.connect hpc
  | sendNode i =>
    obtain ⟨hpc, e⟩ := Option.ite_none_right_eq_some.mp hs
    rw [← Option.some.inj e, dtSendNode, dtTcpQueue_eq]
    have hno : s.pc ≠ .down := by rw [hpc]; decide
    exact h.enter (kept_full DT_NODE _) (Or.inr ⟨by decide, hno, h.idle (by rw [hpc]; decide)⟩)
  | udpMode =>
    obtain ⟨hpc, e⟩ := Option.ite_none_right_eq_some.mp hs
    have hno : s.pc ≠ .down := by rw [hpc]; decide
    have hnone := h.idle (by rw [hpc]; decide)
    rw [← Option.some.inj e]
    show Kept _ (acc ++ if g_udp_tcp = true then s.kept DT_UDP_MODE [] else [])
    by_cases hu : g_udp_tcp = true
    · rw [if_pos hu, if_pos hu, dtTcpQueue_eq]
      exact h.enter (kept_full DT_UDP_MODE []) (Or.inr ⟨by decide, hno, hnone⟩)
    · rw [if_neg hu, if_neg hu]
      have hl : ∀ f ∈ ([] : List DtFrame), 0 < f.n := fun f hf => absurd hf List.not_mem_nil
      have he : (s.enter [] .up).Kept (acc ++ []) := h.enter hl (Or.inr ⟨by decide, hno, hnone⟩)
      unfold Ctl.enter at he
      rw [List.append_nil s.g_sq] at he
      exact he
  | take =>
    obtain ⟨f, rest, hpc, hc, hq, rfl⟩ := step_take hs
    show Kept _ (acc ++ [])
    rw [List.append_nil]
    exact h.take hpc hc hq
  | sent k =>
    show Kept _ (acc ++ [])
    rw [List.append_nil]
    exact h.sent hs
  | redial =>
    obtain ⟨hpc, e⟩ := Option.ite_none_right_eq_some.mp hs
    rw [← Option.some.inj e]
    show Kept _ (acc ++ [])
    rw [List.append_nil]
    exact h.redial hpc

theorem kept_run {tr : List (Ctl × CtlAct)} (h : Path (step · g_udp_tcp) boot tr t) :
    t.Kept (accepted g_udp_tcp tr) := by
  induction h with
  | nil => exact kept_boot
  | snoc hp hl ih =>
    unfold accepted at ih ⊢
    rw [List.flatMap_append, List.flatMap_singleton]
    exact ih.step hl

/-- the connections are split like those that broke -/
theorem Kept.links_split (h : s.Kept acc) : ∀ l ∈ s.links, ∃ cut, l.Split l.whole cut := by
  intro l hl
  have hex : ∃ whole cut, l.Split whole cut := by
    unfold links at hl
    by_cases hpc : s.pc = .down
    · rw [if_pos hpc] at hl
      exact h.past l hl
    · rw [if_neg hpc] at hl
      rcases List.mem_append.mp hl with hl | hl
      · exact h.past l hl
      · rw [List.mem_singleton.mp hl]
        obtain ⟨whole, hw⟩ := h.link hpc
        exact ⟨whole, _, hw⟩
  obtain ⟨whole, cut, hw⟩ := hex
  exact ⟨cut, hw.whole_eq.symm ▸ hw⟩

theorem sublist_flatMap {ls : List CtlLink} (h : ∀ l ∈ ls, l.whole.Sublist l.frames) :
    (ls.flatMap CtlLink.whole).Sublist (ls.flatMap CtlLink.frames) := by
  induction ls with
  | nil => exact List.Sublist.refl _
  | cons l ls ih =>
    rw [List.flatMap_cons, List.flatMap_cons]
    exact (h l List.mem_cons_self).append (ih fun k hk => h k (List.mem_cons_of_mem l hk))

/-- **The control send queue keeps whole frames.**  In every run `g_sq_bytes` counts the queued frames
and the one being sent; the bytes of every connection are those of whole frames and of one that is cut;
the frames begun on the connections, one connection after the other, and then those that wait are the
accepted frames in their order, so that the frames written whole are accepted frames, each at most once;
and of the connection of the moment all frames are whole but the one in hand, so that a frame is lost
with a connection that broke in the middle of it, and else not. -/
theorem queue_whole {tr : List (Ctl × CtlAct)} (h : Path (step · g_udp_tcp) boot tr t) :
    t.g_sq_bytes = t.queuedBytes ∧
    (∀ l ∈ t.links, ∃ cut, l.Split l.whole cut) ∧
    accepted g_udp_tcp tr = t.links.flatMap CtlLink.frames ++ t.waiting ∧
    (t.links.flatMap CtlLink.whole).Sublist (accepted g_udp_tcp tr) ∧
    (t.pc ≠ .down → t.link.Split t.link.whole t.inHand) ∧
    ∀ x ∈ tr, ∀ type p, x.2 = .queue type p → ¬ droppable type →
      x.1.entered g_udp_tcp x.2 = [dtFrame type p] := by
  have hk := kept_run h
  refine ⟨hk.bytes, hk.links_split, hk.log, ?_, fun hpc => ?_, fun x _ type p hx hno => ?_⟩
  · have hsub := sublist_flatMap fun l (hl : l ∈ t.links) => by
      obtain ⟨cut, hw⟩ := hk.links_split l hl
      exact hw.sublist
    rw [hk.log]
    exact hsub.trans (List.sublist_append_left _ _)
  · obtain ⟨whole, hw⟩ := hk.link hpc
    exact hw.whole_eq.symm ▸ hw
  · rw [hx]
    show x.1.kept type p = [dtFrame type p]
    unfold kept
    exact if_neg fun hd => hno hd.1

/-- a link breaks in the middle of a half-close, with another behind it; the next link starts with the
registration that was queued last -/
def brokenMidFrame : List CtlAct :=
  [.connect, .sendNode ⟨[], 7, 4000, false⟩, .udpMode, .take, .sent 15,
    .queue DT_STSHUT [0, 0, 0, 8], .queue DT_STSHUT [0, 0, 0, 9], .take, .sent 6, .redial,
    .connect, .sendNode ⟨[], 7, 4000, false⟩, .udpMode, .take, .sent 9]

theorem queue_whole_broken : ∃ t tr, Path (step · false) boot tr t ∧
    t.past.map CtlLink.whole = [[dtFrame DT_NODE (nodePayload ⟨[], 7, 4000, false⟩)]] ∧
    t.link.whole = [dtFrame DT_STSHUT [0, 0, 0, 9]] ∧ t.g_sq_bytes = t.queuedBytes := by
  have hsome : (run (step · false) boot brokenMidFrame).isSome = true := by decide
  obtain ⟨t, ht⟩ := Option.isSome_iff_exists.mp hsome
  have hend : (run (step · false) boot brokenMidFrame).all (fun t =>
      t.past.map CtlLink.whole == [[dtFrame DT_NODE (nodePayload ⟨[], 7, 4000, false⟩)]] &&
        t.link.whole == [dtFrame DT_STSHUT [0, 0, 0, 9]]) = true := by decide
  rw [ht, Option.all_some, Bool.and_eq_true, beq_iff_eq, beq_iff_eq] at hend
  have hr := path_run ht
  exact ⟨t, _, hr, hend.1, hend.2, (queue_whole hr).1⟩

end Ctl

end ShadowLan
