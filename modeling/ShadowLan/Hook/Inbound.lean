import ShadowLan.Lib.Framing
import ShadowLan.Relay.Streams
import ShadowLan.Wire.Frames

/-!
# What comes in on the control link

`dt_tcp_thread` appends what a `recv` gives to `rbuf`, dispatches every whole frame in it, and moves
the rest to the front.  The buffer grows before a `recv` that would have less than 64 KiB of room, and
when a frame is announced that is larger than the buffer.  A length outside 1 to 8 MiB makes it redial.

* `parse`            the inner loop over the buffer;
* `Inbound.step`     a `select`, a `recv`, and the next connection after a redial;
* `parse_spec`       the inner loop reads off the buffer what `tcp_read` reads;
* `control_framing`  what is dispatched is what `tcp_read` makes of the bytes of the connection,
                     however they were cut, and the buffer always has room.

Memory is to be had.
-/

namespace ShadowLan

/-- the largest length field -/
def FRAME_MAX : Nat := 8 * 1024 * 1024

/-- the room before a `recv` -/
def RECV_ROOM : Nat := 65536

/-- what the inner loop comes to: the frames it dispatched with their type byte, where it stopped, the
size of the buffer, and whether it redials -/
structure Parsed where
  calls : List Bytes
  off : Nat
  rcap : Nat
  bad : Bool
  deriving DecidableEq

/-- the inner loop, from `off`; every frame takes five bytes at least, so `rn` turns are enough -/
def parse (rbuf : Bytes) : Nat → Nat → Nat → Parsed
  | 0, off, rcap => ⟨[], off, rcap, false⟩
  | n + 1, off, rcap =>
    if rbuf.length - off < 4 then ⟨[], off, rcap, false⟩
    else if dtGet32 rbuf off < 1 ∨ FRAME_MAX < dtGet32 rbuf off then ⟨[], off, rcap, true⟩
    else if rbuf.length - off - 4 < dtGet32 rbuf off then
      -- room for the whole frame
      ⟨[], off, if rcap < 4 + dtGet32 rbuf off then 4 + dtGet32 rbuf off + RECV_ROOM else rcap, false⟩
    else
      let r := parse rbuf n (off + (4 + dtGet32 rbuf off)) rcap
      { r with calls := (rbuf.drop (off + 4)).take (dtGet32 rbuf off) :: r.calls }

inductive InPc where
  /-- at the `select` -/
  | wait
  /-- at the `recv` -/
  | recv
  /-- asked for a redial: because of a length field, or with the connection -/
  | redial (bad : Bool)
  deriving DecidableEq

/-- `rbuf` has the `rn` bytes in use; `got` came in on this connection, and `calls` are the frames of it
that `dt_ctl_dispatch` was called with -/
structure Inbound where
  pc : InPc
  rbuf : Bytes
  rcap : Nat
  got : Bytes
  calls : List Bytes
  deriving DecidableEq

inductive InEv where
  /-- the socket is readable -/
  | readable
  /-- nothing to read yet: by the clock, a wake, or a `recv` that would block -/
  | again
  | got (b : Bytes)
  /-- the connection is at its end, or something fails on it -/
  | broken
  /-- `dt_st_dial_relay` and the registration -/
  | dialed
  deriving DecidableEq

namespace Inbound

def init : Inbound := ⟨.wait, [], 0, [], []⟩

variable (q : Inbound)

/-- `while (nc - rn < 65536) nc *= 2`; the size is a machine word -/
def double (rn : Nat) : Nat → Nat → Nat
  | 0, nc => nc
  | n + 1, nc => if nc - rn < RECV_ROOM then double rn n (nc * 2) else nc

/-- the first of the two growths -/
def grown : Nat :=
  if q.rcap - q.rbuf.length < RECV_ROOM then
    double q.rbuf.length 64 (if q.rcap = 0 then 131072 else q.rcap * 2)
  else q.rcap

/-- `rn += k`, and the inner loop; at a redial, `rbuf` is what `rn = 0` throws away -/
def append (b : Bytes) : Inbound :=
  let rbuf := q.rbuf ++ b
  let r := parse rbuf rbuf.length 0 q.rcap
  { pc := if r.bad then .redial true else .wait
    rbuf := rbuf.drop r.off
    rcap := r.rcap
    got := q.got ++ b
    calls := q.calls ++ r.calls }

def step (q : Inbound) (e : InEv) : Option Inbound :=
  match q.pc, e with
  | .wait, .readable => some { q with pc := .recv, rcap := q.grown }
  | .wait, .again => some q
  | .recv, .again => some { q with pc := .wait }
  | .wait, .broken | .recv, .broken => some { q with pc := .redial false }
  | .recv, .got b =>
    if b ≠ [] ∧ b.length ≤ q.rcap - q.rbuf.length then some (q.append b) else none
  | .redial _, .dialed => some { q with pc := .wait, rbuf := [], got := [], calls := [] }
  | _, _ => none

end Inbound

/-! ## `tcp_read` again and again -/

/-- a frame: its type and its payload -/
abbrev CtlFrame := UInt8 × Bytes

/-- the frame as `dt_ctl_dispatch` gets it -/
def CtlFrame.body (f : CtlFrame) : Bytes := f.1 :: f.2

def tcpNext (b : Bytes) : Next CtlFrame UInt8 :=
  match tcpRead b with
  | .frame t p rest => .item (t, p) rest
  | .bad => .bad
  | .more => .more

theorem tcpNext_frame {b rest : Bytes} {f : CtlFrame} :
    tcpNext b = .item f rest ↔ tcpRead b = .frame f.1 f.2 rest := by
  unfold tcpNext
  cases tcpRead b with
  | frame t p r =>
    constructor
    · intro h
      obtain ⟨rfl, rfl⟩ := Next.item.inj h
      rfl
    · intro h
      obtain ⟨h1, h2, h3⟩ := TcpRead.frame.inj h
      rw [h1, h2, h3]
  | bad | more => exact iff_of_false (fun h => by cases h) fun h => by cases h

theorem tcpNext_bad {b : Bytes} : tcpNext b = .bad ↔ tcpRead b = .bad := by
  unfold tcpNext
  cases tcpRead b with
  | frame | more => exact iff_of_false (fun h => by cases h) fun h => by cases h
  | bad => exact ⟨fun _ => rfl, fun _ => rfl⟩

theorem stable_tcpNext : Stable tcpNext where
  item := fun h e => tcpNext_frame.mpr (tcpRead_append (tcpNext_frame.mp h) e)
  bad := fun h e => tcpNext_bad.mpr (tcpRead_bad (tcpNext_bad.mp h) e)

/-- the bytes of a list of frames, as the relay encodes them -/
def frames (fs : List CtlFrame) : Bytes := fs.flatMap fun f => frame f.1 f.2

theorem reads_frames {fs : List CtlFrame} (h : ∀ f ∈ fs, 1 + f.2.length ≤ FRAME_MAX) :
    Reads tcpNext (frames fs) fs [] := by
  induction fs with
  | nil => exact .nil []
  | cons f fs ih =>
    have hf : tcpNext (frame f.1 f.2 ++ frames fs) = .item f (frames fs) :=
      tcpNext_frame.mpr (tcpRead_frame f.1 (h f List.mem_cons_self) (frames fs))
    exact .cons hf (ih fun g hg => h g (List.mem_cons_of_mem f hg))

/-! ## the inner loop -/

theorem dtGet32_drop (b : Bytes) (o : Nat) (h : o ≤ b.length) : dtGet32 b o = dtGet32 (b.drop o) 0 := by
  have hlen : (b.take o).length = o := List.length_take_of_le h
  have e := dtGet32_append (b.take o) (b.drop o) 0
  rw [List.take_append_drop, hlen] at e
  exact e

/-- what `tcp_read` makes of bytes that begin with a header -/
theorem tcpRead_header {b : Bytes} (h4 : 4 ≤ b.length) : tcpRead b =
    if dtGet32 b 0 < 1 ∨ FRAME_MAX < dtGet32 b 0 then .bad
    else if b.length - 4 < dtGet32 b 0 then .more
    else match (b.drop 4).take (dtGet32 b 0) with
      | [] => .bad
      | t :: p => .frame t p ((b.drop 4).drop (dtGet32 b 0)) := by
  have hlen : (b.take 4).length = 4 := List.length_take_of_le h4
  have hget : dtGet32 (b.take 4) 0 = dtGet32 b 0 := by
    obtain ⟨x, y, z, w, e⟩ := List.length_eq_four.mp hlen
    rw [← List.take_append_drop 4 b, e]
    rfl
  unfold tcpRead
  rw [unpackI_dtGet32 hlen, hget, List.length_drop]
  rfl

theorem tcpRead_short {b : Bytes} (h : b.length < 4) : tcpRead b = .more := by
  unfold tcpRead
  cases hu : unpackI (b.take 4) with
  | none => rfl
  | some n =>
    have hl := length_of_unpackI hu
    rw [List.length_take] at hl
    omega

/-- What the inner loop leaves: the frames it dispatched come off the front of the buffer, and it stopped
where `tcp_read` needs more, or raises. -/
structure ParsedTo (rbuf : Bytes) (off rcap : Nat) (r : Parsed) : Prop where
  reads : ∃ fs : List CtlFrame, r.calls = fs.map CtlFrame.body ∧
    Reads tcpNext (rbuf.drop off) fs (rbuf.drop r.off)
  stop : tcpRead (rbuf.drop r.off) = if r.bad then .bad else .more
  off : r.off ≤ rbuf.length
  rcap : rcap ≤ r.rcap

theorem parse_spec (rbuf : Bytes) (n off rcap : Nat) (hoff : off ≤ rbuf.length)
    (hn : rbuf.length - off ≤ n) : ParsedTo rbuf off rcap (parse rbuf n off rcap) := by
  induction n generalizing off with
  | zero =>
    have hd : (rbuf.drop off).length < 4 := by
      rw [List.length_drop]
      omega
    exact ⟨⟨[], rfl, .nil _⟩, tcpRead_short hd, hoff, Nat.le_refl _⟩
  | succ n ih =>
    have hd : (rbuf.drop off).length = rbuf.length - off := List.length_drop
    have hget := dtGet32_drop rbuf off hoff
    unfold parse
    by_cases hs : rbuf.length - off < 4
    · rw [if_pos hs]
      exact ⟨⟨[], rfl, .nil _⟩, tcpRead_short (hd ▸ hs), hoff, Nat.le_refl _⟩
    · rw [if_neg hs]
      have h4 : 4 ≤ (rbuf.drop off).length := by omega
      have hread := tcpRead_header h4
      rw [← hget, hd] at hread
      by_cases hb : dtGet32 rbuf off < 1 ∨ FRAME_MAX < dtGet32 rbuf off
      · rw [if_pos hb] at hread ⊢
        exact ⟨⟨[], rfl, .nil _⟩, hread, hoff, Nat.le_refl _⟩
      · rw [if_neg hb] at hread ⊢
        by_cases hm : rbuf.length - off - 4 < dtGet32 rbuf off
        · rw [if_pos hm] at hread ⊢
          refine ⟨⟨[], rfl, .nil _⟩, hread, hoff, ?_⟩
          show rcap ≤ if rcap < 4 + dtGet32 rbuf off then 4 + dtGet32 rbuf off + RECV_ROOM else rcap
          split <;> omega
        · rw [if_neg hm] at hread ⊢
          -- a whole frame: dispatched here, and read by `tcp_read`
          have hnext : off + (4 + dtGet32 rbuf off) ≤ rbuf.length := by omega
          obtain ⟨⟨fs, hfs, hr⟩, hstop, hle, hcap⟩ := ih (off + (4 + dtGet32 rbuf off)) hnext (by omega)
          rw [List.drop_drop] at hread
          cases hbody : (rbuf.drop (off + 4)).take (dtGet32 rbuf off) with
          | nil =>
            have hpos : 0 < dtGet32 rbuf off := Nat.not_lt.mp fun h => hb (.inl h)
            have hfits : dtGet32 rbuf off ≤ rbuf.length - (off + 4) := Nat.sub_sub _ _ 4 ▸ Nat.not_lt.mp hm
            have hl := congrArg List.length hbody
            rw [List.length_take, List.length_drop, List.length_nil, Nat.min_eq_left hfits] at hl
            exact absurd hl (Nat.ne_of_gt hpos)
          | cons t p =>
            rw [hbody] at hread
            have hrest : (rbuf.drop (off + 4)).drop (dtGet32 rbuf off)
                = rbuf.drop (off + (4 + dtGet32 rbuf off)) := by
              rw [List.drop_drop, Nat.add_assoc]
            have hitem : tcpNext (rbuf.drop off) =
                .item (t, p) (rbuf.drop (off + (4 + dtGet32 rbuf off))) :=
              tcpNext_frame.mpr (hrest ▸ hread)
            exact ⟨⟨(t, p) :: fs, congrArg _ hfs, .cons hitem hr⟩, hstop, hle, hcap⟩

/-! ## the buffer -/

namespace Inbound
variable {q q' : Inbound}

/-- the sizes that `rcap` takes: none, or at least what the first growth gives -/
def Cap (rcap : Nat) : Prop := rcap = 0 ∨ 131072 ≤ rcap

/-- doubling once is enough -/
theorem grown_room (hle : q.rbuf.length ≤ q.rcap) (hc : Cap q.rcap) :
    q.rcap ≤ q.grown ∧ q.rbuf.length + RECV_ROOM ≤ q.grown ∧ Cap q.grown := by
  have hroom : RECV_ROOM = 65536 := rfl
  have hdouble : ∀ nc, ¬ nc - q.rbuf.length < RECV_ROOM → double q.rbuf.length 64 nc = nc :=
    fun nc h => if_neg h
  unfold grown
  by_cases hr : q.rcap - q.rbuf.length < RECV_ROOM
  · rw [if_pos hr]
    by_cases h0 : q.rcap = 0
    · rw [if_pos h0, hdouble 131072 (by omega)]
      exact ⟨by omega, by omega, Or.inr (Nat.le_refl _)⟩
    · rw [if_neg h0]
      have hbig := hc.resolve_left h0
      rw [hdouble (q.rcap * 2) (by omega)]
      exact ⟨by omega, by omega, Or.inr (by omega)⟩
  · rw [if_neg hr]
    exact ⟨Nat.le_refl _, by omega, hc⟩

/-- What holds between two steps. -/
structure Sound (q : Inbound) : Prop where
  reads : ∃ fs : List CtlFrame, q.calls = fs.map CtlFrame.body ∧ Reads tcpNext q.got fs q.rbuf
  stop : tcpRead q.rbuf = if q.pc = .redial true then .bad else .more
  fits : q.rbuf.length ≤ q.rcap
  cap : Cap q.rcap
  room : q.pc = .recv → q.rbuf.length + RECV_ROOM ≤ q.rcap

theorem sound_init : init.Sound where
  reads := ⟨[], rfl, .nil []⟩
  stop := rfl
  fits := Nat.le_refl _
  cap := Or.inl rfl
  room := fun h => InPc.noConfusion h

theorem Sound.append (h : q.Sound) (hpc : q.pc = .recv) {b : Bytes}
    (hb : b.length ≤ q.rcap - q.rbuf.length) : (q.append b).Sound := by
  obtain ⟨⟨fs, hfs, hr⟩, hstop, hle, hcap⟩ :=
    parse_spec (q.rbuf ++ b) (q.rbuf ++ b).length 0 q.rcap (Nat.zero_le _) (Nat.le_refl _)
  obtain ⟨gs, hgs, hg⟩ := h.reads
  have hlen : (q.rbuf ++ b).length ≤ q.rcap := by
    have hf := h.fits
    rw [List.length_append]
    omega
  have hroom := h.room hpc
  refine ⟨⟨gs ++ fs, ?_, ?_⟩, ?_, ?_, ?_, ?_⟩
  · show q.calls ++ (parse (q.rbuf ++ b) (q.rbuf ++ b).length 0 q.rcap).calls = _
    rw [hgs, hfs, List.map_append]
  · exact hg.feed stable_tcpNext hr
  · show tcpRead ((q.rbuf ++ b).drop (parse (q.rbuf ++ b) (q.rbuf ++ b).length 0 q.rcap).off) = _
    rw [hstop]
    cases hbad : (parse (q.rbuf ++ b) (q.rbuf ++ b).length 0 q.rcap).bad with
    | false =>
      have hpc' : (q.append b).pc = .wait := by
        unfold Inbound.append
        dsimp only
        rw [hbad]
        rfl
      rw [hpc']
      rfl
    | true =>
      have hpc' : (q.append b).pc = .redial true := by
        unfold Inbound.append
        dsimp only
        rw [hbad]
        rfl
      rw [hpc']
      rfl
  · show ((q.rbuf ++ b).drop _).length ≤ (parse (q.rbuf ++ b) (q.rbuf ++ b).length 0 q.rcap).rcap
    rw [List.length_drop]
    omega
  · have hr : RECV_ROOM = 65536 := rfl
    rcases h.cap with h0 | hbig
    · omega
    · exact Or.inr (Nat.le_trans hbig hcap)
  · intro hrecv
    have hne : (if (parse (q.rbuf ++ b) (q.rbuf ++ b).length 0 q.rcap).bad = true then InPc.redial true
        else InPc.wait) ≠ .recv := by
      split <;> exact fun h => InPc.noConfusion h
    exact absurd hrecv hne

/-- the same bytes, elsewhere in the loop -/
theorem Sound.move (h : q.Sound) {pc : InPc} (hno : q.pc ≠ .redial true)
    (hpc : pc = .wait ∨ pc = .redial false) : ({ q with pc := pc } : Inbound).Sound where
  reads := h.reads
  stop := by
    have hs := h.stop
    rw [if_neg hno] at hs
    rcases hpc with rfl | rfl <;> exact hs
  fits := h.fits
  cap := h.cap
  room := fun hr => by
    have hr' : pc = .recv := hr
    rcases hpc with rfl | rfl <;> cases hr'

theorem Sound.step {e : InEv} (h : q.Sound) (hs : q.step e = some q') : q'.Sound := by
  unfold Inbound.step at hs
  cases hpc : q.pc with
  | wait =>
    have hno : q.pc ≠ .redial true := fun e => by
      rw [hpc] at e
      cases e
    rw [hpc] at hs
    cases e with
    | readable =>
      obtain ⟨hge, hroom, hcap⟩ := grown_room h.fits h.cap
      rw [← Option.some.inj hs]
      have hstop := h.stop
      rw [if_neg hno] at hstop
      exact ⟨h.reads, hstop, Nat.le_trans h.fits hge, hcap, fun _ => hroom⟩
    | again =>
      rw [← Option.some.inj hs]
      exact h
    | broken =>
      rw [← Option.some.inj hs]
      exact h.move hno (Or.inr rfl)
    | got | dialed => cases hs
  | recv =>
    have hno : q.pc ≠ .redial true := fun e => by
      rw [hpc] at e
      cases e
    rw [hpc] at hs
    cases e with
    | again =>
      rw [← Option.some.inj hs]
      exact h.move hno (Or.inl rfl)
    | got b =>
      obtain ⟨hb, e⟩ := Option.ite_none_right_eq_some.mp hs
      rw [← Option.some.inj e]
      exact h.append hpc hb.2
    | broken =>
      rw [← Option.some.inj hs]
      exact h.move hno (Or.inr rfl)
    | readable | dialed => cases hs
  | redial bad =>
    rw [hpc] at hs
    cases e with
    | dialed =>
      rw [← Option.some.inj hs]
      exact ⟨⟨[], rfl, .nil []⟩, rfl, Nat.zero_le _, h.cap, fun hr => InPc.noConfusion hr⟩
    | readable | again | got | broken => cases hs

/-- the decoder has stopped where it is -/
theorem Sound.no_item (h : q.Sound) : ∀ a s, tcpNext q.rbuf ≠ .item a s := by
  intro a s hitem
  have hread := tcpNext_frame.mp hitem
  rw [h.stop] at hread
  split at hread <;> cases hread

/-- **Control framing is independent of segmentation.**  In every run: the buffer has room; what was
dispatched on the connection is what `tcp_read` reads off its bytes, frame by frame, and a redial is asked
for where `tcp_read` raises; and of a list of frames that the relay encodes, those that have arrived are
dispatched, each once and in order, and all at the end, with no redial. -/
theorem control_framing {tr : List (Inbound × InEv)} (h : Path step init tr q) :
    (q.rbuf.length ≤ q.rcap ∧ (q.pc = .recv → RECV_ROOM ≤ q.rcap - q.rbuf.length)) ∧
    (∃ fs : List CtlFrame, q.calls = fs.map CtlFrame.body ∧ Reads tcpNext q.got fs q.rbuf ∧
      (∀ a s, tcpNext q.rbuf ≠ .item a s) ∧ (q.pc = .redial true ↔ tcpRead q.rbuf = .bad)) ∧
    ∀ fs : List CtlFrame, (∀ f ∈ fs, 1 + f.2.length ≤ FRAME_MAX) → q.got <+: frames fs →
      q.pc ≠ .redial true ∧ (∃ n, q.calls = (fs.take n).map CtlFrame.body ∧
        Reads tcpNext q.got (fs.take n) q.rbuf) ∧
      (q.got = frames fs → q.calls = fs.map CtlFrame.body ∧ q.rbuf = []) := by
  have hq : q.Sound := h.inv sound_init fun _ _ _ hs he => hs.step he
  obtain ⟨gs, hgs, hg⟩ := hq.reads
  have hbad : q.pc = .redial true ↔ tcpRead q.rbuf = .bad := by
    rw [hq.stop]
    split
    · next hpc => exact iff_of_true hpc rfl
    · next hpc => exact iff_of_false hpc fun h => TcpRead.noConfusion h
  refine ⟨⟨hq.fits, fun hpc => ?_⟩, ⟨gs, hgs, hg, hq.no_item, hbad⟩, ?_⟩
  · have hroom := hq.room hpc
    omega
  · intro fs hfs hpre
    obtain ⟨e, he⟩ := hpre
    have hall := reads_frames hfs
    have hend : ∀ a s, tcpNext [] ≠ .item a s := fun a s h => by
      cases tcpNext_frame.mp h
    -- what was read so far is read of the whole, too
    have hlong := hg.append stable_tcpNext e
    rw [he] at hlong
    have hpre := hall.prefix hlong hend
    have htake : fs.take gs.length = gs := (List.prefix_iff_eq_take.mp hpre).symm
    refine ⟨fun hpc => ?_, ⟨gs.length, by rw [htake]; exact hgs, by rw [htake]; exact hg⟩, ?_⟩
    · have hb := stable_tcpNext.bad (tcpNext_bad.mpr (hbad.mp hpc)) e
      obtain ⟨-, hr⟩ := hall.unique hlong hend fun a s h => by
        rw [hb] at h
        cases h
      rw [← hr] at hb
      cases tcpNext_bad.mp hb
    · intro hgot
      rw [hgot] at hg
      obtain ⟨rfl, hr⟩ := hall.unique hg hend hq.no_item
      exact ⟨hgs, hr.symm⟩

/-- two frames in three pieces, the first cut inside the header of the first frame, and the second inside
the body of the second -/
def threePieces : List InEv :=
  [.readable, .got [0, 0], .readable, .again, .readable, .got [0, 3, 2, 7, 7, 0, 0, 0, 2, 4],
    .readable, .got [9]]

theorem control_framing_pieces :
    ∃ q tr, Path step init tr q ∧ q.got = frames [(2, [7, 7]), (4, [9])] ∧
      q.calls = [[2, 7, 7], [4, 9]] ∧ q.pc ≠ .redial true := by
  have hsome : (run step init threePieces).isSome = true := by decide
  obtain ⟨q, hq⟩ := Option.isSome_iff_exists.mp hsome
  have hgot : (run step init threePieces).all
      (fun q => q.got == frames [(2, [7, 7]), (4, [9])]) = true := by decide
  rw [hq, Option.all_some, beq_iff_eq] at hgot
  have hr := path_run hq
  have hle : ∀ f ∈ [((2, [7, 7]) : CtlFrame), (4, [9])], 1 + f.2.length ≤ FRAME_MAX := by
    intro f hf
    have hlen : f.2.length ≤ 2 := by
      rcases List.mem_cons.mp hf with rfl | hf
      · exact Nat.le_refl 2
      · rw [List.mem_singleton.mp hf]
        exact Nat.le_succ 1
    have hmax : FRAME_MAX = 8388608 := rfl
    omega
  obtain ⟨-, -, hall⟩ := control_framing hr
  obtain ⟨hno, -, hdone⟩ := hall [(2, [7, 7]), (4, [9])] hle (hgot ▸ List.prefix_refl _)
  exact ⟨q, _, hr, hgot, (hdone hgot).1, hno⟩

end Inbound

end ShadowLan
