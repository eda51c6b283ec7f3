import Mathlib.Algebra.Ring.Nat
import ShadowLan.Hook.Control

/-!
# One frame of the handshake

`dt_st_recv_frame` reads one frame of a per-stream connection: four bytes into `hdr`, then the type
and the payload into the caller's buffer `p`, which it shifts down by one byte at the end.  The raw
bytes of the stream come behind the frame, so it must not read on.

* `FrameCall`        a call: what it has stored, its clock and its `errno`;
* `FrameCall.step`   a `recv`, a `select` with the test of the budget, or time that passes;
* `Exact`            the call stays in `p`, consumes exactly the frame it returns, and returns every
                     frame whose payload fits;
* `recv_frame_iff`   it does so unless the payload has exactly `pcap` bytes, or fits but is longer
                     than the frames the reader takes.

`inp` is what the relay sends on the connection, ever; a `recv` takes any part of it.  `errno` is
that of the Linux build, where nothing else of the thread touches it meanwhile.
-/

namespace ShadowLan

/-- `EAGAIN`, which is `EWOULDBLOCK`; `EPIPE`; any other -/
inductive FrameErrno where
  | again
  | pipe
  | other
  deriving DecidableEq

inductive FramePc where
  /-- at the `recv` of the header -/
  | hdr
  /-- at the `select` after it -/
  | hdrWait
  /-- at the `recv` of the body -/
  | body
  | bodyWait
  /-- 0 with the type and the payload, or -1 -/
  | ret (r : Option (UInt8 × Bytes))
  deriving DecidableEq

structure FrameCall where
  pc : FramePc
  /-- what the connection has left to read -/
  inp : Bytes
  /-- `hdr[0]` to `hdr[got - 1]` -/
  hdr : Bytes
  /-- `p[0]` to `p[got - 1]`, as `recv` stored them -/
  p : Bytes
  t0 : Nat
  now : Nat
  errno : FrameErrno
  deriving DecidableEq

inductive FrameAns where
  | got (k : Nat)
  /-- the connection is at its end -/
  | eof
  | again
  | err
  deriving DecidableEq

inductive SelAns where
  /-- readable, or the 50 ms have passed -/
  | fires
  /-- `EINTR` -/
  | intr
  | err
  deriving DecidableEq

inductive FrameEv where
  | recv (a : FrameAns)
  | select (a : SelAns)
  | tick (ms : Nat)
  deriving DecidableEq

/-- the length field is in range, and the body is taken to fit the buffer -/
def fits (pcap ml : Nat) : Bool := decide (1 ≤ ml ∧ ml ≤ 65536 ∧ ml ≤ pcap + 1)

/-- the connection is at its end, or fails -/
def FrameEv.breaks : FrameEv → Bool
  | .recv .eof | .recv .err | .select .err => true
  | _ => false

namespace FrameCall

def start (inp : Bytes) (now : Nat) (errno : FrameErrno) : FrameCall :=
  ⟨.hdr, inp, [], [], now, now, errno⟩

variable (u : FrameCall)

/-- the length field -/
def ml : Nat := dtGet32 u.hdr 0

def at' (pc : FramePc) : FrameCall := { u with pc := pc }

/-- -1, `errno` as it is -/
def fail : FrameCall := u.at' (.ret none)

/-- the end of the header: the two checks of the length, then the body -/
def header (pcap : Nat) : FrameCall :=
  if u.hdr.length < 4 then u.at' .hdr
  else if fits pcap u.ml then { u with pc := .body, t0 := u.now }
  else u.fail

/-- the end of the body: `*type`, and `memmove` of the rest -/
def content : FrameCall :=
  if u.p.length < u.ml then u.at' .body
  else u.at' (.ret (some (u.p.headD 0, u.p.tail)))

def onHdr (pcap : Nat) : FrameAns → Option FrameCall
  | .got k =>
    if 0 < k ∧ k ≤ 4 - u.hdr.length ∧ k ≤ u.inp.length then
      some ({ u with hdr := u.hdr ++ u.inp.take k, inp := u.inp.drop k }.header pcap)
    else none
  | .eof =>
    if u.inp ≠ [] then none
    else if u.hdr = [] then some { u with pc := .ret none, errno := .pipe }
    -- recv leaves errno as it was
    else if u.errno = .again then some (u.at' .hdrWait) else some u.fail
  | .again => some { u with pc := .hdrWait, errno := .again }
  | .err => some { u with pc := .ret none, errno := .other }

def onBody : FrameAns → Option FrameCall
  | .got k =>
    if 0 < k ∧ k ≤ u.ml - u.p.length ∧ k ≤ u.inp.length then
      some { u with p := u.p ++ u.inp.take k, inp := u.inp.drop k }.content
    else none
  | .eof =>
    if u.inp ≠ [] then none
    else if u.errno = .again then some (u.at' .bodyWait) else some u.fail
  | .again => some { u with pc := .bodyWait, errno := .again }
  | .err => some { u with pc := .ret none, errno := .other }

/-- `dt_now_ms() - t0 > tmo_ms` -/
def late (tmo : Nat) : Bool := decide (tmo < u.now - u.t0)

/-- `select`: only what it does when it fires is not the same for the header and the body -/
def onSelect (back : FramePc) (fired : FrameCall) : SelAns → FrameCall
  | .fires => fired
  | .intr => { u with pc := back, errno := .other }
  | .err => { u with pc := .ret none, errno := .other }

def step (tmo pcap : Nat) (e : FrameEv) : Option FrameCall :=
  match u.pc, e with
  | .hdr, .recv a => u.onHdr pcap a
  | .hdrWait, .select a =>
    some (u.onSelect .hdr
      (if u.late tmo then { u with pc := .ret none, errno := .again } else u.at' .hdr) a)
  | .body, .recv a => u.onBody a
  | .bodyWait, .select a =>
    some (u.onSelect .body (if u.late tmo then u.fail else u.at' .body) a)
  | .ret _, _ => none
  | _, .tick ms => some { u with now := u.now + ms }
  | _, _ => none

/-- the indices of `p` that are stored to; the shift at the end stays below them -/
def Stores (i : Nat) : Prop := i < u.p.length

/-- the test of the budget ends the call -/
def timesOut (tmo : Nat) : FrameEv → Bool
  | .select .fires => u.late tmo
  | _ => false

end FrameCall

/-- the bytes of a frame -/
def frameBytes (type : UInt8) (pl : Bytes) : Bytes := (dtFrame type pl).p

/-- What the caller relies on, for a connection with the bytes `inp`: in every run,
`p` is stored to below `pcap` only; a frame that is returned is what was consumed; and while the
connection holds and the budget lasts, a frame whose payload fits is not refused, and is returned with
its last byte, the bytes behind it unread. -/
def Exact (tmo pcap : Nat) (inp : Bytes) : Prop :=
  ∀ (now : Nat) (errno : FrameErrno) (tr : List (FrameCall × FrameEv)) (u : FrameCall),
    Path (fun u e => u.step tmo pcap e) (FrameCall.start inp now errno) tr u →
      (∀ i, u.Stores i → i < pcap) ∧
      (∀ type pl, u.pc = .ret (some (type, pl)) → inp = frameBytes type pl ++ u.inp) ∧
      ∀ type pl rest, inp = frameBytes type pl ++ rest → 1 + pl.length < 2 ^ 32 →
        pl.length ≤ pcap → (∀ x ∈ tr, x.2.breaks = false ∧ x.1.timesOut tmo x.2 = false) →
          u.pc ≠ .ret none ∧ (u.inp = rest → u.pc = .ret (some (type, pl)))

/-! ## frames -/

theorem length_frameBytes (type : UInt8) (pl : Bytes) :
    (frameBytes type pl).length = 5 + pl.length := by
  show (packI (1 + pl.length) ++ type :: pl).length = 5 + pl.length
  rw [List.length_append, List.length_cons]
  show 4 + (pl.length + 1) = 5 + pl.length
  omega

/-- the first four bytes of a frame that were read, and its body -/
theorem frameBytes_header {type : UInt8} {pl rest hdr q : Bytes}
    (h : frameBytes type pl ++ rest = hdr ++ q) (h4 : hdr.length = 4) :
    hdr = packI (1 + pl.length) ∧ q = type :: pl ++ rest := by
  have e : packI (1 + pl.length) ++ (type :: pl ++ rest) = hdr ++ q := by
    rw [← h]
    exact (List.append_assoc _ _ _).symm
  obtain ⟨h1, h2⟩ := List.append_inj e.symm (h4.trans rfl)
  exact ⟨h1, h2⟩

/-- a length field and a body of that length are a frame -/
theorem frameBytes_of {type : UInt8} {hdr pl : Bytes} (h4 : hdr.length = 4)
    (hml : (type :: pl).length = dtGet32 hdr 0) : frameBytes type pl = hdr ++ type :: pl := by
  show packI (1 + pl.length) ++ type :: pl = hdr ++ type :: pl
  rw [Nat.add_comm 1, ← List.length_cons (a := type), hml,
    packI_of_unpackI (unpackI_dtGet32 h4)]

/-! ## what a step can do -/

namespace FrameCall
variable {u u' : FrameCall} {tmo pcap : Nat} {inp : Bytes}

/-- the `recv` that a `select` leads back to -/
def FramePc.back : FramePc → FramePc
  | .hdrWait => .hdr
  | _ => .body

def waits (u : FrameCall) : Prop := u.pc = .hdrWait ∨ u.pc = .bodyWait

inductive Turn (tmo pcap : Nat) (u : FrameCall) : FrameEv → FrameCall → Prop where
  | tick (ms : Nat) : Turn tmo pcap u (.tick ms) { u with now := u.now + ms }
  | header (k : Nat) (hpc : u.pc = .hdr) (hk : k ≤ 4 - u.hdr.length)
    (hgot : 0 < k ∧ k ≤ u.inp.length) :
    Turn tmo pcap u (.recv (.got k))
      ({ u with hdr := u.hdr ++ u.inp.take k, inp := u.inp.drop k }.header pcap)
  | content (k : Nat) (hpc : u.pc = .body) (hk : k ≤ u.ml - u.p.length)
    (hgot : 0 < k ∧ k ≤ u.inp.length) :
    Turn tmo pcap u (.recv (.got k)) { u with p := u.p ++ u.inp.take k, inp := u.inp.drop k }.content
  /-- would block; or at the end, with the `errno` of a `recv` that would have -/
  | wait (a : FrameAns) (pc : FramePc)
    (hpc : u.pc = .hdr ∧ pc = .hdrWait ∨ u.pc = .body ∧ pc = .bodyWait)
    (ha : a = .again ∨ a = .eof) :
    Turn tmo pcap u (.recv a) { u with pc := pc, errno := .again }
  | back (a : SelAns) (errno : FrameErrno) (hpc : u.waits) (ha : a ≠ .err)
    (hl : a = .fires → u.late tmo = false) :
    Turn tmo pcap u (.select a) { u with pc := FramePc.back u.pc, errno := errno }
  | broken (e : FrameEv) (errno : FrameErrno) (hpc : ∀ r, u.pc ≠ .ret r) (he : e.breaks = true)
    (hno : errno ≠ .again) : Turn tmo pcap u e { u with pc := .ret none, errno := errno }
  | late (errno : FrameErrno) (hpc : u.waits) (hl : u.late tmo = true)
    (hno : errno = .again ∨ u.pc = .bodyWait ∧ errno = u.errno) :
    Turn tmo pcap u (.select .fires) { u with pc := .ret none, errno := errno }

theorem turn_onHdr {a : FrameAns} (hpc : u.pc = .hdr) (hs : u.onHdr pcap a = some u') :
    Turn tmo pcap u (.recv a) u' := by
  have hr : ∀ r, u.pc ≠ .ret r := fun r e => by
    rw [hpc] at e
    cases e
  cases a with
  | got k =>
    obtain ⟨hk, e⟩ := Option.ite_none_right_eq_some.mp hs
    rw [← Option.some.inj e]
    exact .header k hpc hk.2.1 ⟨hk.1, hk.2.2⟩
  | eof =>
    obtain ⟨-, e⟩ := Option.ite_none_left_eq_some.mp hs
    by_cases hh : u.hdr = []
    · rw [if_pos hh] at e
      rw [← Option.some.inj e]
      exact .broken _ .pipe hr rfl (by decide)
    · rw [if_neg hh] at e
      by_cases hag : u.errno = .again
      · rw [if_pos hag] at e
        have hu : u.at' .hdrWait = { u with pc := .hdrWait, errno := .again } := by
          rw [← hag]
          rfl
        rw [← Option.some.inj e, hu]
        exact .wait _ _ (Or.inl ⟨hpc, rfl⟩) (Or.inr rfl)
      · rw [if_neg hag] at e
        rw [← Option.some.inj e]
        exact .broken _ u.errno hr rfl hag
  | again =>
    rw [← Option.some.inj hs]
    exact .wait _ _ (Or.inl ⟨hpc, rfl⟩) (Or.inl rfl)
  | err =>
    rw [← Option.some.inj hs]
    exact .broken _ .other hr rfl (by decide)

theorem turn_onBody {a : FrameAns} (hpc : u.pc = .body) (hs : u.onBody a = some u') :
    Turn tmo pcap u (.recv a) u' := by
  have hr : ∀ r, u.pc ≠ .ret r := fun r e => by
    rw [hpc] at e
    cases e
  cases a with
  | got k =>
    obtain ⟨hk, e⟩ := Option.ite_none_right_eq_some.mp hs
    rw [← Option.some.inj e]
    exact .content k hpc hk.2.1 ⟨hk.1, hk.2.2⟩
  | eof =>
    obtain ⟨-, e⟩ := Option.ite_none_left_eq_some.mp hs
    by_cases hag : u.errno = .again
    · rw [if_pos hag] at e
      have hu : u.at' .bodyWait = { u with pc := .bodyWait, errno := .again } := by
        rw [← hag]
        rfl
      rw [← Option.some.inj e, hu]
      exact .wait _ _ (Or.inr ⟨hpc, rfl⟩) (Or.inr rfl)
    · rw [if_neg hag] at e
      rw [← Option.some.inj e]
      exact .broken _ u.errno hr rfl hag
  | again =>
    rw [← Option.some.inj hs]
    exact .wait _ _ (Or.inr ⟨hpc, rfl⟩) (Or.inl rfl)
  | err =>
    rw [← Option.some.inj hs]
    exact .broken _ .other hr rfl (by decide)

/-- a `select`, with what the call does when it fires -/
theorem turn_onSelect {a : SelAns} {fail : FrameCall} (hpc : u.waits)
    (hfail : u.late tmo = true → Turn tmo pcap u (.select .fires) fail) :
    Turn tmo pcap u (.select a)
      (u.onSelect (FramePc.back u.pc)
        (if u.late tmo then fail else u.at' (FramePc.back u.pc)) a) := by
  have hr : ∀ r, u.pc ≠ .ret r := fun r e => by
    rcases hpc with h | h <;> rw [h] at e <;> cases e
  cases a with
  | fires =>
    show Turn tmo pcap u (.select .fires) (if u.late tmo = true then _ else _)
    by_cases hl : u.late tmo = true
    · rw [if_pos hl]
      exact hfail hl
    · rw [if_neg hl]
      exact .back .fires u.errno hpc (by decide) fun _ => Bool.eq_false_iff.mpr hl
  | intr => exact .back .intr .other hpc (by decide) fun h => by cases h
  | err => exact .broken _ .other hr rfl (by decide)

/-- **what a step can do** -/
theorem turn_of_step {e : FrameEv} (hs : u.step tmo pcap e = some u') : Turn tmo pcap u e u' := by
  unfold FrameCall.step at hs
  cases hpc : u.pc with
  | hdr =>
    rw [hpc] at hs
    cases e with
    | recv a => exact turn_onHdr hpc hs
    | select a => cases hs
    | tick ms =>
      rw [← Option.some.inj hs, ← hpc]
      exact .tick ms
  | hdrWait =>
    have hw : u.waits := Or.inl hpc
    rw [hpc] at hs
    cases e with
    | recv a => cases hs
    | select a =>
      have hb : FramePc.back u.pc = .hdr := by rw [hpc]; rfl
      rw [← Option.some.inj hs, ← hb]
      exact turn_onSelect hw fun hl => .late .again hw hl (Or.inl rfl)
    | tick ms =>
      rw [← Option.some.inj hs, ← hpc]
      exact .tick ms
  | body =>
    rw [hpc] at hs
    cases e with
    | recv a => exact turn_onBody hpc hs
    | select a => cases hs
    | tick ms =>
      rw [← Option.some.inj hs, ← hpc]
      exact .tick ms
  | bodyWait =>
    have hw : u.waits := Or.inr hpc
    rw [hpc] at hs
    cases e with
    | recv a => cases hs
    | select a =>
      have hb : FramePc.back u.pc = .body := by rw [hpc]; rfl
      rw [← Option.some.inj hs, ← hb]
      exact turn_onSelect hw fun hl => .late u.errno hw hl (Or.inr ⟨hpc, rfl⟩)
    | tick ms =>
      rw [← Option.some.inj hs, ← hpc]
      exact .tick ms
  | ret r =>
    rw [hpc] at hs
    cases hs

end FrameCall

/-! ## what a call has read -/

namespace FrameCall
variable {u u' : FrameCall} {tmo pcap : Nat} {inp : Bytes}

/-- in the body: the header is there, its length was accepted, and bytes are missing -/
def InBody (pcap : Nat) (u : FrameCall) : Prop :=
  u.hdr.length = 4 ∧ fits pcap u.ml = true ∧ u.p.length < u.ml

/-- the bytes stored at each point of a call -/
def Stored (pcap : Nat) (u : FrameCall) : Prop :=
  match u.pc with
  | .hdr | .hdrWait => u.hdr.length < 4 ∧ u.p = []
  | .body | .bodyWait => u.InBody pcap
  | .ret none => u.p.length ≤ pcap
  | .ret (some (type, pl)) =>
    u.hdr.length = 4 ∧ fits pcap u.ml = true ∧ u.p = type :: pl ∧ u.p.length = u.ml

/-- The bytes of the connection are what was read and what is left. -/
structure Sound (pcap : Nat) (inp : Bytes) (u : FrameCall) : Prop where
  split : inp = u.hdr ++ (u.p ++ u.inp)
  stored : u.Stored pcap

theorem fits_iff {ml : Nat} : fits pcap ml = true ↔ 1 ≤ ml ∧ ml ≤ 65536 ∧ ml ≤ pcap + 1 :=
  decide_eq_true_iff

theorem InBody.le (h : u.InBody pcap) : u.p.length ≤ pcap := by
  obtain ⟨-, hf, hlt⟩ := h
  have hm := (fits_iff.mp hf).2.2
  omega

theorem sound_start (inp : Bytes) (now : Nat) (errno : FrameErrno) :
    (start inp now errno).Sound pcap inp :=
  ⟨rfl, Nat.zero_lt_succ 3, rfl⟩

/-- a step that reads nothing -/
theorem Sound.move (h : u.Sound pcap inp) (hh : u'.hdr = u.hdr) (hp : u'.p = u.p)
    (hi : u'.inp = u.inp) (hs : u'.Stored pcap) : u'.Sound pcap inp :=
  ⟨by rw [hh, hp, hi]; exact h.split, hs⟩

theorem Sound.header (h : inp = u.hdr ++ (u.p ++ u.inp)) (h4 : u.hdr.length ≤ 4) (hp : u.p = []) :
    (u.header pcap).Sound pcap inp := by
  unfold FrameCall.header
  by_cases hlt : u.hdr.length < 4
  · rw [if_pos hlt]
    exact ⟨h, hlt, hp⟩
  · rw [if_neg hlt]
    have hlen : u.hdr.length = 4 := by omega
    by_cases hf : fits pcap u.ml = true
    · rw [if_pos hf]
      refine ⟨h, hlen, hf, ?_⟩
      have hml := (fits_iff.mp hf).1
      show u.p.length < u.ml
      rw [hp]
      exact hml
    · rw [if_neg hf]
      refine ⟨h, ?_⟩
      show u.p.length ≤ pcap
      rw [hp]
      exact Nat.zero_le _

theorem Sound.content (h : inp = u.hdr ++ (u.p ++ u.inp)) (h4 : u.hdr.length = 4)
    (hf : fits pcap u.ml = true) (hle : u.p.length ≤ u.ml) : u.content.Sound pcap inp := by
  unfold FrameCall.content
  by_cases hlt : u.p.length < u.ml
  · rw [if_pos hlt]
    exact ⟨h, h4, hf, hlt⟩
  · rw [if_neg hlt]
    have hml := (fits_iff.mp hf).1
    have hlen : u.p.length = u.ml := by omega
    refine ⟨h, h4, hf, ?_, hlen⟩
    show u.p = u.p.headD 0 :: u.p.tail
    cases hp : u.p with
    | nil =>
      rw [hp, List.length_nil] at hlen
      omega
    | cons t pl => rfl

theorem Stored.le (h : u.Stored pcap) (hr : ∀ r, u.pc ≠ .ret (some r)) : u.p.length ≤ pcap := by
  unfold Stored at h
  cases hpc : u.pc with
  | hdr | hdrWait =>
    rw [hpc] at h
    rw [h.2]
    exact Nat.zero_le _
  | body | bodyWait =>
    rw [hpc] at h
    exact InBody.le h
  | ret r =>
    cases r with
    | none =>
      rw [hpc] at h
      exact h
    | some r => exact absurd hpc (hr r)

theorem Sound.turn {e : FrameEv} (h : u.Sound pcap inp) (ht : Turn tmo pcap u e u') :
    u'.Sound pcap inp := by
  have hst := h.stored
  unfold Stored at hst
  cases ht with
  | tick ms => exact h.move rfl rfl rfl hst
  | header k hpc hk =>
    rw [hpc] at hst
    refine Sound.header ?_ ?_ hst.2
    · show inp = (u.hdr ++ u.inp.take k) ++ (u.p ++ u.inp.drop k)
      have hsplit := h.split
      rw [hst.2, List.nil_append] at hsplit ⊢
      rw [List.append_assoc, List.take_append_drop]
      exact hsplit
    · have hlt := hst.1
      show (u.hdr ++ u.inp.take k).length ≤ 4
      rw [List.length_append, List.length_take]
      omega
  | content k hpc hk =>
    rw [hpc] at hst
    refine Sound.content ?_ hst.1 hst.2.1 ?_
    · show inp = u.hdr ++ ((u.p ++ u.inp.take k) ++ u.inp.drop k)
      rw [List.append_assoc, List.take_append_drop]
      exact h.split
    · have hlt : u.p.length < u.ml := hst.2.2
      show (u.p ++ u.inp.take k).length ≤ u.ml
      rw [List.length_append, List.length_take]
      omega
  | wait a pc hpc =>
    rcases hpc with ⟨hpc, rfl⟩ | ⟨hpc, rfl⟩ <;> rw [hpc] at hst <;> exact h.move rfl rfl rfl hst
  | back a errno hpc =>
    rcases hpc with hpc | hpc <;> rw [hpc] at hst ⊢ <;> exact h.move rfl rfl rfl hst
  | broken e errno hpc => exact h.move rfl rfl rfl (h.stored.le fun r => hpc _)
  | late errno hpc =>
    refine h.move rfl rfl rfl (h.stored.le fun r e => ?_)
    rcases hpc with hpc | hpc <;> rw [hpc] at e <;> cases e

/-! ## the frame -/

/-- the header is complete with this step, and its length is refused -/
def refuses (pcap : Nat) (u : FrameCall) : FrameEv → Bool
  | .recv (.got k) =>
    u.pc == .hdr && decide (4 ≤ (u.hdr ++ u.inp.take k).length) &&
      !fits pcap (dtGet32 (u.hdr ++ u.inp.take k) 0)
  | _ => false

theorem header_failed (h : (u.header pcap).pc = .ret none) :
    4 ≤ u.hdr.length ∧ fits pcap u.ml = false ∧ (u.header pcap).errno = u.errno := by
  unfold FrameCall.header at h ⊢
  by_cases hlt : u.hdr.length < 4
  · rw [if_pos hlt] at h
    cases h
  · rw [if_neg hlt] at h ⊢
    by_cases hf : fits pcap u.ml = true
    · rw [if_pos hf] at h
      cases h
    · rw [if_neg hf]
      exact ⟨by omega, Bool.eq_false_iff.mpr hf, rfl⟩

theorem content_not_failed : u.content.pc ≠ .ret none := by
  unfold FrameCall.content
  by_cases hlt : u.p.length < u.ml
  · rw [if_pos hlt]
    exact fun h => FramePc.noConfusion h
  · rw [if_neg hlt]
    intro h
    cases h

/-- a call fails with the connection, by the budget, or because it refuses the length -/
theorem Turn.failed {e : FrameEv} (ht : Turn tmo pcap u e u') (hu : u.pc ≠ .ret none)
    (h : u'.pc = .ret none) :
    e.breaks = true ∨ u.timesOut tmo e = true ∨ u.refuses pcap e = true := by
  cases ht with
  | tick ms => exact absurd h hu
  | header k hpc hk =>
    obtain ⟨h4, hf, -⟩ := header_failed h
    refine Or.inr (Or.inr ?_)
    show (u.pc == .hdr && decide (4 ≤ (u.hdr ++ u.inp.take k).length) &&
      !fits pcap (dtGet32 (u.hdr ++ u.inp.take k) 0)) = true
    rw [hpc, decide_eq_true h4, show fits pcap (dtGet32 (u.hdr ++ u.inp.take k) 0) = false from hf]
    rfl
  | content k hpc hk => exact absurd h content_not_failed
  | wait a pc hpc =>
    rcases hpc with ⟨-, rfl⟩ | ⟨-, rfl⟩ <;> cases h
  | back a errno hpc =>
    rcases hpc with hpc | hpc <;> rw [hpc] at h <;> cases h
  | broken e errno hpc he => exact Or.inl he
  | late errno hpc hl => exact Or.inr (Or.inl hl)

/-- the length field, once the header of a frame is there -/
theorem Sound.header_eq {type : UInt8} {pl rest : Bytes}
    (h : u.Sound pcap (frameBytes type pl ++ rest)) (hn : 1 + pl.length < 2 ^ 32)
    (h4 : u.hdr.length = 4) : u.ml = 1 + pl.length ∧ u.p ++ u.inp = type :: pl ++ rest := by
  obtain ⟨h1, h2⟩ := frameBytes_header h.split h4
  have hml : dtGet32 (packI (1 + pl.length)) 0 = 1 + pl.length := by
    have := dtGet32_packI hn []
    rwa [List.append_nil] at this
  refine ⟨?_, h2⟩
  unfold ml
  rw [h1]
  exact hml

/-- a frame that fits is not refused -/
theorem Sound.not_refused {e : FrameEv} {type : UInt8} {pl rest : Bytes}
    (h : u.Sound pcap (frameBytes type pl ++ rest)) (ht : Turn tmo pcap u e u')
    (hn : 1 + pl.length < 2 ^ 32) (hf : fits pcap (1 + pl.length) = true) :
    u.refuses pcap e = false := by
  cases ht with
  | header k hpc hk =>
    by_contra hr
    have hr' : (u.pc == .hdr && decide (4 ≤ (u.hdr ++ u.inp.take k).length) &&
        !fits pcap (dtGet32 (u.hdr ++ u.inp.take k) 0)) = true := (Bool.not_eq_false _).mp hr
    rw [Bool.and_eq_true, Bool.and_eq_true, decide_eq_true_iff, Bool.not_eq_true'] at hr'
    obtain ⟨⟨-, hle⟩, hno⟩ := hr'
    have hst := h.stored
    unfold Stored at hst
    rw [hpc] at hst
    have h4 : (u.hdr ++ u.inp.take k).length = 4 := by
      have hlt := hst.1
      rw [List.length_append, List.length_take] at hle ⊢
      omega
    have hread : frameBytes type pl ++ rest = (u.hdr ++ u.inp.take k) ++ u.inp.drop k := by
      have hsplit := h.split
      rw [hst.2, List.nil_append] at hsplit
      rw [List.append_assoc, List.take_append_drop]
      exact hsplit
    rw [(frameBytes_header hread h4).1] at hno
    have hml := dtGet32_packI hn []
    rw [List.append_nil] at hml
    rw [hml, hf] at hno
    exact Bool.noConfusion hno
  | content k hpc hk =>
    show (u.pc == .hdr && _ && _) = false
    rw [hpc]
    rfl
  | tick | back | late => rfl
  | wait a pc hpc ha => rcases ha with rfl | rfl <;> rfl
  | broken e errno hpc he =>
    cases e with
    | recv a =>
      cases a with
      | got k => cases he
      | eof | again | err => rfl
    | select | tick => rfl

/-- in a call on a frame that fits: while it goes on nothing fails it, and with the last byte of the
frame it has returned -/
theorem Sound.returned {type : UInt8} {pl rest : Bytes}
    (h : u.Sound pcap (frameBytes type pl ++ rest)) (hn : 1 + pl.length < 2 ^ 32)
    (hu : u.pc ≠ .ret none) (hi : u.inp = rest) : u.pc = .ret (some (type, pl)) := by
  have hst := h.stored
  have hlen : (u.hdr ++ u.p).length = 5 + pl.length := by
    have hsplit := h.split
    rw [hi, ← List.append_assoc] at hsplit
    rw [← List.append_cancel_right hsplit]
    exact length_frameBytes type pl
  unfold Stored at hst
  cases hpc : u.pc with
  | hdr | hdrWait =>
    rw [hpc] at hst
    have hlt := hst.1
    rw [hst.2, List.append_nil] at hlen
    omega
  | body | bodyWait =>
    rw [hpc] at hst
    obtain ⟨hml, -⟩ := h.header_eq hn hst.1
    have h4 := hst.1
    have hlt : u.p.length < u.ml := hst.2.2
    rw [List.length_append] at hlen
    omega
  | ret r =>
    cases r with
    | none => exact absurd hpc hu
    | some x =>
      obtain ⟨t, pl'⟩ := x
      rw [hpc] at hst
      obtain ⟨h4, -, hp, -⟩ := hst
      obtain ⟨-, hq⟩ := h.header_eq hn h4
      rw [hp, hi] at hq
      obtain ⟨rfl, rfl⟩ := List.cons.inj (List.append_cancel_right hq)
      rfl

theorem Sound.run {now : Nat} {errno : FrameErrno} {tr : List (FrameCall × FrameEv)}
    (h : Path (fun u e => u.step tmo pcap e) (start inp now errno) tr u) : u.Sound pcap inp :=
  h.inv (sound_start inp now errno) fun _ _ _ hu hs => hu.turn (turn_of_step hs)

/-- a call whose connection holds and whose budget lasts is not refused a frame that fits -/
theorem not_failed_run {type : UInt8} {pl rest : Bytes} {now : Nat} {errno : FrameErrno}
    {tr : List (FrameCall × FrameEv)}
    (h : Path (fun u e => u.step tmo pcap e) (start (frameBytes type pl ++ rest) now errno) tr u)
    (hn : 1 + pl.length < 2 ^ 32) (hf : fits pcap (1 + pl.length) = true)
    (hc : ∀ x ∈ tr, x.2.breaks = false ∧ x.1.timesOut tmo x.2 = false) : u.pc ≠ .ret none := by
  have hstep : ∀ (u : FrameCall) (e : FrameEv) (u' : FrameCall),
      u.Sound pcap (frameBytes type pl ++ rest) ∧ u.pc ≠ .ret none →
      e.breaks = false ∧ u.timesOut tmo e = false → u.step tmo pcap e = some u' →
        u'.Sound pcap (frameBytes type pl ++ rest) ∧ u'.pc ≠ .ret none := by
    rintro u e u' ⟨hs, hu⟩ ⟨hb, hl⟩ he
    have ht := turn_of_step he
    refine ⟨hs.turn ht, fun hno => ?_⟩
    rcases ht.failed hu hno with hx | hx | hx
    · rw [hb] at hx
      exact Bool.noConfusion hx
    · rw [hl] at hx
      exact Bool.noConfusion hx
    · rw [hs.not_refused ht hn hf] at hx
      exact Bool.noConfusion hx
  have h0 : (start (frameBytes type pl ++ rest) now errno).pc ≠ .ret none :=
    fun e => FramePc.noConfusion e
  exact (h.inv_of_ok ⟨sound_start _ now errno, h0⟩ hstep hc).2

/-- only a body that is one byte longer than `p` goes past it -/
theorem Sound.stores_lt {i : Nat} (h : u.Sound pcap inp) (hi : u.Stores i)
    (hno : ∀ type pl rest, inp = frameBytes type pl ++ rest → 1 + pl.length < 2 ^ 32 →
      pl.length ≠ pcap) : i < pcap := by
  have hlt : i < u.p.length := hi
  cases hpc : u.pc with
  | ret r =>
    cases r with
    | none =>
      have hle := h.stored.le fun r e => by
        rw [hpc] at e
        cases e
      omega
    | some x =>
      obtain ⟨type, pl⟩ := x
      have hst := h.stored
      unfold Stored at hst
      rw [hpc] at hst
      obtain ⟨h4, hf, hp, hml⟩ := hst
      have hb := fits_iff.mp hf
      rw [hp] at hml
      have hlen : (type :: pl).length = pl.length + 1 := List.length_cons
      have hframe : inp = frameBytes type pl ++ u.inp := by
        have hsplit := h.split
        rw [hp, ← List.append_assoc] at hsplit
        rw [frameBytes_of h4 hml]
        exact hsplit
      have hne := hno type pl u.inp hframe (by omega)
      rw [hp] at hlt
      omega
  | hdr | hdrWait | body | bodyWait =>
    have hle := h.stored.le fun r e => by
      rw [hpc] at e
      cases e
    omega

/-! ## the two recvs of a frame that has arrived -/

/-- the header of a frame that has arrived, with one `recv` -/
theorem step_header (tmo pcap : Nat) (type : UInt8) (pl rest : Bytes) (now : Nat) (errno : FrameErrno)
    (hn : 1 + pl.length < 2 ^ 32) :
    (start (frameBytes type pl ++ rest) now errno).step tmo pcap (.recv (.got 4)) =
      some (if fits pcap (1 + pl.length) then
        ⟨.body, type :: pl ++ rest, packI (1 + pl.length), [], now, now, errno⟩
      else ⟨.ret none, type :: pl ++ rest, packI (1 + pl.length), [], now, now, errno⟩) := by
  have hml := dtGet32_packI hn []
  rw [List.append_nil] at hml
  have hlen : 4 ≤ (frameBytes type pl ++ rest).length := by
    rw [List.length_append, length_frameBytes]
    omega
  show (if 0 < 4 ∧ 4 ≤ 4 - ([] : Bytes).length ∧ 4 ≤ (frameBytes type pl ++ rest).length then
    some _ else none) = _
  rw [if_pos ⟨by decide, Nat.le_refl 4, hlen⟩]
  refine congrArg some ?_
  show (if (packI (1 + pl.length)).length < 4 then _
    else if fits pcap (dtGet32 (packI (1 + pl.length)) 0) = true then _ else _) = _
  have hfour : ¬ (packI (1 + pl.length)).length < 4 := Nat.lt_irrefl 4
  rw [hml, if_neg hfour]
  rfl

/-- its body, with one `recv` -/
theorem step_body (tmo pcap : Nat) (type : UInt8) (pl rest : Bytes) (now : Nat) (errno : FrameErrno)
    (hn : 1 + pl.length < 2 ^ 32) :
    (⟨.body, type :: pl ++ rest, packI (1 + pl.length), [], now, now, errno⟩ : FrameCall).step tmo
        pcap (.recv (.got (1 + pl.length))) =
      some ⟨.ret (some (type, pl)), rest, packI (1 + pl.length), type :: pl, now, now, errno⟩ := by
  have hml := dtGet32_packI hn []
  rw [List.append_nil] at hml
  have hcons : (type :: pl).length = 1 + pl.length := by
    rw [List.length_cons]
    omega
  have htake : (type :: pl ++ rest).take (1 + pl.length) = type :: pl := by
    rw [← hcons]
    exact List.take_left
  have hdrop : (type :: pl ++ rest).drop (1 + pl.length) = rest := by
    rw [← hcons]
    exact List.drop_left
  have hlen : 1 + pl.length ≤ (type :: pl ++ rest).length := by
    rw [List.length_append, hcons]
    omega
  show (if 0 < 1 + pl.length ∧ 1 + pl.length ≤ dtGet32 (packI (1 + pl.length)) 0 - ([] : Bytes).length
    ∧ 1 + pl.length ≤ (type :: pl ++ rest).length then some _ else none) = _
  rw [hml, if_pos ⟨by omega, Nat.le_refl _, hlen⟩]
  refine congrArg some ?_
  show (if ([] ++ (type :: pl ++ rest).take (1 + pl.length)).length
    < dtGet32 (packI (1 + pl.length)) 0 then _ else _) = _
  rw [hml, List.nil_append, htake, hcons, if_neg (Nat.lt_irrefl _), hdrop]
  rfl

end FrameCall


open FrameCall in
/-- **The frame reader is exact and in bounds** for a connection unless the payload of its first frame
has exactly `pcap` bytes, or fits but makes the frame longer than the reader takes. -/
theorem recv_frame_iff (tmo pcap : Nat) (inp : Bytes) :
    Exact tmo pcap inp ↔
      ∀ type pl rest, inp = frameBytes type pl ++ rest → 1 + pl.length < 2 ^ 32 →
        pl.length ≠ pcap ∧ (pl.length ≤ pcap → 1 + pl.length ≤ 65536) := by
  constructor
  · intro h type pl rest hinp hn
    have h1 := step_header tmo pcap type pl rest 0 .other hn
    rw [← hinp] at h1
    have hfit : pl.length ≤ pcap → fits pcap (1 + pl.length) = true := by
      intro hle
      by_contra hf
      rw [if_neg hf] at h1
      obtain ⟨-, -, hc⟩ := h 0 .other _ _ (Path.one h1)
      refine (hc type pl rest hinp hn hle fun x hx => ?_).1 rfl
      rw [List.mem_singleton.mp hx]
      exact ⟨rfl, rfl⟩
    refine ⟨fun heq => ?_, fun hle => (fits_iff.mp (hfit hle)).2.1⟩
    -- the last byte of a body of `pcap + 1` bytes
    rw [if_pos (hfit (Nat.le_of_eq heq))] at h1
    obtain ⟨hb, -, -⟩ := h 0 .other _ _ ((Path.one h1).trans
      (Path.one (step_body tmo pcap type pl rest 0 .other hn)))
    have hlt : pcap < (type :: pl).length := by
      rw [List.length_cons]
      omega
    exact absurd (hb pcap hlt) (Nat.lt_irrefl pcap)
  · intro hok now errno tr u hp
    have hs := Sound.run hp
    refine ⟨fun i hi => hs.stores_lt hi fun type pl rest he hn => (hok type pl rest he hn).1, ?_, ?_⟩
    · intro type pl hpc
      have hst := hs.stored
      unfold Stored at hst
      rw [hpc] at hst
      obtain ⟨h4, -, hpl, hml⟩ := hst
      rw [hpl] at hml
      rw [frameBytes_of h4 hml, List.append_assoc, ← hpl]
      exact hs.split
    · intro type pl rest hinp hn hle hc
      subst hinp
      have hf : fits pcap (1 + pl.length) = true :=
        fits_iff.mpr ⟨by omega, (hok type pl rest rfl hn).2 hle, by omega⟩
      have hu := not_failed_run hp hn hf hc
      exact ⟨hu, hs.returned hn hu⟩

/-- the verdict of the relay, read into `rp[16]` -/
def RP_SIZE : Nat := 16

/-- a frame whose payload has 16 bytes is stored to `rp[0]` to `rp[16]` -/
theorem recv_frame_past : ∃ tr u,
    Path (fun u e => FrameCall.step u 10000 RP_SIZE e)
      (.start (frameBytes 0x0B (List.replicate 16 0)) 0 .other) tr u ∧
      u.pc = .ret (some (0x0B, List.replicate 16 0)) ∧ u.Stores RP_SIZE := by
  have h1 := FrameCall.step_header 10000 RP_SIZE 0x0B (List.replicate 16 0) [] 0
    .other (by decide)
  rw [List.append_nil, if_pos (by decide)] at h1
  exact ⟨_, _, (Path.one h1).trans (Path.one (FrameCall.step_body 10000 RP_SIZE
    0x0B (List.replicate 16 0) [] 0 .other (by decide))), rfl,
    Nat.lt_succ_self 16⟩

end ShadowLan
