import ShadowLan.Hook.Poll
import ShadowLan.Lib.Runs

/-!
# A call of `poll`

`dt_poll_core` is behind `poll`, `ppoll`, `select` and `pselect`.  A call scans the hooked sockets,
waits for the kernel's descriptors in slices, and scans again, until a descriptor has an event or
its time is over.  Whatever other threads do to the tables happens between two looks at them: every
look sees tables of its own.

* `Events`             the bits of `events` and `revents`;
* `scan`               `dt_poll_scan`, the tables as each entry finds them;
* `PollCall.step`      the call, one step up to the next return of the kernel;
* `PollCall.Sound`     what a call has in hand, by where it stands;
* `poll_run`           what a call returns, over any run;
* `connected_hides`    what a stream keeps the app from seeing whose connect it has not been told of.

The wait slot only ends a slice early, and the kernel may do that at any time: it is left out, and
so is the array that cannot be allocated.
-/

namespace ShadowLan

def DT_WAIT_BACKSTOP_MS : Nat := 100

structure Events where
  pollin : Bool
  pollout : Bool
  wrnorm : Bool
  pri : Bool
  rdnorm : Bool
  rdband : Bool
  wrband : Bool
  err : Bool
  hup : Bool
  nval : Bool
  deriving DecidableEq

namespace Events

def none : Events := ⟨false, false, false, false, false, false, false, false, false, false⟩

/-- the events that a scan does not touch -/
def others (e : Events) : Bool :=
  e.pri || e.rdnorm || e.rdband || e.wrband || e.err || e.hup || e.nval

def bits (e : Events) : PollBits := ⟨e.pollin, e.pollout, e.wrnorm, e.others⟩

def set (e : Events) (b : PollBits) : Events :=
  { e with pollin := b.pollin, pollout := b.pollout, wrnorm := b.wrnorm }

/-- `POLLOUT` or `POLLWRNORM` -/
def out (e : Events) : Bool := e.pollout || e.wrnorm

end Events

/-- `struct pollfd` -/
structure PollEnt where
  fd : Int
  events : Events
  revents : Events
  deriving DecidableEq

/-- what a look at the tables finds -/
structure Tables where
  udp : UdpHook
  streams : StreamTable
  udpLike : Nat → Bool

/-- what the kernel says of each descriptor, unless it fails -/
abbrev Kernel := Option (Nat → Events)

section
variable (w : Tables)

/-- `dt_stream_by_sock_peek` -/
def Tables.isStream (fd : Int) : Bool := (w.streams.bySock fd.toNat).isSome && 0 ≤ fd

/-- `dt_fd_kind` -/
def Tables.kind (fd : Int) : Nat :=
  if fd < 0 then 0
  else if w.isStream fd then 2
  else if w.udpLike fd.toNat then 1
  else 0

/-- one turn of `dt_poll_scan` -/
def PollEnt.scan (p : PollEnt) : PollEnt :=
  let q := (scanFd w.udp w.streams w.udpLike ⟨p.fd, p.events.bits, p.revents.bits⟩).2
  { p with revents := p.revents.set q.revents }

end

def PollEnt.ready (p : PollEnt) : Bool := 0 ≤ p.fd && p.revents != .none

/-- `dt_poll_scan` -/
def scan (w : Nat → Tables) (fds : List PollEnt) : List PollEnt := fds.mapIdx fun i p => p.scan (w i)

/-- and its result -/
def readyCount (fds : List PollEnt) : Nat := fds.countP PollEnt.ready

/-- `revents` of every entry is written -/
def written (k : Nat → Events) (fds : List PollEnt) : List PollEnt :=
  fds.mapIdx fun i p => { p with revents := k i }

namespace PollCall

inductive Pc where
  | enter
  /-- nothing of ours is in the array: `ppoll` with the whole time -/
  | plain
  | head
  /-- `ppoll` for `left` ms at most, without the descriptors of `hidden` -/
  | wait (left : Nat) (hidden : Nat → Bool)
  /-- the kernel has answered -/
  | answered
  | ret (n : Int)

end PollCall

structure PollCall where
  pc : PollCall.Pc
  fds : List PollEnt
  /-- `none` is no end -/
  tmo : Option Nat
  t0 : Nat
  /-- the last reading of the clock -/
  now : Nat
  /-- a tunneled stream was in the array -/
  streams : Bool
  polled : Bool

namespace PollCall

inductive Act where
  | enter (now : Nat) (w : Nat → Tables)
  /-- the scan at the head of the loop, and a look at the streams before the wait -/
  | scan (now : Nat) (w peek : Nat → Tables)
  | kernel (k : Kernel)
  | rescan (w : Nat → Tables)

section
variable (c : PollCall)

/-- the slice that is waited for, unless the time is over -/
def left : Option Nat :=
  match c.tmo with
  | none => some DT_WAIT_BACKSTOP_MS
  | some tmo =>
    if tmo ≤ c.now - c.t0 then if c.polled then none else some 0
    else some (min (tmo - (c.now - c.t0)) DT_WAIT_BACKSTOP_MS)

/-- not given to the kernel, or nothing that the kernel looks at -/
def hides (peek : Nat → Tables) (i : Nat) : Bool :=
  (c.fds[i]?).any fun p => p.fd < 0 || c.streams && (peek i).isStream p.fd

/-- what the kernel says of the descriptors it was given -/
def answer (hidden : Nat → Bool) (k : Nat → Events) (i : Nat) : Events :=
  if hidden i then .none else k i

/-- `dt_poll_core` -/
def step : Act → Option PollCall
  | .enter now w =>
    match c.pc with
    | .enter =>
      let kinds := c.fds.mapIdx fun i p => (w i).kind p.fd
      some { c with
        t0 := now, now := now, streams := kinds.contains 2, pc := if kinds.all (· = 0) then .plain else .head }
    | _ => none
  | .scan now w peek =>
    match c.pc with
    | .head =>
      let c := { c with now := now, fds := ShadowLan.scan w (written (fun _ => .none) c.fds) }
      let n := readyCount c.fds
      if n ≠ 0 then some { c with pc := .ret n }
      else
        match c.left with
        | none => some { c with pc := .ret 0 }
        | some left => some { c with polled := true, pc := .wait left (c.hides peek) }
    | _ => none
  | .kernel k =>
    match c.pc, k with
    | .plain, some k =>
      let fds := written k c.fds
      some { c with fds := fds, pc := .ret (readyCount fds) }
    | .wait _ hidden, some k =>
      some { c with fds := written (answer hidden k) c.fds, pc := .answered }
    | .plain, none | .wait .., none => some { c with pc := .ret (-1) }
    | _, _ => none
  | .rescan w =>
    match c.pc with
    | .answered =>
      let fds := ShadowLan.scan w c.fds
      let n := readyCount fds
      some { c with fds := fds, pc := if n ≠ 0 then .ret n else .head }
    | _ => none

end

def start (fds : List PollEnt) (tmo : Option Nat) : PollCall := ⟨.enter, fds, tmo, 0, 0, false, false⟩

/-! ## what a scan leaves alone -/

end PollCall

/-- the app's own part of an entry -/
def PollEnt.asked (p : PollEnt) : Int × Events := (p.fd, p.events)

section
variable {w : Nat → Tables} {fds : List PollEnt}

theorem asked_scan : (scan w fds).map PollEnt.asked = fds.map PollEnt.asked := by
  unfold scan
  apply List.ext_getElem?
  intro i
  simp only [List.getElem?_map, List.getElem?_mapIdx, Option.map_map]
  rfl

theorem asked_written {k : Nat → Events} :
    (written k fds).map PollEnt.asked = fds.map PollEnt.asked := by
  unfold written
  apply List.ext_getElem?
  intro i
  simp only [List.getElem?_map, List.getElem?_mapIdx, Option.map_map]
  rfl

theorem scan_get {i : Nat} {p : PollEnt} (h : (scan w fds)[i]? = some p) :
    ∃ q, fds[i]? = some q ∧ p = q.scan (w i) := by
  unfold scan at h
  rw [List.getElem?_mapIdx] at h
  obtain ⟨q, hq, rfl⟩ := Option.map_eq_some_iff.mp h
  exact ⟨q, hq, rfl⟩

theorem written_get {k : Nat → Events} {i : Nat} {p : PollEnt} (h : (written k fds)[i]? = some p) :
    ∃ q, fds[i]? = some q ∧ p = { q with revents := k i } := by
  unfold written at h
  rw [List.getElem?_mapIdx] at h
  obtain ⟨q, hq, rfl⟩ := Option.map_eq_some_iff.mp h
  exact ⟨q, hq, rfl⟩

/-- `POLLIN` and `POLLOUT` are put in where they were asked for, and the writable ones are taken out -/
theorem revents_scan (w : Tables) (p : PollEnt) : ∃ readable blocked gets : Bool,
    (p.scan w).revents = { p.revents with
      pollin := p.revents.pollin || (p.events.pollin && readable)
      pollout := p.revents.pollout && !blocked || (p.events.out && gets)
      wrnorm := p.revents.wrnorm && !blocked } := by
  obtain ⟨fd, e, i, o, n, pr, rn, rb, wb, er, hu, nv⟩ := p
  unfold PollEnt.scan scanFd
  by_cases hfd : fd < 0
  · simp only [if_pos hfd]
    refine ⟨false, false, false, ?_⟩
    simp only [Bool.and_false, Bool.or_false, Bool.not_false, Bool.and_true]
    rfl
  · let u := if e.pollin = true then udpEnsure w.udp w.udpLike fd.toNat else w.udp
    refine ⟨udpHas u fd.toNat || streamHas w.streams fd.toNat, fdConnecting w.streams fd.toNat,
      (sockState u w.streams fd.toNat).writable || (sockState u w.streams fd.toNat).connect, ?_⟩
    have hout : (e.bits.pollout || e.bits.wrnorm) = e.out := rfl
    have hin : e.bits.pollin = e.pollin := rfl
    simp only [if_neg hfd, hout, hin]
    generalize (e.pollin && _) = a
    generalize fdConnecting w.streams fd.toNat = b
    generalize (e.out && _) = c
    cases a <;> cases b <;> cases c <;> cases i <;> cases o <;> cases n <;> rfl

/-- what nobody asked for is left alone -/
theorem scan_unasked (w : Tables) {p : PollEnt} (hi : p.events.pollin = false)
    (ho : p.events.out = false) (hr : p.revents.out = false) : p.scan w = p := by
  have ho' : (p.events.bits.pollout || p.events.bits.wrnorm) = false := ho
  have hr' : (p.revents.bits.pollout || p.revents.bits.wrnorm) = false := hr
  have hi' : p.events.bits.pollin = false := hi
  unfold PollEnt.scan scanFd
  split
  · rfl
  · simp only [hi', ho', hr', Bool.false_and, Bool.false_eq_true, if_false]
    rfl

end

namespace PollCall
variable {c c' : PollCall} {tr : List (PollCall × Act)} {fds : List PollEnt} {tmo : Option Nat}

/-! ## a run of the call -/

/-- entry `i` was scanned with these tables -/
def Looked (tr : List (PollCall × Act)) (i : Nat) (w : Tables) : Prop :=
  ∃ x ∈ tr, match x.2 with
    | .scan _ w' _ | .rescan w' => w' i = w
    | _ => False

/-- the kernel's last answer: it was given descriptor `i`, and has said `k` -/
def Heard (tr : List (PollCall × Act)) (i : Nat) (k : Events) : Prop :=
  ∃ pre x post k', tr = pre ++ x :: post ∧ (∀ y ∈ post, ∀ k, y.2 ≠ .kernel k) ∧
    x.2 = .kernel (some k') ∧ k' i = k ∧
    match x.1.pc with
    | .wait _ hidden => hidden i = false
    | _ => True

/-- the last step is a look at the tables `w`, over what stood in `revents`: nothing at the head of
the loop, and after a wait the kernel's answer -/
inductive LastLook : List (PollCall × Act) → (Nat → Tables) → (Nat → Events) → Prop
  | head (pre : List (PollCall × Act)) (c : PollCall) (now : Nat) (w peek : Nat → Tables) :
    LastLook (pre ++ [(c, .scan now w peek)]) w fun _ => .none
  | after (pre : List (PollCall × Act)) (c c' : PollCall) (left : Nat) (hidden : Nat → Bool)
    (k : Nat → Events) (w : Nat → Tables) (hc : c.pc = .wait left hidden) :
    LastLook (pre ++ [(c, .kernel (some k)), (c', .rescan w)]) w (answer hidden k)

/-- every entry is as that look leaves it -/
def Merged (tr : List (PollCall × Act)) (fds : List PollEnt) : Prop :=
  ∃ w k, LastLook tr w k ∧
    ∀ i p, fds[i]? = some p → p = PollEnt.scan (w i) { p with revents := k i }

theorem LastLook.looked {w : Nat → Tables} {k : Nat → Events} (h : LastLook tr w k) (i : Nat) :
    Looked tr i (w i) := by
  cases h with
  | head pre c now w peek => exact ⟨_, List.mem_append_right _ List.mem_cons_self, rfl⟩
  | after pre c c' left hidden k w hc =>
    exact ⟨(c', .rescan w), List.mem_append_right _ (List.mem_cons_of_mem _ List.mem_cons_self), rfl⟩

/-- what stood there was nothing, or the kernel's last word -/
theorem LastLook.heard {w : Nat → Tables} {k : Nat → Events} (h : LastLook tr w k) (i : Nat) :
    k i = .none ∨ Heard tr i (k i) := by
  cases h with
  | head pre c now w peek => exact Or.inl rfl
  | after pre c c' left hidden k w hc =>
    unfold answer
    cases hi : hidden i with
    | true => exact Or.inl rfl
    | false =>
      refine Or.inr ⟨pre, (c, .kernel (some k)), [(c', .rescan w)], k, rfl, ?_, rfl, rfl, ?_⟩
      · intro y hy
        rw [List.mem_singleton.mp hy]
        exact nofun
      · rw [hc]
        exact hi

/-- what the call found as it was entered -/
def Entered (fds : List PollEnt) (tr : List (PollCall × Act)) (ours : Bool) : Prop :=
  ∃ x ∈ tr, match x.2 with
    | .enter _ w => (fds.mapIdx fun i p => (w i).kind p.fd).all (· = 0) = !ours
    | _ => False

theorem Entered.snoc {ours : Bool} (h : Entered fds tr ours) (x : PollCall × Act) :
    Entered fds (tr ++ [x]) ours := by
  obtain ⟨y, hy, hk⟩ := h
  exact ⟨y, List.mem_append_left _ hy, hk⟩

/-- how a call comes out -/
inductive Outcome (fds : List PollEnt) (tr : List (PollCall × Act)) (c : PollCall) : Int → Prop
  | failed : Outcome fds tr c (-1)
  /-- nothing is ours: what the kernel says -/
  | plain (he : Entered fds tr false) (h : ∀ i p, c.fds[i]? = some p → Heard tr i p.revents) :
    Outcome fds tr c (readyCount c.fds)
  /-- some entry has an event -/
  | ready (he : Entered fds tr true) (hn : readyCount c.fds ≠ 0)
    (h : Merged tr c.fds) : Outcome fds tr c (readyCount c.fds)
  /-- the kernel was asked, and the time is over -/
  | late (he : Entered fds tr true) (hp : c.polled = true) (tmo : Nat) (ht : c.tmo = some tmo)
    (hl : tmo ≤ c.now - c.t0) (hn : readyCount c.fds = 0) : Outcome fds tr c 0

/-- what a call has in hand -/
def At (fds : List PollEnt) (tr : List (PollCall × Act)) (c : PollCall) : Prop :=
  match c.pc with
  | .enter => c.fds = fds ∧ c.polled = false
  | .plain => Entered fds tr false ∧ c.fds = fds ∧ c.polled = false
  | .head => Entered fds tr true
  | .wait left _ => Entered fds tr true ∧ c.polled = true ∧ left ≤ DT_WAIT_BACKSTOP_MS ∧
      ∀ tmo, c.tmo = some tmo → left ≤ tmo - (c.now - c.t0)
  | .answered => Entered fds tr true ∧ ∃ pre c₀ left hidden k,
      tr = pre ++ [(c₀, .kernel (some k))] ∧ c₀.pc = .wait left hidden ∧
      ∀ i p, c.fds[i]? = some p → p.revents = answer hidden k i
  | .ret n => Outcome fds tr c n

structure Sound (fds : List PollEnt) (tmo : Option Nat) (tr : List (PollCall × Act)) (c : PollCall) :
    Prop where
  kept : c.fds.map PollEnt.asked = fds.map PollEnt.asked
  tmo : c.tmo = tmo
  here : At fds tr c

theorem sound_start : Sound fds tmo [] (start fds tmo) := ⟨rfl, rfl, rfl, rfl⟩

/-- one look at every entry -/
theorem merged_scan {w : Nat → Tables} {k : Nat → Events} {fds' : List PollEnt}
    (hl : LastLook tr w k) (hk : ∀ i p, fds'[i]? = some p → p.revents = k i) :
    Merged tr (ShadowLan.scan w fds') := by
  refine ⟨w, k, hl, fun i p hp => ?_⟩
  obtain ⟨q, hq, rfl⟩ := scan_get hp
  rw [← hk i q hq]
  rfl

theorem Sound.enter (h : Sound fds tmo tr c) {now : Nat} {w : Nat → Tables}
    (hs : c.step (.enter now w) = some c') : Sound fds tmo (tr ++ [(c, .enter now w)]) c' := by
  cases hpc : c.pc with
  | enter =>
    simp only [step, hpc] at hs
    rw [← Option.some.inj hs]
    refine ⟨h.kept, h.tmo, ?_⟩
    have hh := h.here
    simp only [At, hpc] at hh
    have he : ∀ ours, (c.fds.mapIdx fun i p => (w i).kind p.fd).all (· = 0) = !ours →
        Entered fds (tr ++ [(c, .enter now w)]) ours := by
      intro ours hk
      rw [hh.1] at hk
      exact ⟨_, List.mem_append_right _ List.mem_cons_self, hk⟩
    cases hk : (c.fds.mapIdx fun i p => (w i).kind p.fd).all (· = 0) with
    | true => exact ⟨he false hk, hh⟩
    | false => exact he true hk
  | _ => simp [step, hpc] at hs

theorem left_le {l : Nat} (h : c.left = some l) : l ≤ DT_WAIT_BACKSTOP_MS ∧
    ∀ tmo, c.tmo = some tmo → l ≤ tmo - (c.now - c.t0) := by
  unfold left at h
  cases ht : c.tmo with
  | none =>
    rw [ht] at h
    rw [← Option.some.inj h]
    exact ⟨le_refl _, nofun⟩
  | some t =>
    rw [ht] at h
    dsimp only at h
    split at h
    · obtain ⟨-, h⟩ := Option.ite_none_left_eq_some.mp h
      rw [← Option.some.inj h]
      exact ⟨Nat.zero_le _, fun _ _ => Nat.zero_le _⟩
    · rw [← Option.some.inj h]
      refine ⟨min_le_right _ _, fun tmo he => ?_⟩
      rw [← Option.some.inj he]
      exact min_le_left _ _

theorem left_none (h : c.left = none) : c.polled = true ∧
    ∃ tmo, c.tmo = some tmo ∧ tmo ≤ c.now - c.t0 := by
  unfold left at h
  cases ht : c.tmo with
  | none => simp [ht] at h
  | some t =>
    rw [ht] at h
    dsimp only at h
    split at h
    · rename_i hle
      split at h
      · rename_i hp
        exact ⟨hp, t, rfl, hle⟩
      · exact absurd h (by simp)
    · exact absurd h (by simp)

theorem Sound.scan (h : Sound fds tmo tr c) {now : Nat} {w peek : Nat → Tables}
    (hs : c.step (.scan now w peek) = some c') :
    Sound fds tmo (tr ++ [(c, .scan now w peek)]) c' := by
  cases hpc : c.pc with
  | head =>
    have hh := h.here
    simp only [At, hpc] at hh
    have he := hh.snoc (c, .scan now w peek)
    have hkept : (ShadowLan.scan w (written (fun _ => .none) c.fds)).map PollEnt.asked =
        fds.map PollEnt.asked := by
      rw [asked_scan, asked_written, h.kept]
    simp only [step, hpc] at hs
    split at hs
    · rename_i hn
      rw [← Option.some.inj hs]
      refine ⟨hkept, h.tmo, .ready he hn (merged_scan (.head tr c now w peek) fun i p hp => ?_)⟩
      obtain ⟨q, -, rfl⟩ := written_get hp
      rfl
    · rename_i hn
      rw [not_not] at hn
      split at hs
      · rename_i hl
        rw [← Option.some.inj hs]
        obtain ⟨hp, t, ht, hle⟩ := left_none hl
        exact ⟨hkept, h.tmo, .late he hp t ht hle hn⟩
      · rename_i l hl
        have hle := left_le hl
        rw [← Option.some.inj hs]
        exact ⟨hkept, h.tmo, he, rfl, hle⟩
  | _ => simp [step, hpc] at hs

theorem Sound.kernel (h : Sound fds tmo tr c) {k : Kernel} (hs : c.step (.kernel k) = some c') :
    Sound fds tmo (tr ++ [(c, .kernel k)]) c' := by
  have hh := h.here
  cases hpc : c.pc with
  | plain =>
    simp only [At, hpc] at hh
    cases k with
    | none =>
      simp only [step, hpc] at hs
      rw [← Option.some.inj hs]
      exact ⟨h.kept, h.tmo, .failed⟩
    | some k =>
      simp only [step, hpc] at hs
      rw [← Option.some.inj hs]
      refine ⟨asked_written.trans h.kept, h.tmo, .plain (hh.1.snoc _) fun i p hp => ?_⟩
      obtain ⟨q, -, rfl⟩ := written_get hp
      refine ⟨tr, _, [], k, rfl, nofun, rfl, rfl, ?_⟩
      rw [hpc]
      trivial
  | wait left hidden =>
    simp only [At, hpc] at hh
    cases k with
    | none =>
      simp only [step, hpc] at hs
      rw [← Option.some.inj hs]
      exact ⟨h.kept, h.tmo, .failed⟩
    | some k =>
      simp only [step, hpc] at hs
      rw [← Option.some.inj hs]
      refine ⟨asked_written.trans h.kept, h.tmo, hh.1.snoc _, tr, c, left, hidden, k, rfl, hpc,
        fun i p hp => ?_⟩
      obtain ⟨q, -, rfl⟩ := written_get hp
      rfl
  | _ => simp [step, hpc] at hs

theorem Sound.rescan (h : Sound fds tmo tr c) {w : Nat → Tables}
    (hs : c.step (.rescan w) = some c') : Sound fds tmo (tr ++ [(c, .rescan w)]) c' := by
  cases hpc : c.pc with
  | answered =>
    have hh := h.here
    simp only [At, hpc] at hh
    obtain ⟨he, pre, c₀, left, hidden, k, htr, hc₀, hk⟩ := hh
    simp only [step, hpc] at hs
    rw [← Option.some.inj hs]
    refine ⟨asked_scan.trans h.kept, h.tmo, ?_⟩
    have he' := he.snoc (c, .rescan w)
    by_cases hn : readyCount (ShadowLan.scan w c.fds) ≠ 0
    · simp only [At, if_pos hn]
      refine .ready he' hn (merged_scan ?_ hk)
      rw [htr, List.append_assoc]
      exact .after pre c₀ c left hidden k w hc₀
    · simp only [At, if_neg hn]
      exact he'
  | _ => simp [step, hpc] at hs

theorem sound_run (h : Path step (start fds tmo) tr c) : Sound fds tmo tr c := by
  induction h with
  | nil => exact sound_start
  | @snoc tr u u' a hp hs ih =>
    cases a with
    | enter now w => exact ih.enter hs
    | scan now w peek => exact ih.scan hs
    | kernel k => exact ih.kernel hs
    | rescan w => exact ih.rescan hs

/-- a wait that the call begins: a slice at most, and no more than is left of the time -/
def InTime (tmo : Option Nat) (c : PollCall) : Prop :=
  ∀ left hidden, c.pc = .wait left hidden →
    left ≤ DT_WAIT_BACKSTOP_MS ∧ ∀ t, tmo = some t → left ≤ t - (c.now - c.t0)

theorem Sound.inTime (h : Sound fds tmo tr c) : InTime tmo c := by
  intro left hidden hpc
  have hh := h.here
  simp only [At, hpc] at hh
  exact ⟨hh.2.2.1, fun t ht => hh.2.2.2 t (h.tmo.trans ht)⟩

theorem inTime_run (h : Path step (start fds tmo) tr c) : ∀ u ∈ visited tr c, InTime tmo u := by
  induction h with
  | nil =>
    intro u hu
    rw [List.mem_singleton.mp hu]
    exact sound_start.inTime
  | @snoc tr u u' a hp hs ih =>
    intro v hv
    rw [visited_snoc] at hv
    rcases List.mem_append.mp hv with hv | hv
    · exact ih v hv
    · rw [List.mem_singleton.mp hv]
      exact (sound_run (hp.snoc hs)).inTime

/-- **What a call returns.**  The app's own fields are left alone, and the result counts the entries
with an event: whatever happens to the tables meanwhile, it is the kernel's word when nothing of ours
was in the array, else the last look at the tables over the kernel's last word, and 0 only after the
kernel was asked and the time is over.  No wait is longer than what is left. -/
theorem poll_run {n : Int} (h : Path step (start fds tmo) tr c) (hr : c.pc = .ret n) :
    c.fds.map PollEnt.asked = fds.map PollEnt.asked ∧ c.tmo = tmo ∧ Outcome fds tr c n ∧
      ∀ u ∈ visited tr c, InTime tmo u := by
  have hs := sound_run h
  have hh := hs.here
  simp only [At, hr] at hh
  exact ⟨hs.kept, hs.tmo, hh, inTime_run h⟩

/-- the tables as the process starts -/
def noRows (udpLike : Nat → Bool) : Nat → Tables := fun _ => ⟨.init, .init, udpLike⟩

theorem isStream_noRows (udpLike : Nat → Bool) (i : Nat) (fd : Int) :
    (noRows udpLike i).isStream fd = false := by
  have hno : (noRows udpLike i).streams.bySock fd.toNat = none := by
    unfold StreamTable.bySock
    split
    · rfl
    · exact Fin.find?_eq_none_iff.mpr fun _ => rfl
  unfold Tables.isStream
  rw [hno]
  rfl

/-- urgent data on a datagram socket of ours -/
def urgent : Events := { Events.none with pri := true }

theorem poll_urgent : ∃ tr c, Path step (start [⟨5, urgent, .none⟩] (some 30)) tr c ∧
    c.fds = [⟨5, urgent, urgent⟩] ∧ Outcome [⟨5, urgent, .none⟩] tr c 1 := by
  let w := noRows fun _ => true
  have hkind : (w 0).kind 5 = 1 := by
    unfold Tables.kind
    rw [isStream_noRows]
    rfl
  have hscan : ∀ r : Events, r.out = false → scan w [⟨5, urgent, r⟩] = [⟨5, urgent, r⟩] := by
    intro r hr
    unfold scan
    rw [List.mapIdx_cons, List.mapIdx_nil, scan_unasked (w 0) rfl rfl hr]
  let c : PollCall := ⟨.enter, [⟨5, urgent, .none⟩], some 30, 0, 0, false, false⟩
  have h1 : c.step (.enter 0 w) = some { c with pc := .head } := by
    simp only [step, c, List.mapIdx_cons, List.mapIdx_nil, hkind]
    rfl
  have h2 : step { c with pc := .head } (.scan 0 w w) =
      some { c with polled := true, pc := .wait 30 (hides { c with pc := .head } w) } := by
    simp only [step, c, written, List.mapIdx_cons, List.mapIdx_nil, hscan .none rfl]
    rfl
  have h3 : step { c with polled := true, pc := .wait 30 (hides { c with pc := .head } w) }
      (.kernel (some fun _ => urgent)) =
        some { c with polled := true, fds := [⟨5, urgent, urgent⟩], pc := .answered } := by
    have hh : hides { c with pc := .head } w 0 = false := rfl
    simp only [step, c, written, answer, List.mapIdx_cons, List.mapIdx_nil]
    rfl
  have h4 : step { c with polled := true, fds := [⟨5, urgent, urgent⟩], pc := .answered } (.rescan w) =
      some { c with polled := true, fds := [⟨5, urgent, urgent⟩], pc := .ret 1 } := by
    simp only [step, c, hscan urgent rfl]
    rfl
  have hstart : Path step c [] c := .nil
  have hpath := (((hstart.snoc h1).snoc h2).snoc h3).snoc h4
  exact ⟨_, _, hpath, rfl, (poll_run hpath rfl).2.2.1⟩

end PollCall

/-! ## descriptors that are not ours -/

/-- no row of ours has this descriptor -/
structure Tables.Foreign (w : Tables) (s : Nat) : Prop where
  dgram : ∀ i, ((w.udp.g_uq i).used && (w.udp.g_uq i).gsock == s) = false
  stream : ∀ i, ((w.streams.g_st i).used && (w.streams.g_st i).gsock == s) = false
  like : w.udpLike s = false

theorem anyRow_eq_false {ρ : Type*} {n : Nat} {rows : Fin n → ρ} {p : ρ → Bool}
    (h : ∀ i, p (rows i) = false) : anyRow rows p = false := by
  unfold anyRow
  rw [first_eq_none_iff.mpr h]
  rfl

section
variable {w : Tables} {p : PollEnt}

theorem Tables.Foreign.state {s : Nat} (h : w.Foreign s) :
    ((sockState w.udp w.streams s).writable || (sockState w.udp w.streams s).connect) = false := by
  have hd : ∀ i, ((w.udp.g_uq i).used && !(w.udp.g_uq i).closed &&
      (w.udp.g_uq i).gsock == s) = false := by
    intro i
    have hi := h.dgram i
    cases hu : (w.udp.g_uq i).used with
    | false => rfl
    | true =>
      rw [hu, Bool.true_and] at hi
      rw [hi, Bool.and_false]
  unfold sockState
  rw [Bool.or_eq_false_iff, Bool.or_eq_false_iff]
  refine ⟨⟨anyRow_eq_false hd, anyRow_eq_false fun i => ?_⟩, anyRow_eq_false fun i => ?_⟩
  · dsimp only
    rw [h.stream i, Bool.false_and]
  · dsimp only
    rw [h.stream i, Bool.false_and, Bool.false_and]

/-- a scan leaves a foreign descriptor alone -/
theorem Tables.Foreign.scan (h : w.Foreign p.fd.toNat) : p.scan w = p := by
  have hstream : w.streams.bySock p.fd.toNat = none := by
    unfold StreamTable.bySock
    split
    · rfl
    · exact Fin.find?_eq_none_iff.mpr h.stream
  have hhas : udpHas w.udp p.fd.toNat = false := by
    unfold udpHas UdpHook.udpEntry
    rw [first_eq_none_iff.mpr h.dgram]
    rfl
  have hs := h.state
  rcases p with ⟨fd, events, revents⟩
  unfold PollEnt.scan scanFd
  by_cases hfd : fd < 0
  · simp only [if_pos hfd]
    rfl
  · simp only [udpEnsure, h.like, streamHas, fdConnecting, hstream, hhas, hs, if_neg hfd, ite_self,
      Option.any_none, Bool.or_self, Bool.and_false, Bool.false_eq_true, if_false]
    rfl

end

/-- a stream of this descriptor that is open, and whose connect the app has not been told of -/
def Connected (fd : Int) (w : Tables) : Prop :=
  ∃ i, w.streams.bySock fd.toNat = some i ∧ (w.streams.g_st i).Open ∧
    (w.streams.g_st i).connectSignaled = false

theorem Connected.kind {w : Tables} {fd : Int} (h : Connected fd w) (hfd : 0 ≤ fd) : w.kind fd = 2 := by
  obtain ⟨i, hi, -⟩ := h
  have hs : w.isStream fd = true := by
    unfold Tables.isStream
    rw [hi, Bool.and_eq_true]
    exact ⟨rfl, decide_eq_true hfd⟩
  unfold Tables.kind
  rw [if_neg (not_lt.mpr hfd), if_pos hs]

theorem Connected.ready {w : Tables} {p : PollEnt} (h : Connected p.fd w) (hfd : 0 ≤ p.fd)
    (he : p.events.out = true) : (p.scan w).ready = true := by
  obtain ⟨i, hi, ho, hc⟩ := h
  have hout : (p.scan w).revents.pollout = true :=
    scanFd_out w.udp w.udpLike (Int.toNat_of_nonneg hfd).symm
      (fun u => sockState_connect u hi ho hc) he
  have hne : (p.scan w).revents ≠ .none := by
    intro hn
    rw [hn] at hout
    cases hout
  unfold PollEnt.ready
  rw [Bool.and_eq_true]
  exact ⟨decide_eq_true hfd, bne_iff_ne.mpr hne⟩

theorem readyCount_ne_zero {fds : List PollEnt} {i : Nat} {p : PollEnt} (hi : fds[i]? = some p)
    (hp : p.ready = true) : readyCount fds ≠ 0 := by
  have h : 0 < fds.countP PollEnt.ready :=
    List.countP_pos_iff.mpr ⟨p, List.mem_of_getElem? hi, hp⟩
  exact h.ne'

namespace PollCall
variable {c c' : PollCall} {tr : List (PollCall × Act)} {fds : List PollEnt} {tmo : Option Nat}

/-- every look of this step finds the stream of entry `j` open -/
def Finds (j : Nat) (fd : Int) : Act → Prop
  | .enter _ w | .scan _ w _ | .rescan w => Connected fd (w j)
  | .kernel _ => True

/-- the kernel is not asked -/
structure Stuck (fds : List PollEnt) (c : PollCall) : Prop where
  kept : c.fds.map PollEnt.asked = fds.map PollEnt.asked
  polled : c.polled = false
  pc : match c.pc with
    | .enter | .head => True
    | .ret n => 0 < n
    | _ => False

theorem stuck_step {j : Nat} {p : PollEnt} (hj : fds[j]? = some p) (hfd : 0 ≤ p.fd)
    (he : p.events.out = true) (h : Stuck fds c) {a : Act} (ha : Finds j p.fd a)
    (hs : c.step a = some c') : Stuck fds c' := by
  have hpc := h.pc
  have hask : (c.fds.map PollEnt.asked)[j]? = some p.asked := by
    rw [h.kept, List.getElem?_map, hj]
    rfl
  rw [List.getElem?_map] at hask
  obtain ⟨q, hq, hqp⟩ := Option.map_eq_some_iff.mp hask
  obtain ⟨hqfd, hqev⟩ := Prod.mk.inj hqp
  have hqfd : q.fd = p.fd := hqfd
  have hqev : q.events = p.events := hqev
  cases a with
  | enter now w =>
    cases hc : c.pc with
    | enter =>
      have hkind : (c.fds.mapIdx fun i p => (w i).kind p.fd).all (· = 0) = false := by
        rw [List.all_eq_false]
        refine ⟨2, List.mem_of_getElem? (i := j) ?_, by decide⟩
        rw [List.getElem?_mapIdx, hq, Option.map_some, hqfd, Connected.kind ha hfd]
      simp only [step, hc, hkind] at hs
      rw [← Option.some.inj hs]
      exact ⟨h.kept, h.polled, trivial⟩
    | _ => simp [step, hc] at hs
  | scan now w peek =>
    cases hc : c.pc with
    | head =>
      have hn : readyCount (ShadowLan.scan w (written (fun _ => .none) c.fds)) ≠ 0 := by
        refine readyCount_ne_zero (i := j) (p := PollEnt.scan (w j) { q with revents := .none }) ?_ ?_
        · unfold ShadowLan.scan written
          rw [List.getElem?_mapIdx, List.getElem?_mapIdx, hq]
          rfl
        · refine Connected.ready ?_ ?_ ?_
          · show Connected q.fd (w j)
            rw [hqfd]
            exact ha
          · show 0 ≤ q.fd
            rw [hqfd]
            exact hfd
          · show q.events.out = true
            rw [hqev]
            exact he
      simp only [step, hc] at hs
      rw [if_pos hn] at hs
      rw [← Option.some.inj hs]
      refine ⟨?_, h.polled, ?_⟩
      · show (ShadowLan.scan w _).map PollEnt.asked = _
        rw [asked_scan, asked_written, h.kept]
      · show (0 : Int) < _
        omega
    | _ => simp [step, hc] at hs
  | kernel k =>
    cases hc : c.pc with
    | plain | wait => simp [hc] at hpc
    | _ => simp [step, hc] at hs
  | rescan w =>
    cases hc : c.pc with
    | answered => simp [hc] at hpc
    | _ => simp [step, hc] at hs

/-- the call is in `ppoll`, with all descriptors or with those that are not streams -/
def Asks (c : PollCall) : Prop := c.pc = .plain ∨ ∃ left hidden, c.pc = .wait left hidden

theorem Stuck.not_asks (h : Stuck fds c) : ¬ Asks c := by
  have hpc := h.pc
  rintro (hc | ⟨left, hidden, hc⟩) <;> rw [hc] at hpc <;> exact hpc

/-- **What a connected stream hides.**  As long as a tunneled stream that is open, and whose connect
the app has not been told of, is asked for `POLLOUT`, every call has an event, and never an event of a
descriptor that is not ours: the kernel is not asked, however often and however long the app polls. -/
theorem connected_hides {j : Nat} {p : PollEnt} {n : Int} (h : Path step (start fds tmo) tr c)
    (hr : c.pc = .ret n) (hj : fds[j]? = some p) (hfd : 0 ≤ p.fd) (he : p.events.out = true)
    (hfind : ∀ x ∈ tr, Finds j p.fd x.2) :
    0 < n ∧ (∀ u ∈ visited tr c, ¬ Asks u) ∧
      ∀ i q, c.fds[i]? = some q → (∀ w, Looked tr i w → w.Foreign q.fd.toNat) →
        q.revents = .none := by
  have hkeep : ∀ (u : PollCall) (a : Act) (u' : PollCall), Stuck fds u → Finds j p.fd a →
      u.step a = some u' → Stuck fds u' := fun _ _ _ hi ho hs => stuck_step hj hfd he hi ho hs
  have hall : ∀ u ∈ visited tr c, Stuck fds u :=
    h.all_of_ok ⟨rfl, rfl, trivial⟩ (fun _ hu => hu) hkeep hfind
  have hstuck : Stuck fds c := hall c (List.mem_append_right _ List.mem_cons_self)
  have hnot : ∀ u ∈ visited tr c, ¬ Asks u := fun u hu => (hall u hu).not_asks
  have hn : 0 < n := by
    have hpc := hstuck.pc
    rw [hr] at hpc
    exact hpc
  refine ⟨hn, hnot, fun i q hq hforeign => ?_⟩
  have hs := sound_run h
  have hh := hs.here
  simp only [At, hr] at hh
  cases hh with
  | failed => exact absurd hn (by decide)
  | plain he' _ =>
    obtain ⟨⟨u, a⟩, hx, hk⟩ := he'
    cases a with
    | enter now w =>
      have hw : Connected p.fd (w j) := hfind _ hx
      have hmem : (2 : Nat) ∈ fds.mapIdx fun i p => (w i).kind p.fd := by
        refine List.mem_of_getElem? (i := j) ?_
        rw [List.getElem?_mapIdx, hj, Option.map_some, hw.kind hfd]
      exact absurd (List.all_eq_true.mp hk 2 hmem) (by decide)
    | _ => exact hk.elim
  | ready _ _ hm =>
    obtain ⟨w, k, hl, hqw⟩ := hm
    have hk : k i = .none := by
      cases hl with
      | head => rfl
      | after pre u u' left hidden k w hu =>
        have hmem : u ∈ visited (pre ++ [(u, .kernel (some k)), (u', .rescan w)]) c :=
          mem_visited (x := (u, .kernel (some k))) (List.mem_append_right _ List.mem_cons_self)
        exact absurd (Or.inr ⟨left, hidden, hu⟩) (hnot u hmem)
    have hf : (w i).Foreign q.fd.toNat := hforeign (w i) (hl.looked i)
    have hsame : PollEnt.scan (w i) { q with revents := k i } = { q with revents := k i } :=
      Tables.Foreign.scan hf
    rw [hqw i q hq, hsame]
    exact hk
  | late _ hp => exact absurd (hstuck.polled.symm.trans hp) (by decide)

/-- a plain socket is polled beside a stream that was dialed and confirmed -/
def besideStream : List PollEnt :=
  [⟨5, { Events.none with pollin := true }, .none⟩, ⟨7, { Events.none with pollout := true }, .none⟩]

set_option maxRecDepth 4000 in
theorem hides_besideStream : ∃ tr c n, Path step (start besideStream none) tr c ∧ c.pc = .ret n ∧
    0 < n ∧ (∀ u ∈ visited tr c, ¬ Asks u) ∧ ∀ q, c.fds[0]? = some q → q.revents = .none := by
  obtain ⟨T, hT, hl, hs, ho, -⟩ := oneByte_run
  have hno : ∀ T ∈ run StreamTable.step StreamTable.init oneByte, T.bySock 5 = none := by decide
  let w : Nat → Tables := fun _ => ⟨.init, T, fun _ => false⟩
  have hw : Connected 7 (w 1) :=
    ⟨0, hs, ho, StreamTable.unsignaled_run (path_run hT) hl 0⟩
  have hforeign : (w 0).Foreign 5 := by
    refine ⟨fun _ => rfl, fun i => ?_, rfl⟩
    have h5 : T.bySock 5 = none := hno T hT
    unfold StreamTable.bySock at h5
    rw [if_neg (by decide)] at h5
    exact Fin.find?_eq_none_iff.mp h5 i
  let c : PollCall := start besideStream none
  have h1 : c.step (.enter 0 w) = some { c with streams := true, pc := .head } := by
    simp [step, c, start, besideStream, hw.kind]
  have hn : readyCount (ShadowLan.scan w (written (fun _ => .none) besideStream)) ≠ 0 := by
    refine readyCount_ne_zero (i := 1) rfl (Connected.ready hw (by decide) rfl)
  have h2 : step { c with streams := true, pc := .head } (.scan 0 w w) = some { c with
      streams := true, fds := ShadowLan.scan w (written (fun _ => .none) besideStream),
      pc := .ret (readyCount (ShadowLan.scan w (written (fun _ => .none) besideStream))) } := by
    simp only [step]
    exact if_pos hn
  have hstart : Path step c [] c := .nil
  have hpath := (hstart.snoc h1).snoc h2
  have hfind : ∀ x ∈ ([] ++ [(c, Act.enter 0 w)]) ++
      [({ c with streams := true, pc := .head }, Act.scan 0 w w)], Finds 1 7 x.2 := by
    intro x hx
    rcases List.mem_append.mp hx with hx | hx
    · rw [List.mem_singleton.mp hx]
      exact hw
    · rw [List.mem_singleton.mp hx]
      exact hw
  obtain ⟨hpos, hnot, hq⟩ := connected_hides (p := ⟨7, { Events.none with pollout := true }, .none⟩)
    (j := 1) hpath rfl rfl (by decide) rfl hfind
  refine ⟨_, _, _, hpath, rfl, hpos, hnot, fun q h0 => hq 0 q h0 fun v hv => ?_⟩
  obtain ⟨x, hx, hv⟩ := hv
  have hfd : q.fd = 5 := by
    obtain ⟨q', hq', rfl⟩ := scan_get h0
    obtain ⟨q'', hq'', rfl⟩ := written_get hq'
    rw [← Option.some.inj hq'']
    rfl
  rw [hfd]
  rcases List.mem_append.mp hx with hx | hx
  · rw [List.mem_singleton.mp hx] at hv
    exact hv.elim
  · rw [List.mem_singleton.mp hx] at hv
    rw [← hv]
    exact hforeign

end PollCall

end ShadowLan
