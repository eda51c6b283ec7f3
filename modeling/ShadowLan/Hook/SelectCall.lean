import Mathlib.Data.List.Nodup
import ShadowLan.Hook.PollCall

/-!
# A call of `select`

`dt_select_core` asks `dt_poll_core`, and reads the three sets off its array with the masks of the
kernel.  The poll core comes back for any event, the masks do not take every event: what falls
between is reported as 0.

* `selectFds`, `selectAnswer`   the array, and what becomes of it;
* `FairWord`                    what the kernel may say of a descriptor;
* `select_run`                  the sets that come back are part of what was asked, and are counted;
* `select_zero_iff`             when 0 comes back.
-/

namespace ShadowLan

def FD_SETSIZE : Nat := 1024

/-- `fd_set *`; `none` is NULL -/
abbrev FdSet := Option (Nat → Bool)

def FdSet.has (s : FdSet) (fd : Nat) : Bool := s.any fun f => f fd

inductive SelectErrno where
  | EINVAL
  | EBADF
  /-- what `ppoll` has left there -/
  | poll
  deriving DecidableEq

section
variable (nfds : Nat) (r w x : FdSet)

/-- the bits that `select` asks for -/
def selectEvents (fd : Nat) : Events :=
  { Events.none with pollin := r.has fd, pollout := w.has fd, pri := x.has fd }

/-- the array for the poll core -/
def selectFds : List PollEnt :=
  (List.range nfds).filterMap fun fd =>
    if selectEvents r w x fd = .none then none else some ⟨fd, selectEvents r w x fd, .none⟩

end

namespace PollEnt
variable (p : PollEnt)

/-- `POLLIN_SET` -/
def reads : Bool :=
  p.events.pollin && (p.revents.pollin || p.revents.rdnorm || p.revents.rdband || p.revents.hup ||
    p.revents.err)

/-- `POLLOUT_SET` -/
def writes : Bool :=
  p.events.pollout && (p.revents.pollout || p.revents.wrnorm || p.revents.wrband || p.revents.err)

/-- `POLLEX_SET` -/
def excepts : Bool := p.events.pri && p.revents.pri

end PollEnt

/-- `FD_ZERO`, and `FD_SET` for the entries of `hit` -/
def FdSet.fill (s : FdSet) (hit : PollEnt → Bool) (fds : List PollEnt) : FdSet :=
  s.map fun _ fd => fds.any fun p => p.fd == (fd : Int) && hit p

/-- what becomes of the array when the poll core has returned `n` -/
def selectAnswer (n : Int) (fds : List PollEnt) (r w x : FdSet) :
    Except SelectErrno (Nat × FdSet × FdSet × FdSet) :=
  if n < 0 then .error .poll
  else if fds.any fun p => p.revents.nval then .error .EBADF
  else .ok (fds.countP PollEnt.reads + fds.countP PollEnt.writes + fds.countP PollEnt.excepts,
    r.fill PollEnt.reads fds, w.fill PollEnt.writes fds, x.fill PollEnt.excepts fds)

/-- `dt_select_core`, the poll core in the middle -/
def selectCore (nfds : Int) (r w x : FdSet) (poll : List PollEnt → Int × List PollEnt) :
    Except SelectErrno (Nat × FdSet × FdSet × FdSet) :=
  if nfds < 0 ∨ FD_SETSIZE < nfds then .error .EINVAL
  else
    let c := poll (selectFds nfds.toNat r w x)
    selectAnswer c.1 c.2 r w x

/-! ## the array -/

section
variable {nfds : Nat} {r w x : FdSet}

theorem selectFds_mem {p : PollEnt} : p ∈ selectFds nfds r w x ↔
    ∃ fd < nfds, selectEvents r w x fd ≠ .none ∧ p = ⟨fd, selectEvents r w x fd, .none⟩ := by
  unfold selectFds
  rw [List.mem_filterMap]
  constructor
  · rintro ⟨fd, hfd, hp⟩
    obtain ⟨hne, hp⟩ := Option.ite_none_left_eq_some.mp hp
    exact ⟨fd, List.mem_range.mp hfd, hne, (Option.some.inj hp).symm⟩
  · rintro ⟨fd, hfd, hne, rfl⟩
    exact ⟨fd, List.mem_range.mpr hfd, if_neg hne⟩

/-- a descriptor has one entry -/
theorem selectFds_nodup : ((selectFds nfds r w x).map PollEnt.fd).Nodup := by
  have hsub : ∀ l : List Nat, l.Nodup → ((l.filterMap fun fd =>
      if selectEvents r w x fd = .none then none
      else some (⟨fd, selectEvents r w x fd, .none⟩ : PollEnt)).map PollEnt.fd).Nodup := by
    intro l hl
    induction l with
    | nil => exact List.nodup_nil
    | cons a l ih =>
      obtain ⟨ha, hl⟩ := List.nodup_cons.mp hl
      rw [List.filterMap_cons]
      split
      · exact ih hl
      · rename_i p hp
        obtain ⟨-, hp⟩ := Option.ite_none_left_eq_some.mp hp
        rw [List.map_cons, ← Option.some.inj hp, List.nodup_cons]
        refine ⟨fun hmem => ?_, ih hl⟩
        obtain ⟨q, hq, hqa⟩ := List.mem_map.mp hmem
        obtain ⟨b, hb, hqb⟩ := List.mem_filterMap.mp hq
        obtain ⟨-, hqb⟩ := Option.ite_none_left_eq_some.mp hqb
        rw [← Option.some.inj hqb] at hqa
        exact ha (Int.natCast_inj.mp hqa ▸ hb)
  exact hsub _ List.nodup_range

/-- the array keeps its descriptors and what is asked of them -/
def Kept (nfds : Nat) (r w x : FdSet) (fds : List PollEnt) : Prop :=
  fds.map PollEnt.asked = (selectFds nfds r w x).map PollEnt.asked

variable {fds : List PollEnt}

theorem Kept.entry (h : Kept nfds r w x fds) {p : PollEnt} (hp : p ∈ fds) :
    ∃ fd < nfds, p.fd = (fd : Int) ∧ p.events = selectEvents r w x fd := by
  have hmem : p.asked ∈ (selectFds nfds r w x).map PollEnt.asked := by
    rw [← h]
    exact List.mem_map_of_mem hp
  obtain ⟨q, hq, he⟩ := List.mem_map.mp hmem
  obtain ⟨fd, hfd, -, rfl⟩ := selectFds_mem.mp hq
  obtain ⟨h1, h2⟩ := Prod.mk.inj he
  exact ⟨fd, hfd, h1.symm, h2.symm⟩

theorem Kept.nodup (h : Kept nfds r w x fds) : (fds.map PollEnt.fd).Nodup := by
  have hfst : ∀ l : List PollEnt, l.map PollEnt.fd = (l.map PollEnt.asked).map Prod.fst := by
    intro l
    rw [List.map_map]
    rfl
  rw [hfst, h, ← hfst]
  exact selectFds_nodup

/-! ## the sets -/

/-- how many descriptors of a set there are below `nfds` -/
def FdSet.size (s : FdSet) (nfds : Nat) : Nat := (List.range nfds).countP s.has

/-- the entries that are hit are entries of the set -/
def Within (nfds : Nat) (s : FdSet) (hit : PollEnt → Bool) (fds : List PollEnt) : Prop :=
  ∀ p ∈ fds, hit p = true → ∃ fd < nfds, p.fd = (fd : Int) ∧ s.has fd = true

theorem Kept.reads (h : Kept nfds r w x fds) : Within nfds r PollEnt.reads fds := by
  intro p hp hit
  obtain ⟨fd, hlt, hfd, he⟩ := h.entry hp
  have hin := (Bool.and_eq_true_iff.mp hit).1
  rw [he] at hin
  exact ⟨fd, hlt, hfd, hin⟩

theorem Kept.writes (h : Kept nfds r w x fds) : Within nfds w PollEnt.writes fds := by
  intro p hp hit
  obtain ⟨fd, hlt, hfd, he⟩ := h.entry hp
  have hout := (Bool.and_eq_true_iff.mp hit).1
  rw [he] at hout
  exact ⟨fd, hlt, hfd, hout⟩

theorem Kept.excepts (h : Kept nfds r w x fds) : Within nfds x PollEnt.excepts fds := by
  intro p hp hit
  obtain ⟨fd, hlt, hfd, he⟩ := h.entry hp
  have hpri := (Bool.and_eq_true_iff.mp hit).1
  rw [he] at hpri
  exact ⟨fd, hlt, hfd, hpri⟩

variable {s : FdSet} {hit : PollEnt → Bool}

theorem has_fill (h : Within nfds s hit fds) {fd : Nat} : (s.fill hit fds).has fd = true ↔
    ∃ p ∈ fds, p.fd = (fd : Int) ∧ hit p = true := by
  have hany : (fds.any fun p => p.fd == (fd : Int) && hit p) = true ↔
      ∃ p ∈ fds, p.fd = (fd : Int) ∧ hit p = true := by
    rw [List.any_eq_true]
    simp only [Bool.and_eq_true, beq_iff_eq]
  cases s with
  | some f => exact hany
  | none =>
    refine iff_of_false (by simp [FdSet.fill, FdSet.has]) ?_
    rintro ⟨p, hp, -, hh⟩
    obtain ⟨fd', -, -, hs⟩ := h p hp hh
    cases hs

/-- a descriptor that comes back in a set was in it -/
theorem Within.sub (h : Within nfds s hit fds) {fd : Nat} (hf : (s.fill hit fds).has fd = true) :
    s.has fd = true := by
  obtain ⟨p, hp, hfd, hh⟩ := (has_fill h).mp hf
  obtain ⟨fd', -, hfd', hs⟩ := h p hp hh
  rw [← Int.natCast_inj.mp (hfd'.symm.trans hfd)]
  exact hs

/-- as many entries are hit as descriptors come back -/
theorem Within.size (h : Within nfds s hit fds) (hn : (fds.map PollEnt.fd).Nodup) :
    fds.countP hit = (s.fill hit fds).size nfds := by
  have hl : ((fds.filter hit).map PollEnt.fd).Nodup :=
    hn.sublist (List.filter_sublist.map PollEnt.fd)
  have hr : (((List.range nfds).filter (s.fill hit fds).has).map Int.ofNat).Nodup :=
    List.Nodup.map (fun _ _ he => Int.ofNat.inj he) (List.nodup_range.filter _)
  have hmem : ∀ i, i ∈ (fds.filter hit).map PollEnt.fd ↔
      i ∈ ((List.range nfds).filter (s.fill hit fds).has).map Int.ofNat := by
    intro i
    constructor
    · intro hi
      obtain ⟨p, hp, rfl⟩ := List.mem_map.mp hi
      obtain ⟨hp, hh⟩ := List.mem_filter.mp hp
      obtain ⟨fd, hlt, hfd, -⟩ := h p hp hh
      refine List.mem_map.mpr ⟨fd, List.mem_filter.mpr ⟨List.mem_range.mpr hlt, ?_⟩, hfd.symm⟩
      exact (has_fill h).mpr ⟨p, hp, hfd, hh⟩
    · intro hi
      obtain ⟨fd, hfd, rfl⟩ := List.mem_map.mp hi
      obtain ⟨p, hp, hpfd, hh⟩ := (has_fill h).mp (List.mem_filter.mp hfd).2
      exact List.mem_map.mpr ⟨p, List.mem_filter.mpr ⟨hp, hh⟩, hpfd⟩
  have hlen := ((List.perm_ext_iff_of_nodup hl hr).mpr hmem).length_eq
  rw [List.length_map, List.length_map] at hlen
  unfold FdSet.size
  rw [List.countP_eq_length_filter, List.countP_eq_length_filter, hlen]

end

/-- what an answer of `select` was made of -/
theorem selectCore_ok {nfds : Int} {r w x : FdSet} {poll : List PollEnt → Int × List PollEnt}
    {o : Nat × FdSet × FdSet × FdSet} (h : selectCore nfds r w x poll = .ok o) :
    selectAnswer (poll (selectFds nfds.toNat r w x)).1 (poll (selectFds nfds.toNat r w x)).2 r w x =
      .ok o := by
  unfold selectCore at h
  split at h
  · cases h
  · exact h

namespace PollCall
variable {nfds : Int} {r w x r' w' x' : FdSet} {tmo : Option Nat} {tr : List (PollCall × Act)}
  {poll : List PollEnt → Int × List PollEnt} {c : PollCall} {n : Int} {rc : Nat}

/-- **The sets that come back.**  When the poll core has gone this way, each is part of the set that
was asked for, and the result counts them all. -/
theorem select_run (h : Path step (start (selectFds nfds.toNat r w x) tmo) tr c)
    (hp : poll (selectFds nfds.toNat r w x) = (n, c.fds))
    (ha : selectCore nfds r w x poll = .ok (rc, r', w', x')) :
    (∀ fd, (r'.has fd = true → r.has fd = true) ∧ (w'.has fd = true → w.has fd = true) ∧
      (x'.has fd = true → x.has fd = true)) ∧
    rc = r'.size nfds.toNat + w'.size nfds.toNat + x'.size nfds.toNat := by
  have hk : Kept nfds.toNat r w x c.fds := (sound_run h).kept
  have ha := selectCore_ok ha
  rw [hp] at ha
  unfold selectAnswer at ha
  split at ha
  · cases ha
  split at ha
  · cases ha
  cases ha
  refine ⟨fun fd => ⟨hk.reads.sub, hk.writes.sub, hk.excepts.sub⟩, ?_⟩
  rw [hk.reads.size hk.nodup, hk.writes.size hk.nodup, hk.excepts.size hk.nodup]

/-- a call without anything of ours goes to the kernel -/
theorem plain_path (fds : List PollEnt) (tmo : Option Nat) (k : Nat → Events) :
    Path step (start fds tmo)
      [(start fds tmo, .enter 0 (noRows fun _ => false)),
        ({ start fds tmo with pc := .plain }, .kernel (some k))]
      { start fds tmo with fds := written k fds, pc := .ret (readyCount (written k fds)) } := by
  have hkinds : (fds.mapIdx fun i p => (noRows (fun _ => false) i).kind p.fd) =
      fds.mapIdx fun _ _ => 0 := by
    apply List.ext_getElem?
    intro i
    simp only [List.getElem?_mapIdx]
    cases fds[i]? with
    | none => rfl
    | some p =>
      rw [Option.map_some, Option.map_some]
      unfold Tables.kind
      rw [isStream_noRows]
      simp [noRows]
  have hall : (fds.mapIdx fun _ _ => 0).all (· = 0) = true := by
    rw [List.all_eq_true]
    intro m hm
    obtain ⟨i, -, hi⟩ := List.mem_mapIdx.mp hm
    exact decide_eq_true hi.symm
  have hnot : (fds.mapIdx fun _ _ => 0).contains 2 = false := by
    rw [List.contains_eq_any_beq, List.any_eq_false]
    intro m hm
    obtain ⟨i, -, hi⟩ := List.mem_mapIdx.mp hm
    rw [← hi]
    decide
  have h1 : step (start fds tmo) (.enter 0 (noRows fun _ => false)) =
      some { start fds tmo with pc := .plain } := by
    simp only [step, start, hkinds, hall, hnot, if_true]
  have h2 : step { start fds tmo with pc := .plain } (.kernel (some k)) =
      some { start fds tmo with fds := written k fds, pc := .ret (readyCount (written k fds)) } := rfl
  have hstart : Path step (start fds tmo) [] (start fds tmo) := .nil
  exact (hstart.snoc h1).snoc h2

/-- descriptor 5 -/
def five : FdSet := some fun fd => fd == 5

/-- the poll core, when nothing is ours -/
def plainPoll (k : Events) (fds : List PollEnt) : Int × List PollEnt :=
  (readyCount (written (fun _ => k) fds), written (fun _ => k) fds)

/-- readable -/
def canRead : Events := { Events.none with pollin := true }

theorem select_five : ∃ rc r' w' x',
    selectCore 6 five none none (plainPoll canRead) = .ok (rc, r', w', x') ∧ rc = 1 ∧
    (∀ fd, r'.has fd = true → five.has fd = true) ∧ rc = r'.size 6 + w'.size 6 + x'.size 6 := by
  have hpath := plain_path (selectFds (6 : Int).toNat five none none) none fun _ => canRead
  have hcore : selectCore 6 five none none (plainPoll canRead) = .ok (1, _, _, _) := rfl
  obtain ⟨h1, h2⟩ := select_run (n := 1) hpath rfl hcore
  exact ⟨_, _, _, _, hcore, rfl, fun fd => (h1 fd).1, h2⟩

end PollCall

/-! ## events that no set takes -/

/-- what the kernel may say where `e` was asked: that, and three events that nobody asks for -/
structure FairWord (e k : Events) : Prop where
  pollin : k.pollin = true → e.pollin = true
  pollout : k.pollout = true → e.pollout = true
  wrnorm : k.wrnorm = true → e.wrnorm = true
  pri : k.pri = true → e.pri = true
  rdnorm : k.rdnorm = true → e.rdnorm = true
  rdband : k.rdband = true → e.rdband = true
  wrband : k.wrband = true → e.wrband = true

theorem fair_none (e : Events) : FairWord e .none := ⟨nofun, nofun, nofun, nofun, nofun, nofun, nofun⟩

/-- a scan adds nothing that was not asked for, but `POLLOUT` for `POLLWRNORM` -/
theorem FairWord.scan {p : PollEnt} (h : FairWord p.events p.revents)
    (hn : p.events.wrnorm = false) (w : Tables) : FairWord p.events (p.scan w).revents := by
  obtain ⟨readable, blocked, gets, hs⟩ := revents_scan w p
  rw [hs]
  refine ⟨fun hk => ?_, fun hk => ?_, fun hk => ?_, h.pri, h.rdnorm, h.rdband, h.wrband⟩
  · rcases Bool.or_eq_true_iff.mp hk with hk | hk
    · exact h.pollin hk
    · exact (Bool.and_eq_true_iff.mp hk).1
  · rcases Bool.or_eq_true_iff.mp hk with hk | hk
    · exact h.pollout (Bool.and_eq_true_iff.mp hk).1
    · have hout : (p.events.pollout || p.events.wrnorm) = true := (Bool.and_eq_true_iff.mp hk).1
      rw [hn, Bool.or_false] at hout
      exact hout
  · exact h.wrnorm (Bool.and_eq_true_iff.mp hk).1

/-- not in the read set, and with an event that the other sets of the descriptor do not take -/
def PollEnt.mute (p : PollEnt) : Bool :=
  !p.events.pollin && !p.revents.pollout && !p.revents.pri &&
    if p.events.pollout then p.revents.hup && !p.revents.err else p.revents.hup || p.revents.err

theorem mute_bits : ∀ ei eo ep i o pr er hu : Bool, (i = true → ei = true) →
    (o = true → eo = true) → (pr = true → ep = true) →
    (((ei && (i || false || false || hu || er)) = false ∧ (eo && (o || false || false || er)) = false ∧
        (ep && pr) = false) ↔
      (¬ (i = false ∧ o = false ∧ pr = false ∧ er = false ∧ hu = false) →
        (!ei && !o && !pr && if eo then hu && !er else hu || er) = true)) := by
  intro ei eo ep i o pr er hu h1 h2 h3
  cases ei <;> cases eo <;> cases er <;> cases hu <;> cases i <;> cases o <;> cases pr <;> simp_all

theorem mute_iff {p : PollEnt} (h : FairWord p.events p.revents) {r w x : FdSet} {fd : Nat}
    (he : p.events = selectEvents r w x fd) (hv : p.revents.nval = false) :
    (p.reads = false ∧ p.writes = false ∧ p.excepts = false) ↔
      (p.revents ≠ .none → p.mute = true) := by
  have hno : ∀ b : Bool, (b = true → false = true) → b = false := by decide
  obtain ⟨h1, h2, h3, h4, h5, h6, h7⟩ := h
  rw [he] at h1 h2 h3 h4 h5 h6 h7
  obtain ⟨pfd, ev, i, o, wn, pr, rn, rb, wb, er, hu, nv⟩ := p
  have hwn := hno wn h3
  have hrn := hno rn h5
  have hrb := hno rb h6
  have hwb := hno wb h7
  have hnv : nv = false := hv
  have hev : ev = selectEvents r w x fd := he
  subst hwn hrn hrb hwb hnv hev
  simp only [PollEnt.reads, PollEnt.writes, PollEnt.excepts, PollEnt.mute, selectEvents,
    Events.none, ne_eq, Events.mk.injEq, true_and, and_true]
  exact mute_bits _ _ _ i o pr er hu h1 h2 h4

namespace PollCall
variable {r w x r' w' x' : FdSet} {tmo : Option Nat} {tr : List (PollCall × Act)} {c : PollCall}
  {n : Int} {rc : Nat}

section
variable {nfds : Nat}

/-- the kernel says of each descriptor what it may say -/
def Fair (fds : List PollEnt) (tr : List (PollCall × Act)) : Prop :=
  ∀ i p k, fds[i]? = some p → Heard tr i k → FairWord p.events k

/-- what a call of `select` reads off its array is fair -/
theorem fairWord_run (h : Path step (start (selectFds nfds r w x) tmo) tr c) (hr : c.pc = .ret n)
    (hn : n ≠ -1) (hfair : Fair (selectFds nfds r w x) tr) {i : Nat} {p : PollEnt}
    (hp : c.fds[i]? = some p) : FairWord p.events p.revents := by
  have hs := sound_run h
  have hk : Kept nfds r w x c.fds := hs.kept
  obtain ⟨fd, -, hfd, he⟩ := hk.entry (List.mem_of_getElem? hp)
  have hask : ((selectFds nfds r w x).map PollEnt.asked)[i]? = some p.asked := by
    rw [← hk, List.getElem?_map, hp]
    rfl
  rw [List.getElem?_map] at hask
  obtain ⟨q, hq, hqp⟩ := Option.map_eq_some_iff.mp hask
  have hqe : q.events = p.events := (Prod.mk.inj hqp).2
  have hheard : ∀ k, Heard tr i k → FairWord p.events k := by
    intro k hh
    rw [← hqe]
    exact hfair i q k hq hh
  have hh := hs.here
  simp only [At, hr] at hh
  cases hh with
  | failed => exact absurd rfl hn
  | plain _ hm => exact hheard _ (hm i p hp)
  | ready _ _ hm =>
    obtain ⟨t, k, hl, hpk⟩ := hm
    have hword : FairWord p.events (k i) := by
      rcases hl.heard i with hk | hk
      · rw [hk]
        exact fair_none _
      · exact hheard (k i) hk
    have hwr : p.events.wrnorm = false := by
      rw [he]
      rfl
    have hscan : FairWord p.events (PollEnt.scan (t i) { p with revents := k i }).revents :=
      FairWord.scan (p := { p with revents := k i }) hword hwr (t i)
    rw [← hpk i p hp] at hscan
    exact hscan
  | late _ _ _ _ _ hz =>
    have hnot : p.ready = false := by
      by_contra hne
      exact readyCount_ne_zero hp (Bool.eq_true_of_not_eq_false hne) hz
    have hnone : p.revents = .none := by
      unfold PollEnt.ready at hnot
      rw [hfd, decide_eq_true (Int.natCast_nonneg fd), Bool.true_and] at hnot
      exact of_decide_eq_true (by simpa using hnot)
    rw [hnone]
    exact fair_none _

theorem ready_iff (hk : Kept nfds r w x c.fds) {p : PollEnt} (hp : p ∈ c.fds) :
    p.ready = true ↔ p.revents ≠ .none := by
  obtain ⟨fd, -, hfd, -⟩ := hk.entry hp
  unfold PollEnt.ready
  rw [hfd, decide_eq_true (Int.natCast_nonneg fd), Bool.true_and]
  exact bne_iff_ne

end

/-- **When `select` says 0.**  With a kernel that says what it may say, 0 comes back when the poll core
found nothing in its time, and also when every descriptor that has an event is outside the read set
and has hung up, or has failed outside the write set too. -/
theorem select_zero_iff {nfds : Int} {poll : List PollEnt → Int × List PollEnt}
    (h : Path step (start (selectFds nfds.toNat r w x) tmo) tr c) (hr : c.pc = .ret n)
    (hp : poll (selectFds nfds.toNat r w x) = (n, c.fds))
    (hfair : Fair (selectFds nfds.toNat r w x) tr)
    (ha : selectCore nfds r w x poll = .ok (rc, r', w', x')) :
    rc = 0 ↔ n = 0 ∨ 0 < n ∧ ∀ p ∈ c.fds, p.ready = true → p.mute = true := by
  have hs := sound_run h
  have hk : Kept nfds.toNat r w x c.fds := hs.kept
  have ha := selectCore_ok ha
  rw [hp] at ha
  unfold selectAnswer at ha
  split at ha
  · cases ha
  rename_i hneg
  split at ha
  · cases ha
  rename_i hval
  have hrc := (Prod.mk.inj (Except.ok.inj ha)).1
  have hentry : ∀ p ∈ c.fds, (p.reads = false ∧ p.writes = false ∧ p.excepts = false) ↔
      (p.ready = true → p.mute = true) := by
    intro p hp
    obtain ⟨i, hi⟩ := List.mem_iff_getElem?.mp hp
    obtain ⟨fd, -, -, he⟩ := hk.entry hp
    have hword := fairWord_run h hr (by omega) hfair hi
    have hv : p.revents.nval = false := by
      by_contra hne
      exact hval (List.any_eq_true.mpr ⟨p, hp, Bool.eq_true_of_not_eq_false hne⟩)
    rw [mute_iff hword he hv, ready_iff hk hp]
  have hzero : rc = 0 ↔ ∀ p ∈ c.fds, p.ready = true → p.mute = true := by
    rw [← hrc, Nat.add_eq_zero_iff, Nat.add_eq_zero_iff, List.countP_eq_zero, List.countP_eq_zero,
      List.countP_eq_zero]
    constructor
    · rintro ⟨⟨h1, h2⟩, h3⟩ p hp
      exact (hentry p hp).mp ⟨Bool.eq_false_iff.mpr (h1 p hp), Bool.eq_false_iff.mpr (h2 p hp),
        Bool.eq_false_iff.mpr (h3 p hp)⟩
    · intro hm
      refine ⟨⟨fun p hp => ?_, fun p hp => ?_⟩, fun p hp => ?_⟩
      · exact Bool.eq_false_iff.mp ((hentry p hp).mpr (hm p hp)).1
      · exact Bool.eq_false_iff.mp ((hentry p hp).mpr (hm p hp)).2.1
      · exact Bool.eq_false_iff.mp ((hentry p hp).mpr (hm p hp)).2.2
  -- a call that finds nothing has no entry that is ready
  have hnone : n = 0 → ∀ p ∈ c.fds, p.ready = true → p.mute = true := by
    intro hn p hp hready
    obtain ⟨i, hi⟩ := List.mem_iff_getElem?.mp hp
    have hcount := readyCount_ne_zero hi hready
    have hh := hs.here
    simp only [At, hr] at hh
    cases hh with
    | failed => omega
    | plain | ready => omega
    | late _ _ _ _ _ hz => exact absurd hz hcount
  rw [hzero]
  constructor
  · intro hm
    rcases eq_or_lt_of_le (not_lt.mp hneg) with hn | hn
    · exact Or.inl hn.symm
    · exact Or.inr ⟨hn, hm⟩
  · rintro (hn | ⟨-, hm⟩)
    · exact hnone hn
    · exact hm

/-- hung up -/
def hungUp : Events := { Events.none with hup := true }

/-- descriptor 5 is in the write set alone, and its peer is gone; no time is given -/
theorem select_hungUp : ∃ n fds r' w' x',
    plainPoll hungUp (selectFds 6 none five none) = (n, fds) ∧
    selectCore 6 none five none (plainPoll hungUp) = .ok (0, r', w', x') ∧
    (n = 0 ∨ 0 < n ∧ ∀ p ∈ fds, p.ready = true → p.mute = true) := by
  have hpath := plain_path (selectFds (6 : Int).toNat none five none) none fun _ => hungUp
  have hcore : selectCore 6 none five none (plainPoll hungUp) = .ok (0, _, _, _) := rfl
  have hfair : Fair (selectFds (6 : Int).toNat none five none)
      [(start (selectFds (6 : Int).toNat none five none) none, .enter 0 (noRows fun _ => false)),
        ({ start (selectFds (6 : Int).toNat none five none) none with pc := .plain },
          .kernel (some fun _ => hungUp))] := by
    rintro i p k - ⟨pre, x, post, k', htr, -, hk', hk, -⟩
    have hx : x ∈ pre ++ x :: post := List.mem_append_right pre List.mem_cons_self
    rw [← htr] at hx
    rcases List.mem_cons.mp hx with rfl | hx
    · cases hk'
    · rw [List.mem_singleton.mp hx] at hk'
      rw [← hk, ← Option.some.inj (Act.kernel.inj hk')]
      exact ⟨nofun, nofun, nofun, nofun, nofun, nofun, nofun⟩
  have hzero := select_zero_iff (n := 1) hpath rfl rfl hfair hcore
  exact ⟨1, _, _, _, _, rfl, hcore, hzero.mp rfl⟩

end PollCall

end ShadowLan
