import Mathlib.Logic.Function.Basic
import ShadowLan.Lib.Rows
import ShadowLan.Lib.Runs

/-!
# Wake channels

A thread that waits for hooked sockets takes a slot of `g_wt`, names the sockets, and waits on the
slot's datagram pair together with its real descriptors.  Whoever changes the state of a socket pokes
the armed slots that watch it, once.  Where `dt_wait_arm` returns -1 the thread goes on without a slot.

* `WaitSlot`, `Phase`     a slot, and how far a waiter is;
* `Wake.step`             the waiters between their sections under the lock, and the signals;
* `Heard`                 a waiter that blocks with news since its last look has a readable wake fd;
* `Reaches`               the condition on a step: a thread that gives its slot back drains it only
                          as long as that takes nothing from the slot's next owner, and no socket
                          changes that a thread waits for without a wake fd;
* `heard_run`             a run of such steps loses no wake-up.

`news` is not in the source: it tells that a socket that the thread waits for has changed since its
last look.
-/

namespace ShadowLan

def DT_WAIT_NS : Nat := 8
abbrev DT_MAXWAIT : Nat := 64

/-- datagrams that a socket pair holds; a further one is refused, and the pair is readable -/
def WAKE_QLEN : Nat := 10

/-- a row of `g_wt`, with the datagrams in its pair -/
structure WaitSlot where
  used : Bool
  armed : Bool
  any : Bool
  socks : List Int
  paired : Bool
  bytes : Nat
  deriving DecidableEq

/-- the arguments of `dt_wait_arm`: fewer than zero or too many are all sockets -/
structure Watch where
  socks : List Int
  n : Int
  deriving DecidableEq

def Watch.any (w : Watch) : Bool := w.n < 0 || w.n > DT_WAIT_NS

def Watch.named (w : Watch) : List Int := if w.any then [] else w.socks.take w.n.toNat

/-- the caller waits for this socket -/
def Watch.has (w : Watch) (gsock : Int) : Bool :=
  w.n < 0 || (w.socks.take w.n.toNat).contains gsock

/-- then the slot will hold it -/
theorem Watch.covered {w : Watch} {gsock : Int} (h : w.has gsock = true) :
    (w.any || w.named.contains gsock) = true := by
  unfold has at h
  unfold named
  by_cases ha : w.any = true
  · rw [ha, Bool.true_or]
  · have hn : ¬ (decide (w.n < 0)) = true := fun hneg => ha (by unfold any; rw [hneg, Bool.true_or])
    rw [Bool.eq_false_iff.mpr hn, Bool.false_or] at h
    rw [if_neg ha, h, Bool.or_true]

/-- a waiter on slot `i`, or on none -/
inductive Phase where
  | out
  /-- `dt_wait_arm` has returned -1 -/
  | bare (w : Watch)
  /-- it has looked, and blocks without a wake fd -/
  | blind (w : Watch)
  /-- in `dt_wait_arm`, the slot taken -/
  | took (i : Fin DT_MAXWAIT) (w : Watch)
  /-- armed, before it looks at the sockets -/
  | up (i : Fin DT_MAXWAIT) (w : Watch)
  /-- it has looked, and blocks or is about to -/
  | looked (i : Fin DT_MAXWAIT) (w : Watch)
  /-- the same, but the set of its real wait is full and has no place for the wake fd -/
  | deaf (i : Fin DT_MAXWAIT) (w : Watch)
  /-- back from the wait -/
  | woken (i : Fin DT_MAXWAIT) (w : Watch)
  /-- in `dt_wait_rearm`, in the drain -/
  | draining (i : Fin DT_MAXWAIT) (w : Watch)
  /-- in `dt_wait_rearm`, before it arms -/
  | drained (i : Fin DT_MAXWAIT) (w : Watch)
  /-- in the drain of `dt_wait_done`, the slot given back -/
  | freed (i : Fin DT_MAXWAIT)
  deriving DecidableEq

namespace Phase

/-- the slot that the thread has, and what it waits for -/
def owns : Phase → Option (Fin DT_MAXWAIT × Watch)
  | .took i w | .up i w | .looked i w | .deaf i w | .woken i w | .draining i w | .drained i w =>
    some (i, w)
  | .out | .bare _ | .blind _ | .freed _ => none

/-- the slot that the thread has named its sockets in -/
def named : Phase → Option (Fin DT_MAXWAIT × Watch)
  | .up i w | .looked i w | .deaf i w | .woken i w | .draining i w | .drained i w => some (i, w)
  | .out | .bare _ | .blind _ | .took _ _ | .freed _ => none

/-- the slot that the thread relies on to be poked -/
def relies : Phase → Option (Fin DT_MAXWAIT)
  | .up i _ | .looked i _ | .deaf i _ | .woken i _ => some i
  | .out | .bare _ | .blind _ | .took _ _ | .draining _ _ | .drained _ _ | .freed _ => none

/-- what the thread waits for, as it has passed it to `dt_wait_arm` -/
def watch : Phase → Option Watch
  | .bare w | .blind w | .took _ w | .up _ w | .looked _ w | .deaf _ w | .woken _ w | .draining _ w
  | .drained _ w => some w
  | .out | .freed _ => none

/-- the thread blocks, or is about to: the wake fd that it waits on, or none -/
def waitFd : Phase → Option (Option (Fin DT_MAXWAIT))
  | .looked i _ => some (some i)
  | .blind _ | .deaf _ _ => some none
  | .out | .bare _ | .took _ _ | .up _ _ | .woken _ _ | .draining _ _ | .drained _ _ | .freed _ =>
    none

end Phase

structure Wake where
  g_wt : Fin DT_MAXWAIT → WaitSlot
  /-- how many threads there are, named by the numbers below -/
  threads : Nat
  phase : Nat → Phase
  news : Nat → Bool

namespace Wake

def init (threads : Nat) : Wake where
  g_wt := fun _ => ⟨false, false, false, [], false, 0⟩
  threads := threads
  phase := fun _ => .out
  news := fun _ => false

variable (s : Wake)

def setSlot (i : Fin DT_MAXWAIT) (r : WaitSlot) : Wake :=
  { s with g_wt := Function.update s.g_wt i r }

def goto (t : Nat) (p : Phase) : Wake := { s with phase := Function.update s.phase t p }

/-- `dt_wait_poke_locked`, on one slot -/
def poke (gsock : Int) (r : WaitSlot) : WaitSlot :=
  if r.used && r.armed && (r.any || r.socks.contains gsock) then
    { r with armed := false, bytes := min (r.bytes + 1) WAKE_QLEN }
  else r

/-- the thread waits for this socket -/
def watches (t : Nat) (gsock : Int) : Bool := (s.phase t).watch.any fun w => w.has gsock

inductive Act where
  /-- `dt_wait_arm` looks for a slot -/
  | take (t : Nat) (w : Watch)
  /-- the slot gets its pair; `false`: there is none to be had, and the slot is given back -/
  | pair (t : Nat) (ok : Bool)
  | arm (t : Nat)
  /-- the scan; `fd`: there is a place for the wake fd in the real wait after it -/
  | look (t : Nat) (fd : Bool)
  | wake (t : Nat)
  /-- the wait timed out: the thread looks again without `dt_wait_rearm` -/
  | resume (t : Nat)
  | rearm (t : Nat)
  /-- one `recv` of `dt_wake_drain` -/
  | recv (t : Nat)
  | rearmed (t : Nat)
  | done (t : Nat)
  /-- the state of a socket changes, and `dt_sig_locked` -/
  | signal (gsock : Int)
  deriving DecidableEq

/-- what thread `t` does -/
def move (t : Nat) (a : Act) : Option Wake :=
  match a, s.phase t with
  | .take _ w, .out =>
    match first s.g_wt fun r => !r.used with
    | some i => some ((s.setSlot i { s.g_wt i with used := true }).goto t (.took i w))
    | none => some (s.goto t (.bare w))
  | .pair _ ok, .took i w =>
    if (s.g_wt i).paired then none
    else if ok then some (s.setSlot i { s.g_wt i with paired := true })
    else some ((s.setSlot i { s.g_wt i with used := false }).goto t (.bare w))
  | .arm _, .took i w =>
    if (s.g_wt i).paired then
      some ((s.setSlot i { s.g_wt i with any := w.any, socks := w.named, armed := true }).goto t
        (.up i w))
    else none
  | .look _ fd, .up i w =>
    some { s.goto t (if fd then .looked i w else .deaf i w) with
      news := Function.update s.news t false }
  | .look _ _, .bare w => some { s.goto t (.blind w) with news := Function.update s.news t false }
  | .wake _, .looked i w | .wake _, .deaf i w => some (s.goto t (.woken i w))
  -- `dt_wait_rearm(-1)` does nothing
  | .wake _, .blind w => some (s.goto t (.bare w))
  | .resume _, .woken i w => some (s.goto t (.up i w))
  | .rearm _, .woken i w => some (s.goto t (.draining i w))
  | .recv _, .draining i w =>
    if 0 < (s.g_wt i).bytes then
      some (s.setSlot i { s.g_wt i with bytes := (s.g_wt i).bytes - 1 })
    else some (s.goto t (.drained i w))
  | .recv _, .freed i =>
    if 0 < (s.g_wt i).bytes then
      some (s.setSlot i { s.g_wt i with bytes := (s.g_wt i).bytes - 1 })
    else some (s.goto t .out)
  | .rearmed _, .drained i w =>
    some ((s.setSlot i { s.g_wt i with armed := true }).goto t (.up i w))
  | .done _, .up i _ | .done _, .looked i _ | .done _, .deaf i _ | .done _, .woken i _ =>
    some ((s.setSlot i { s.g_wt i with armed := false, used := false }).goto t (.freed i))
  | .done _, .bare _ | .done _, .blind _ => some (s.goto t .out)
  | _, _ => none

def signal (gsock : Int) : Wake :=
  { s with
    g_wt := fun i => poke gsock (s.g_wt i)
    news := fun t => s.news t || s.watches t gsock }

def Act.thread? : Act → Option Nat
  | .take t _ | .pair t _ | .arm t | .look t _ | .wake t | .resume t | .rearm t | .recv t | .rearmed t
  | .done t => some t
  | .signal _ => none

def step (a : Act) : Option Wake :=
  match a with
  | .signal gsock => some (s.signal gsock)
  | a => a.thread?.bind fun t => if t < s.threads then s.move t a else none

/-- a waiter that blocks, and for which there is news since it looked, has a readable wake fd -/
def Heard : Prop :=
  ∀ t fd, (s.phase t).waitFd = some fd → s.news t = true → ∃ i, fd = some i ∧ 0 < (s.g_wt i).bytes

/-- in this phase, a `recv` takes no datagram that somebody else relies on -/
def KeepsOff : Phase → Prop
  | .freed i => (s.g_wt i).bytes = 1 →
      ∀ u < s.threads, (s.phase u).relies = some i → (s.g_wt i).armed = true
  | _ => True

/-- nobody waits for this socket without a wake fd -/
def AllHear (gsock : Int) : Prop :=
  ∀ u < s.threads, (s.phase u).waitFd = some none → s.watches u gsock = false

instance (gsock : Int) : Decidable (s.AllHear gsock) :=
  inferInstanceAs (Decidable (∀ u < s.threads, _ → _))

/-- the condition on a step -/
def Reaches : Act → Prop
  | .recv t => s.KeepsOff (s.phase t)
  | .signal gsock => s.AllHear gsock
  | _ => True

instance : (p : Phase) → Decidable (s.KeepsOff p)
  | .freed i => inferInstanceAs (Decidable ((s.g_wt i).bytes = 1 →
      ∀ u < s.threads, (s.phase u).relies = some i → (s.g_wt i).armed = true))
  | .out | .bare _ | .blind _ | .took _ _ | .up _ _ | .looked _ _ | .deaf _ _ | .woken _ _
  | .draining _ _ | .drained _ _ => isTrue trivial

instance : (a : Act) → Decidable (s.Reaches a)
  | .recv t => inferInstanceAs (Decidable (s.KeepsOff (s.phase t)))
  | .signal gsock => inferInstanceAs (Decidable (s.AllHear gsock))
  | .take _ _ | .pair _ _ | .arm _ | .look _ _ | .wake _ | .resume _ | .rearm _ | .rearmed _
  | .done _ => isTrue trivial

/-! ## slots and their owners -/

/-- the slot is as its owner has left it, and will be poked or has been -/
structure Fit (p : Phase) (r : WaitSlot) : Prop where
  used : r.used = true
  named : ∀ x, p.named = some x → r.any = x.2.any ∧ r.socks = x.2.named
  ready : ∀ i, p.relies = some i → r.armed = true ∨ 0 < r.bytes

structure Inv (s : Wake) : Prop where
  outside : ∀ t, s.threads ≤ t → s.phase t = .out
  excl : ∀ t u x y, (s.phase t).owns = some x → (s.phase u).owns = some y → x.1 = y.1 → t = u
  fit : ∀ t x, (s.phase t).owns = some x → Fit (s.phase t) (s.g_wt x.1)
  heard : ∀ t i w, s.phase t = .looked i w → s.news t = true →
    (s.g_wt i).armed = false ∧ 0 < (s.g_wt i).bytes
  /-- no news for a thread that has no wake fd to hear it by -/
  blind : ∀ t, (s.phase t).waitFd = some none → s.news t = false

theorem owns_of_named {p : Phase} {x : Fin DT_MAXWAIT × Watch} (h : p.named = some x) :
    p.owns = some x := by
  cases p <;> first | exact h | cases h

theorem named_of_relies {p : Phase} {i : Fin DT_MAXWAIT} (h : p.relies = some i) :
    ∃ w, p.named = some (i, w) := by
  cases p with
  | up j w | looked j w | deaf j w | woken j w =>
    cases Option.some.inj h
    exact ⟨w, rfl⟩
  | out | bare | blind | took | draining | drained | freed => cases h

variable {s} {t : Nat} {i : Fin DT_MAXWAIT} {w : Watch}

/-- a thread does something to a slot that nobody else has -/
theorem Inv.put (h : Inv s) {r : WaitSlot} {p : Phase} {b : Bool} (ht : t < s.threads)
    (hi : ∀ u x, u ≠ t → (s.phase u).owns = some x → x.1 ≠ i)
    (hp : ∀ x, p.owns = some x → x.1 = i ∧ Fit p r) (hb : p.waitFd ≠ none → b = false) :
    Inv { (s.setSlot i r).goto t p with news := Function.update s.news t b } := by
  have hother : ∀ u, u ≠ t → ((s.setSlot i r).goto t p).phase u = s.phase u :=
    fun u hu => Function.update_of_ne hu ..
  have hself : ((s.setSlot i r).goto t p).phase t = p := Function.update_self ..
  have hslot : ∀ j, j ≠ i → ((s.setSlot i r).goto t p).g_wt j = s.g_wt j :=
    fun j hj => Function.update_of_ne hj ..
  have hput : ((s.setSlot i r).goto t p).g_wt i = r := Function.update_self ..
  refine ⟨fun u hu => ?_, fun u v x y hu hv hxy => ?_, fun u x hu => ?_, fun u j w hu hn => ?_,
    fun u hu => ?_⟩
  · have hne : u ≠ t := fun h => absurd (h ▸ hu) (Nat.not_le.mpr ht)
    exact (hother u hne).trans (h.outside u hu)
  · dsimp only at hu hv
    by_cases hut : u = t
    · by_cases hvt : v = t
      · exact hut.trans hvt.symm
      · rw [hut, hself] at hu
        rw [hother v hvt] at hv
        exact absurd (hxy.symm.trans (hp x hu).1) (hi v y hvt hv)
    · by_cases hvt : v = t
      · rw [hother u hut] at hu
        rw [hvt, hself] at hv
        exact absurd (hxy.trans (hp y hv).1) (hi u x hut hu)
      · rw [hother u hut] at hu
        rw [hother v hvt] at hv
        exact h.excl u v x y hu hv hxy
  · dsimp only at hu ⊢
    by_cases hut : u = t
    · rw [hut, hself] at hu ⊢
      obtain ⟨h1, h2⟩ := hp x hu
      rw [h1, hput]
      exact h2
    · rw [hother u hut] at hu ⊢
      rw [hslot _ (hi u x hut hu)]
      exact h.fit u x hu
  · dsimp only at hu hn ⊢
    by_cases hut : u = t
    · rw [hut, hself] at hu
      rw [hut, Function.update_self, hb (hu ▸ nofun)] at hn
      cases hn
    · rw [hother u hut] at hu
      rw [Function.update_of_ne hut] at hn
      have hj : j ≠ i := hi u (j, w) hut (by rw [hu]; rfl)
      rw [hslot j hj]
      exact h.heard u j w hu hn
  · dsimp only at hu ⊢
    by_cases hut : u = t
    · rw [hut, hself] at hu
      rw [hut, Function.update_self]
      exact hb (hu ▸ nofun)
    · rw [hother u hut] at hu
      rw [Function.update_of_ne hut]
      exact h.blind u hu

/-- the same without news -/
theorem Inv.put' (h : Inv s) {r : WaitSlot} {p : Phase} (ht : t < s.threads)
    (hi : ∀ u x, u ≠ t → (s.phase u).owns = some x → x.1 ≠ i)
    (hp : ∀ x, p.owns = some x → x.1 = i ∧ Fit p r) (hl : p.waitFd = none) :
    Inv ((s.setSlot i r).goto t p) := by
  have hput := h.put (b := s.news t) ht hi hp fun hw => absurd hl hw
  rw [Function.update_eq_self] at hput
  exact hput

/-- the owner of a slot is alone with it -/
theorem Inv.alone (h : Inv s) (ho : (s.phase t).owns = some (i, w)) :
    ∀ u x, u ≠ t → (s.phase u).owns = some x → x.1 ≠ i :=
  fun u x hu hx he => hu (h.excl u t x (i, w) hx ho he)

theorem setSlot_self (s : Wake) (i : Fin DT_MAXWAIT) : s.setSlot i (s.g_wt i) = s := by
  unfold setSlot
  rw [Function.update_eq_self]

/-- the owner goes on, and the slot stays as it is -/
theorem Inv.goto (h : Inv s) {p : Phase} (ht : t < s.threads)
    (ho : (s.phase t).owns = some (i, w)) (hp : ∀ x, p.owns = some x → x.1 = i ∧ Fit p (s.g_wt i))
    (hl : p.waitFd = none) : Inv (s.goto t p) := by
  have hput := h.put' ht (h.alone ho) hp hl
  rw [setSlot_self] at hput
  exact hput

/-! ## steps -/

theorem Inv.arm (h : Inv s) (ht : t < s.threads) (hph : s.phase t = .took i w) :
    Inv ((s.setSlot i { s.g_wt i with any := w.any, socks := w.named, armed := true }).goto t
      (.up i w)) := by
  have ho : (s.phase t).owns = some (i, w) := by rw [hph]; rfl
  have hu := (h.fit t (i, w) ho).used
  refine h.put' ht (h.alone ho) (fun x hx => ?_) rfl
  cases Option.some.inj hx
  refine ⟨rfl, hu, fun x hx => ?_, fun _ _ => Or.inl rfl⟩
  cases Option.some.inj hx
  exact ⟨rfl, rfl⟩

/-- a free slot was nobody's -/
theorem Inv.took (h : Inv s) (ht : t < s.threads) (hfree : (s.g_wt i).used = false) :
    Inv ((s.setSlot i { s.g_wt i with used := true }).goto t (.took i w)) := by
  refine h.put' ht (fun u x _ hx he => ?_) (fun x hx => ?_) rfl
  · have hused := (h.fit u x hx).used
    rw [he, hfree] at hused
    cases hused
  · cases Option.some.inj hx
    exact ⟨rfl, rfl, nofun, nofun⟩

/-- the wake fds are made, and the thread stays where it is -/
theorem Inv.paired (h : Inv s) (ht : t < s.threads) (hph : s.phase t = .took i w) :
    Inv (s.setSlot i { s.g_wt i with paired := true }) := by
  have ho : (s.phase t).owns = some (i, w) := by rw [hph]; rfl
  have hused := (h.fit t (i, w) ho).used
  have hput := h.put' (r := { s.g_wt i with paired := true }) (p := .took i w) ht (h.alone ho)
    (fun x hx => by
      cases Option.some.inj hx
      exact ⟨rfl, hused, nofun, nofun⟩) rfl
  have hstay : (s.setSlot i { s.g_wt i with paired := true }).goto t (.took i w) =
      s.setSlot i { s.g_wt i with paired := true } := by
    unfold Wake.goto setSlot
    rw [← hph, Function.update_eq_self]
  rw [← hstay]
  exact hput

/-- the sockets stay named while the slot is armed again -/
theorem Inv.rearmed (h : Inv s) (ht : t < s.threads) (hph : s.phase t = .drained i w) :
    Inv ((s.setSlot i { s.g_wt i with armed := true }).goto t (.up i w)) := by
  have ho : (s.phase t).owns = some (i, w) := by rw [hph]; rfl
  have hf := h.fit t (i, w) ho
  refine h.put' ht (h.alone ho) (fun x hx => ?_) rfl
  cases Option.some.inj hx
  refine ⟨rfl, hf.used, fun x hx => ?_, fun _ _ => Or.inl rfl⟩
  cases Option.some.inj hx
  exact hf.named (i, w) (by rw [hph]; rfl)

/-- a phase in which the thread has its slot as before -/
theorem Inv.goOn (h : Inv s) {p : Phase} (ht : t < s.threads) (ho : (s.phase t).named = some (i, w))
    (hn : p.named = some (i, w)) (hr : p.relies = none ∨ (s.phase t).relies = some i)
    (hl : p.waitFd = none) : Inv (s.goto t p) := by
  have hf := h.fit t (i, w) (owns_of_named ho)
  refine h.goto ht (owns_of_named ho) (fun x hx => ?_) hl
  have hx' := (owns_of_named hn).symm.trans hx
  cases Option.some.inj hx'
  refine ⟨rfl, hf.used, fun x hx => ?_, fun j hj => ?_⟩
  · cases Option.some.inj (hn.symm.trans hx)
    exact hf.named (i, w) ho
  · rcases hr with hr | hr
    · rw [hr] at hj
      cases hj
    · exact hf.ready i hr

theorem Inv.look (h : Inv s) {p : Phase} (ht : t < s.threads) (ho : (s.phase t).named = some (i, w))
    (hr : (s.phase t).relies = some i) (hp : p.named = some (i, w)) :
    Inv { s.goto t p with news := Function.update s.news t false } := by
  have hf := h.fit t (i, w) (owns_of_named ho)
  have hput := h.put (r := s.g_wt i) (p := p) (b := false) ht (h.alone (owns_of_named ho)) ?_
    fun _ => rfl
  · rw [setSlot_self] at hput
    exact hput
  intro x hx
  cases Option.some.inj ((owns_of_named hp).symm.trans hx)
  refine ⟨rfl, hf.used, fun x hx => ?_, fun _ _ => hf.ready i hr⟩
  cases Option.some.inj (hp.symm.trans hx)
  exact hf.named (i, w) ho

/-- the slot is given back -/
theorem Inv.release (h : Inv s) {p : Phase} {r : WaitSlot} (ht : t < s.threads)
    (ho : (s.phase t).owns = some (i, w)) (hp : p.owns = none) (hl : p.waitFd = none) :
    Inv ((s.setSlot i r).goto t p) := by
  refine h.put' ht (h.alone ho) (fun x hx => ?_) hl
  rw [hp] at hx
  cases hx

/-- the thread has no slot, or none any more -/
theorem Inv.roam (h : Inv s) {p : Phase} {b : Bool} (ht : t < s.threads) (hp : p.owns = none)
    (hb : p.waitFd ≠ none → b = false) :
    Inv { s.goto t p with news := Function.update s.news t b } := by
  have hself : (s.goto t p).phase t = p := Function.update_self ..
  have hother : ∀ u, u ≠ t → (s.goto t p).phase u = s.phase u :=
    fun u hu => Function.update_of_ne hu ..
  have howns : ∀ u x, ((s.goto t p).phase u).owns = some x → (s.goto t p).phase u = s.phase u := by
    intro u x hx
    apply hother
    rintro rfl
    rw [hself, hp] at hx
    cases hx
  refine ⟨fun u hu => ?_, fun u v x y hu hv => ?_, fun u x hu => ?_, fun u j w hu hn => ?_,
    fun u hu => ?_⟩
  · have hne : u ≠ t := fun h => absurd (h ▸ hu) (Nat.not_le.mpr ht)
    exact (hother u hne).trans (h.outside u hu)
  · dsimp only at hu hv
    rw [howns u x hu] at hu
    rw [howns v y hv] at hv
    exact h.excl u v x y hu hv
  · have heq := howns u x hu
    dsimp only at hu ⊢
    rw [heq] at hu ⊢
    exact h.fit u x hu
  · dsimp only at hu hn
    have hne : u ≠ t := by
      rintro rfl
      rw [hself] at hu
      rw [hu] at hp
      cases hp
    rw [hother u hne] at hu
    rw [Function.update_of_ne hne] at hn
    exact h.heard u j w hu hn
  · dsimp only at hu ⊢
    by_cases hut : u = t
    · rw [hut, hself] at hu
      rw [hut, Function.update_self]
      exact hb (hu ▸ nofun)
    · rw [hother u hut] at hu
      rw [Function.update_of_ne hut]
      exact h.blind u hu

/-- the same without news -/
theorem Inv.roam' (h : Inv s) {p : Phase} (ht : t < s.threads) (hp : p.owns = none)
    (hl : p.waitFd = none) : Inv (s.goto t p) := by
  have hroam := h.roam (b := s.news t) ht hp fun hw => absurd hl hw
  rw [Function.update_eq_self] at hroam
  exact hroam

/-- a datagram less, for a slot whose owner draws it or does without it -/
theorem Inv.recv (h : Inv s) (hpos : 0 < (s.g_wt i).bytes)
    (hok : (s.g_wt i).bytes = 1 → ∀ u, (s.phase u).relies = some i → (s.g_wt i).armed = true) :
    Inv (s.setSlot i { s.g_wt i with bytes := (s.g_wt i).bytes - 1 }) := by
  have hkeep : ∀ u x, (s.phase u).owns = some x → x.1 = i → ∀ j, (s.phase u).relies = some j →
      (s.g_wt i).armed = true ∨ 0 < (s.g_wt i).bytes - 1 := fun u x hx he j hj => by
    obtain ⟨v, hv⟩ := named_of_relies hj
    cases Option.some.inj ((owns_of_named hv).symm.trans hx)
    by_cases h1 : (s.g_wt i).bytes = 1
    · exact Or.inl (hok h1 u (he ▸ hj))
    · exact Or.inr (by omega)
  refine ⟨h.outside, h.excl, fun u x hx => ?_, fun u j v hu hn => ?_, h.blind⟩
  · have hf := h.fit u x hx
    unfold setSlot
    dsimp only
    by_cases he : x.1 = i
    · rw [he, Function.update_self]
      rw [he] at hf
      exact ⟨hf.used, hf.named, hkeep u x hx he⟩
    · rw [Function.update_of_ne he]
      exact hf
  · change s.phase u = .looked j v at hu
    obtain ⟨h1, h2⟩ := h.heard u j v hu hn
    unfold setSlot
    dsimp only
    by_cases he : j = i
    · subst he
      rw [Function.update_self]
      refine ⟨h1, ?_⟩
      rcases hkeep u (j, v) (by rw [hu]; rfl) rfl j (by rw [hu]; rfl) with ha | hb
      · rw [h1] at ha
        cases ha
      · exact hb
    · rw [Function.update_of_ne he]
      exact ⟨h1, h2⟩

theorem poke_used (gsock : Int) (r : WaitSlot) : (poke gsock r).used = r.used := by
  unfold poke
  split <;> rfl

theorem poke_named (gsock : Int) (r : WaitSlot) :
    (poke gsock r).any = r.any ∧ (poke gsock r).socks = r.socks := by
  unfold poke
  split <;> exact ⟨rfl, rfl⟩

theorem poke_ready {gsock : Int} {r : WaitSlot} (h : r.armed = true ∨ 0 < r.bytes) :
    (poke gsock r).armed = true ∨ 0 < (poke gsock r).bytes := by
  unfold poke
  split
  · exact Or.inr (by show 0 < min (r.bytes + 1) WAKE_QLEN; unfold WAKE_QLEN; omega)
  · exact h

/-- a poke that hits leaves the slot disarmed, with something to read -/
theorem poke_hits {gsock : Int} {r : WaitSlot} (h : r.armed = true ∨ 0 < r.bytes)
    (hu : r.used = true) (hit : (r.any || r.socks.contains gsock) = true) :
    (poke gsock r).armed = false ∧ 0 < (poke gsock r).bytes := by
  unfold poke
  by_cases ha : r.armed = true
  · rw [if_pos (by rw [hu, ha, hit]; rfl)]
    exact ⟨rfl, by show 0 < min (r.bytes + 1) WAKE_QLEN; unfold WAKE_QLEN; omega⟩
  · rw [if_neg (by simp [ha])]
    exact ⟨by simpa using ha, h.resolve_left ha⟩

theorem poke_keeps {gsock : Int} {r : WaitSlot} (h : r.armed = false ∧ 0 < r.bytes) :
    poke gsock r = r := by
  unfold poke
  rw [if_neg (by simp [h.1])]

theorem Inv.signal (h : Inv s) {gsock : Int} (hall : s.AllHear gsock) : Inv (s.signal gsock) := by
  refine ⟨h.outside, h.excl, fun u x hx => ?_, fun u i w hu hn => ?_, fun u hu => ?_⟩
  · have hf := h.fit u x hx
    have hp := poke_named gsock (s.g_wt x.1)
    refine ⟨(poke_used gsock _).trans hf.used, fun y hy => ?_, fun j hj => poke_ready (hf.ready j hj)⟩
    obtain ⟨h1, h2⟩ := hf.named y hy
    exact ⟨hp.1.trans h1, hp.2.trans h2⟩
  · show (poke gsock (s.g_wt i)).armed = false ∧ 0 < (poke gsock (s.g_wt i)).bytes
    have hu : s.phase u = .looked i w := hu
    have hn : (s.news u || s.watches u gsock) = true := hn
    rcases Bool.or_eq_true_iff.mp hn with hn | hn
    · have hold := h.heard u i w hu hn
      rw [poke_keeps hold]
      exact hold
    · have hf := h.fit u (i, w) (by rw [hu]; rfl)
      obtain ⟨h1, h2⟩ := hf.named (i, w) (by rw [hu]; rfl)
      refine poke_hits (hf.ready i (by rw [hu]; rfl)) hf.used ?_
      rw [h1, h2]
      unfold watches at hn
      rw [hu] at hn
      exact Watch.covered hn
  · have hu : (s.phase u).waitFd = some none := hu
    have hlt : u < s.threads := by
      by_contra hout
      rw [h.outside u (Nat.not_lt.mp hout)] at hu
      cases hu
    show (s.news u || s.watches u gsock) = false
    rw [h.blind u hu, hall u hlt hu]
    rfl

/-- what a thread does keeps the slots in order -/
theorem Inv.move (h : Inv s) {a : Act} {s' : Wake} (ht : t < s.threads) (ha : a.thread? = some t)
    (hok : s.Reaches a) (hm : s.move t a = some s') : Inv s' := by
  unfold Wake.move at hm
  split at hm
  next w hph =>
    split at hm
    next i hi =>
      rw [← Option.some.inj hm]
      exact h.took ht (by simpa using first_mem hi)
    next =>
      rw [← Option.some.inj hm]
      exact h.roam' ht rfl rfl
  next ok i w hph =>
    split at hm
    · cases hm
    · split at hm
      · rw [← Option.some.inj hm]
        exact h.paired ht hph
      · rw [← Option.some.inj hm]
        exact h.release ht (w := w) (by rw [hph]; rfl) rfl rfl
  next i w hph =>
    split at hm
    · rw [← Option.some.inj hm]
      exact h.arm ht hph
    · cases hm
  next fd i w hph =>
    rw [← Option.some.inj hm]
    refine h.look (i := i) (w := w) ht (by rw [hph]; rfl) (by rw [hph]; rfl) ?_
    cases fd <;> rfl
  next w hph =>
    rw [← Option.some.inj hm]
    exact h.roam ht rfl fun _ => rfl
  next i w hph =>
    rw [← Option.some.inj hm]
    exact h.goOn ht (by rw [hph]; rfl) rfl (Or.inr (by rw [hph]; rfl)) rfl
  next i w hph =>
    rw [← Option.some.inj hm]
    exact h.goOn ht (by rw [hph]; rfl) rfl (Or.inr (by rw [hph]; rfl)) rfl
  next w hph =>
    rw [← Option.some.inj hm]
    exact h.roam' ht rfl rfl
  next i w hph =>
    rw [← Option.some.inj hm]
    exact h.goOn ht (by rw [hph]; rfl) rfl (Or.inr (by rw [hph]; rfl)) rfl
  next i w hph =>
    rw [← Option.some.inj hm]
    exact h.goOn ht (by rw [hph]; rfl) rfl (Or.inl rfl) rfl
  next i w hph =>
    -- the owner itself draws, and does not rely on a poke meanwhile
    have ho : (s.phase t).owns = some (i, w) := by rw [hph]; rfl
    split at hm
    next hpos =>
      rw [← Option.some.inj hm]
      refine h.recv hpos fun _ u hu => ?_
      obtain ⟨v, hv⟩ := named_of_relies hu
      have hut := h.excl u t (i, v) (i, w) (owns_of_named hv) ho rfl
      rw [hut, hph] at hu
      cases hu
    next =>
      rw [← Option.some.inj hm]
      exact h.goOn ht (by rw [hph]; rfl) rfl (Or.inl rfl) rfl
  next i hph =>
    split at hm
    next hpos =>
      rw [← Option.some.inj hm]
      cases Option.some.inj ha
      have hoff : s.KeepsOff (.freed i) := hph ▸ hok
      refine h.recv hpos fun h1 u hu => hoff h1 u ?_ hu
      by_contra hlt
      rw [h.outside u (Nat.not_lt.mp hlt)] at hu
      cases hu
    next =>
      rw [← Option.some.inj hm]
      exact h.roam' ht rfl rfl
  next i w hph =>
    rw [← Option.some.inj hm]
    exact h.rearmed ht hph
  next i w hph =>
    rw [← Option.some.inj hm]
    exact h.release ht (w := w) (by rw [hph]; rfl) rfl rfl
  next i w hph =>
    rw [← Option.some.inj hm]
    exact h.release ht (w := w) (by rw [hph]; rfl) rfl rfl
  next i w hph =>
    rw [← Option.some.inj hm]
    exact h.release ht (w := w) (by rw [hph]; rfl) rfl rfl
  next i w hph =>
    rw [← Option.some.inj hm]
    exact h.release ht (w := w) (by rw [hph]; rfl) rfl rfl
  next w hph =>
    rw [← Option.some.inj hm]
    exact h.roam' ht rfl rfl
  next w hph =>
    rw [← Option.some.inj hm]
    exact h.roam' ht rfl rfl
  next => cases hm

theorem Inv.step (h : Inv s) {a : Act} {s' : Wake} (hok : s.Reaches a) (hst : s.step a = some s') :
    Inv s' := by
  cases ha : a.thread? with
  | none =>
    cases a with
    | signal gsock =>
      rw [← Option.some.inj hst]
      exact h.signal hok
    | take | pair | arm | look | wake | resume | rearm | recv | rearmed | done => cases ha
  | some t =>
    have hmove : s.step a = if t < s.threads then s.move t a else none := by
      cases a <;> cases ha <;> rfl
    obtain ⟨ht, hm⟩ := Option.ite_none_right_eq_some.mp (hmove.symm.trans hst)
    exact h.move ht ha hok hm

theorem inv_init (threads : Nat) : Inv (init threads) :=
  ⟨fun _ _ => rfl, nofun, nofun, nofun, nofun⟩

/-! ## every run -/

/-- **No wake-up is lost** in a run in which no thread, draining a slot that it has given back,
takes the last datagram of a next owner that has been poked, and in which no socket changes that a
thread waits for without a wake fd: a waiter that blocks with news since its last look finds its wake
fd readable. -/
theorem heard_run {threads : Nat} {tr : List (Wake × Act)} {s : Wake}
    (h : Path step (init threads) tr s) (hok : ∀ x ∈ tr, x.1.Reaches x.2) :
    ∀ u ∈ visited tr s, u.Heard := by
  refine h.all_of_ok (inv_init threads) (fun u hi t fd hfd hn => ?_)
    (fun _ _ _ hi hu hst => hi.step hu hst) hok
  cases hph : u.phase t with
  | looked i w =>
    rw [hph] at hfd
    exact ⟨i, (Option.some.inj hfd).symm, (hi.heard t i w hph hn).2⟩
  | blind | deaf =>
    have hno := hi.blind t (by rw [hph]; rfl)
    rw [hn] at hno
    cases hno
  | out | bare | took | up | woken | draining | drained | freed =>
    rw [hph] at hfd
    cases hfd

/-- one thread waits, is woken and gives its slot back; another takes it over when it is drained -/
def handOverLate : List Act :=
  [.take 0 ⟨[4], 1⟩, .pair 0 true, .arm 0, .look 0 true, .signal 4, .wake 0, .done 0, .recv 0,
    .recv 0, .take 1 ⟨[5], 1⟩, .arm 1, .look 1 true, .signal 5]

theorem heard_handOverLate : ∃ s, run step (init 2) handOverLate = some s ∧
    ∀ u ∈ visited (trace step (init 2) handOverLate) s, u.Heard := by
  have hrun : (run step (init 2) handOverLate).isSome = true := by decide +kernel
  obtain ⟨s, hs⟩ := Option.isSome_iff_exists.mp hrun
  have hok : ∀ x ∈ trace step (init 2) handOverLate, x.1.Reaches x.2 := by decide +kernel
  exact ⟨s, hs, heard_run (path_run hs) hok⟩

/-- the other takes it over before -/
def handOverEarly : List Act :=
  [.take 0 ⟨[4], 1⟩, .pair 0 true, .arm 0, .look 0 true, .wake 0, .done 0, .take 1 ⟨[5], 1⟩, .arm 1,
    .look 1 true, .signal 5, .recv 0]

/-- a thread without a slot, for want of a socket pair -/
def noPair : List Act := [.take 0 ⟨[4], 1⟩, .pair 0 false, .look 0 true, .signal 4]

/-- the poke goes to the first; and a poke that there is no slot for goes to nobody -/
theorem handOverEarly_unheard : (∃ s, run step (init 2) handOverEarly = some s ∧ ¬ s.Heard) ∧
    ∃ s, run step (init 1) noPair = some s ∧ ¬ s.Heard := by
  constructor
  · have hrun : (run step (init 2) handOverEarly).isSome = true := by decide +kernel
    obtain ⟨s, hs⟩ := Option.isSome_iff_exists.mp hrun
    have hend : ∀ s ∈ run step (init 2) handOverEarly,
        (s.phase 1).waitFd = some (some 0) ∧ s.news 1 = true ∧ (s.g_wt 0).bytes = 0 := by
      decide +kernel
    obtain ⟨h1, h2, h3⟩ := hend s hs
    refine ⟨s, hs, fun h => ?_⟩
    obtain ⟨i, hi, hpos⟩ := h 1 (some 0) h1 h2
    rw [← Option.some.inj hi, h3] at hpos
    exact absurd hpos (Nat.lt_irrefl 0)
  · have hrun : (run step (init 1) noPair).isSome = true := by decide +kernel
    obtain ⟨s, hs⟩ := Option.isSome_iff_exists.mp hrun
    have hend : ∀ s ∈ run step (init 1) noPair,
        (s.phase 0).waitFd = some none ∧ s.news 0 = true := by
      decide +kernel
    obtain ⟨h1, h2⟩ := hend s hs
    refine ⟨s, hs, fun h => ?_⟩
    obtain ⟨i, hi, -⟩ := h 0 none h1 h2
    cases hi

end Wake

end ShadowLan
