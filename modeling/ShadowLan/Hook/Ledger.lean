import ShadowLan.Hook.Alias
import ShadowLan.Lib.Runs

/-!
# The node port ledger

All processes of a node claim their virtual ports in one shared table, so that two binds of one node
collide as they would in the kernel of one machine.  Every call runs under the table's lock and is
one step here.  The table does not know who holds a port: a row stands for all the sockets that
share it and records the process of the first one only.  The holders are kept beside it.

* `slpClaim`, `slpRelease`   the two calls on the table, for the calling process;
* `Ledger.step`              a process starts, claims, releases or dies;
* `Kernel`                   whatever claim comes next, its answer is the kernel's;
* `StepOk`                   the recorded process gives a port up last, by release or by death;
* `Inv`                      every holder is covered by a row that a live process is recorded in;
* `kernel_iff`               a run collides like a kernel all along exactly when its steps are ok.

`slp_alive` is the truth about the processes, and a process here has attached the table.  The
counter `gen` is left out: nothing reads it.
-/

namespace ShadowLan

abbrev SLP_MAX : Nat := 192

/-- a cast to `unsigned char` -/
def uchar (n : Int) : Nat := (n % 256).toNat

/-- `slp_ent` -/
structure SlpEnt where
  pid : Nat
  node : Nat
  start : Nat
  vport : Int
  real : Int
  proto : Nat
  reuse : Nat
  used : Bool
  deriving DecidableEq

abbrev Slp := Fin SLP_MAX → SlpEnt

/-- a process of a node, with its start stamp -/
structure Proc where
  pid : Nat
  start : Nat
  node : Nat
  deriving DecidableEq

/-- what a claim is about: `(node, vport, proto)` -/
structure Port where
  node : Nat
  vport : Int
  proto : Nat
  deriving DecidableEq

def Proc.port (me : Proc) (vport proto : Int) : Port := ⟨me.node, vport, uchar proto⟩

/-- the row's entry is used and stands for the port -/
def SlpEnt.is (x : SlpEnt) (k : Port) : Bool :=
  x.used && x.node == k.node && x.vport == k.vport && x.proto == k.proto

/-- `slp_alive` -/
def slpAlive (procs : List Proc) (x : SlpEnt) : Bool :=
  procs.any fun q => q.pid == x.pid && q.start == x.start

/-- a row is of one port -/
theorem SlpEnt.is_port {x : SlpEnt} {k l : Port} (hk : x.is k = true) (hl : x.is l = true) :
    k = l := by
  simp only [SlpEnt.is, Bool.and_eq_true, beq_iff_eq] at hk hl
  obtain ⟨⟨⟨-, h1⟩, h2⟩, h3⟩ := hk
  obtain ⟨⟨⟨-, g1⟩, g2⟩, g3⟩ := hl
  cases k
  cases l
  simp_all

theorem SlpEnt.used_of_is {x : SlpEnt} {k : Port} (h : x.is k = true) : x.used = true := by
  simp only [SlpEnt.is, Bool.and_eq_true] at h
  exact h.1.1.1

/-- the slot for a new entry: an unused one, else one whose process is dead -/
def slpSlot (procs : List Proc) (e : Slp) : Option (Fin SLP_MAX) :=
  (first e fun x => !x.used).or (first e fun x => !slpAlive procs x)

/-- `slp_claim`, called by `me` -/
def slpClaim (procs : List Proc) (me : Proc) (e : Slp) (vport proto reuse real : Int) : Slp × Int :=
  match first e fun x => x.is (me.port vport proto) with
  | some i =>
    if slpAlive procs (e i) = false then
      (Function.update e i
        { e i with pid := me.pid, real := real, start := me.start, reuse := uchar reuse }, 0)
    else if proto = SOCK_DGRAM ∧ (e i).reuse ≠ 0 ∧ reuse ≠ 0 then (e, 1)
    else (e, -1)
  | none =>
    match slpSlot procs e with
    | some i => (Function.update e i
        ⟨me.pid, me.node, me.start, vport, real, uchar proto, uchar reuse, true⟩, 0)
    | none => (e, -2)

/-- `slp_release`, called by `me` -/
def slpRelease (me : Proc) (e : Slp) (vport proto : Int) : Slp := fun i =>
  if (e i).is (me.port vport proto) = true ∧ (e i).pid = me.pid then { e i with used := false }
  else e i

/-! ## processes, sockets and their claims -/

/-- socket `fd` of `proc` was answered 0 or 1 for `port`, and has not given it up -/
structure Holder where
  proc : Proc
  fd : Nat
  port : Port
  reuse : Int
  deriving DecidableEq

/-- the shared table, the live processes and the holders -/
structure Ledger where
  e : Slp
  procs : List Proc
  holders : List Holder

inductive Action where
  | start (p : Proc)
  | claim (p : Proc) (fd : Nat) (vport proto reuse real : Int)
  | release (p : Proc) (fd : Nat) (vport proto : Int)
  | die (p : Proc)
  deriving DecidableEq

namespace Ledger

/-- the table as `slp_attach` leaves it, and no process yet -/
def boot : Ledger := ⟨fun _ => ⟨0, 0, 0, 0, 0, 0, 0, false⟩, [], []⟩

/-- the answer to socket `fd` of `p` -/
def answer (s : Ledger) (p : Proc) (vport proto reuse real : Int) : Int :=
  (slpClaim s.procs p s.e vport proto reuse real).2

def step (s : Ledger) : Action → Option Ledger
  | .start p =>
    if ∀ q ∈ s.procs, q.pid ≠ p.pid then some { s with procs := p :: s.procs } else none
  | .claim p fd vport proto reuse real =>
    if p ∈ s.procs then
      let r := slpClaim s.procs p s.e vport proto reuse real
      if r.2 = 0 ∨ r.2 = 1 then
        some { s with e := r.1, holders := ⟨p, fd, p.port vport proto, reuse⟩ :: s.holders }
      else some { s with e := r.1 }
    else none
  | .release p fd vport proto =>
    if p ∈ s.procs then
      some { s with
        e := slpRelease p s.e vport proto
        holders := s.holders.filter fun h =>
          ¬ (h.proc = p ∧ h.fd = fd ∧ h.port = p.port vport proto) }
    else none
  | .die p =>
    if p ∈ s.procs then
      some { s with
        procs := s.procs.filter (· ≠ p)
        holders := s.holders.filter (·.proc ≠ p) }
    else none

/-- Whatever is claimed next, the answer is a kernel's: 0 only to a socket that is alone on the
port, 1 only among datagram sockets with reuse set; and a port has one entry. -/
structure Kernel (s : Ledger) : Prop where
  alone : ∀ p ∈ s.procs, ∀ (fd : Nat) vport proto reuse real,
    s.answer p vport proto reuse real = 0 →
      ∀ h ∈ s.holders, h.port = p.port vport proto → h.proc = p ∧ h.fd = fd
  shared : ∀ p ∈ s.procs, ∀ vport proto reuse real, s.answer p vport proto reuse real = 1 →
    (proto = SOCK_DGRAM ∧ reuse ≠ 0) ∧
      ∀ h ∈ s.holders, h.port = p.port vport proto → h.port.proto = SOCK_DGRAM ∧ h.reuse ≠ 0
  one : ∀ k i j, (s.e i).is k = true → (s.e j).is k = true → i = j

/-- The process recorded in a port's entry gives the port up last: no other socket holds it when
the entry is released, no other process's socket when the process dies. -/
def StepOk (s : Ledger) : Action → Prop
  | .release p fd vport proto =>
    ∀ i, (s.e i).is (p.port vport proto) = true → (s.e i).pid = p.pid →
      ∀ h ∈ s.holders, h.port = p.port vport proto → h.proc = p ∧ h.fd = fd
  | .die p =>
    ∀ i, (s.e i).pid = p.pid → (s.e i).start = p.start →
      ∀ h ∈ s.holders, (s.e i).is h.port = true → h.proc = p
  | _ => True

instance (s : Ledger) (a : Action) : Decidable (s.StepOk a) :=
  match a with
  | .start _ => inferInstanceAs (Decidable True)
  | .claim .. => inferInstanceAs (Decidable True)
  | .release p fd vport proto =>
    inferInstanceAs (Decidable (∀ i, (s.e i).is (p.port vport proto) = true → (s.e i).pid = p.pid →
      ∀ h ∈ s.holders, h.port = p.port vport proto → h.proc = p ∧ h.fd = fd))
  | .die p =>
    inferInstanceAs (Decidable (∀ i, (s.e i).pid = p.pid → (s.e i).start = p.start →
      ∀ h ∈ s.holders, (s.e i).is h.port = true → h.proc = p))

end Ledger

/-! ## what a call does -/

section
variable {procs : List Proc} {me : Proc} {e : Slp} {vport proto reuse real : Int}

/-- the slot that is found covers no live process's claim -/
theorem slpSlot_stale {i : Fin SLP_MAX} (h : slpSlot procs e = some i) :
    (e i).used = false ∨ slpAlive procs (e i) = false := by
  unfold slpSlot at h
  rcases Option.or_eq_some_iff.mp h with h | ⟨-, h⟩
  · left
    simpa using first_mem h
  · right
    simpa using first_mem h

theorem slpSlot_isSome (procs : List Proc) {i : Fin SLP_MAX} (h : (e i).used = false) :
    ∃ j, slpSlot procs e = some j := by
  obtain ⟨j, -, hj⟩ := first_isSome (T := e) (p := fun x => !x.used) (i := i) (by simp [h])
  exact ⟨j, by rw [slpSlot, hj, Option.some_or]⟩

variable (procs me e vport proto reuse real) in
/-- a claim writes one row that covers no live process's claim, or leaves the table as it is -/
theorem slpClaim_cases :
    (∃ i x, slpClaim procs me e vport proto reuse real = (Function.update e i x, 0) ∧
      ((e i).used = false ∨ slpAlive procs (e i) = false) ∧
      (∀ j, (e j).is (me.port vport proto) = true → (e i).is (me.port vport proto) = true) ∧
      x.is (me.port vport proto) = true ∧ x.pid = me.pid ∧ x.start = me.start ∧
      x.reuse = uchar reuse) ∨
    (∃ i, slpClaim procs me e vport proto reuse real = (e, 1) ∧
      (e i).is (me.port vport proto) = true ∧ slpAlive procs (e i) = true ∧
      proto = SOCK_DGRAM ∧ (e i).reuse ≠ 0 ∧ reuse ≠ 0) ∨
    slpClaim procs me e vport proto reuse real = (e, -1) ∨
    slpClaim procs me e vport proto reuse real = (e, -2) := by
  unfold slpClaim
  cases hf : first e fun x => x.is (me.port vport proto) with
  | some i =>
    have hi := first_mem hf
    by_cases hdead : slpAlive procs (e i) = false
    · left
      refine ⟨i, _, if_pos hdead, Or.inr hdead, fun _ _ => hi, ?_, rfl, rfl, rfl⟩
      exact hi
    · have hlive : slpAlive procs (e i) = true := by simpa using hdead
      right
      by_cases hshare : proto = SOCK_DGRAM ∧ (e i).reuse ≠ 0 ∧ reuse ≠ 0
      · left
        exact ⟨i, by simp [hlive, hshare], hi, hlive, hshare⟩
      · right
        left
        simp [hlive, hshare]
  | none =>
    have hno := first_eq_none_iff.mp hf
    cases hs : slpSlot procs e with
    | some i =>
      left
      refine ⟨i, _, rfl, slpSlot_stale hs, ?_, ?_, rfl, rfl, rfl⟩
      · intro j hj
        rw [hno j] at hj
        cases hj
      · simp [SlpEnt.is, Proc.port]
    | none =>
      right
      right
      right
      rfl

theorem slpRelease_self {i : Fin SLP_MAX} (h : (e i).is (me.port vport proto) = true)
    (hp : (e i).pid = me.pid) : (slpRelease me e vport proto i).used = false := by
  unfold slpRelease
  rw [if_pos ⟨h, hp⟩]

/-- what is still used after a release is a row that the release left alone -/
theorem slpRelease_used {i : Fin SLP_MAX} (h : (slpRelease me e vport proto i).used = true) :
    slpRelease me e vport proto i = e i ∧
      ¬ ((e i).is (me.port vport proto) = true ∧ (e i).pid = me.pid) := by
  unfold slpRelease at h ⊢
  split at h
  · cases h
  · next hn => exact ⟨if_neg hn, hn⟩

end

namespace Ledger
variable {s s' : Ledger}

theorem answer_eq {p : Proc} {vport proto reuse real : Int} {r : Slp × Int}
    (h : slpClaim s.procs p s.e vport proto reuse real = r) :
    s.answer p vport proto reuse real = r.2 := by
  rw [answer, h]

/-! ## every holder is covered -/

/-- Every holder belongs to a live process, and a row of its port is recorded in the name of a live
process and allows no sharing that the holder does not. -/
structure Inv (s : Ledger) : Prop where
  one : ∀ k i j, (s.e i).is k = true → (s.e j).is k = true → i = j
  pids : ∀ p ∈ s.procs, ∀ q ∈ s.procs, p.pid = q.pid → p = q
  live : ∀ h ∈ s.holders, h.proc ∈ s.procs
  port : ∀ h ∈ s.holders, ∃ vport proto, h.port = h.proc.port vport proto
  covered : ∀ h ∈ s.holders, ∃ i, (s.e i).is h.port = true ∧ slpAlive s.procs (s.e i) = true ∧
    ((s.e i).reuse ≠ 0 → h.reuse ≠ 0)

theorem inv_boot : Inv boot where
  one := by
    intro k i j hi
    cases hi
  pids := by
    intro p hp
    cases hp
  live := by
    intro h hh
    cases hh
  port := by
    intro h hh
    cases hh
  covered := by
    intro h hh
    cases hh

/-- a row that may be written covers no holder -/
theorem Inv.not_stale (hI : Inv s) {h : Holder} (hh : h ∈ s.holders) {i : Fin SLP_MAX}
    (hs : (s.e i).used = false ∨ slpAlive s.procs (s.e i) = false) :
    (s.e i).is h.port = false := by
  obtain ⟨j, hj, hlive, -⟩ := hI.covered h hh
  by_contra hi
  have hi' : (s.e i).is h.port = true := by simpa using hi
  have hij := hI.one _ i j hi' hj
  rcases hs with hs | hs
  · rw [SlpEnt.used_of_is hi'] at hs
    cases hs
  · rw [hij, hlive] at hs
    cases hs

theorem Inv.kernel (hI : Inv s) : Kernel s where
  one := hI.one
  alone := by
    intro p hp fd vport proto reuse real h0 h hh hport
    rcases slpClaim_cases s.procs p s.e vport proto reuse real with
      ⟨i, x, hc, hst, hrow, -⟩ | ⟨i, hc, -⟩ | hc | hc
    · obtain ⟨j, hj, -⟩ := hI.covered h hh
      have hi := hrow j (hport ▸ hj)
      rw [← hport, hI.not_stale hh hst] at hi
      cases hi
    all_goals
      rw [answer_eq hc] at h0
      cases h0
  shared := by
    intro p hp vport proto reuse real h1
    rcases slpClaim_cases s.procs p s.e vport proto reuse real with
      ⟨i, x, hc, -⟩ | ⟨i, hc, hi, -, hp, hre, hr⟩ | hc | hc
    · rw [answer_eq hc] at h1
      cases h1
    · refine ⟨⟨hp, hr⟩, fun h hh hport => ⟨?_, ?_⟩⟩
      · rw [hport, hp]
        rfl
      · obtain ⟨j, hj, -, hreuse⟩ := hI.covered h hh
        have hji := hI.one _ j i (hport ▸ hj) hi
        exact hreuse (hji ▸ hre)
    all_goals
      rw [answer_eq hc] at h1
      cases h1

/-! ### what a step keeps -/

theorem step_start {p : Proc} (h : s.step (.start p) = some s') :
    (∀ q ∈ s.procs, q.pid ≠ p.pid) ∧ s' = { s with procs := p :: s.procs } := by
  obtain ⟨hp, he⟩ := Option.ite_none_right_eq_some.mp h
  exact ⟨hp, (Option.some.inj he).symm⟩

theorem step_release {p : Proc} {fd : Nat} {vport proto : Int}
    (h : s.step (.release p fd vport proto) = some s') :
    p ∈ s.procs ∧ s' = { s with
      e := slpRelease p s.e vport proto
      holders := s.holders.filter fun h =>
        ¬ (h.proc = p ∧ h.fd = fd ∧ h.port = p.port vport proto) } := by
  obtain ⟨hp, he⟩ := Option.ite_none_right_eq_some.mp h
  exact ⟨hp, (Option.some.inj he).symm⟩

theorem step_die {p : Proc} (h : s.step (.die p) = some s') :
    p ∈ s.procs ∧ s' = { s with
      procs := s.procs.filter (· ≠ p)
      holders := s.holders.filter (·.proc ≠ p) } := by
  obtain ⟨hp, he⟩ := Option.ite_none_right_eq_some.mp h
  exact ⟨hp, (Option.some.inj he).symm⟩

/-- a claim takes a row that covers no holder, or shares a row, or changes nothing -/
theorem step_claim {p : Proc} {fd : Nat} {vport proto reuse real : Int}
    (h : s.step (.claim p fd vport proto reuse real) = some s') :
    p ∈ s.procs ∧
      ((∃ i x, ((s.e i).used = false ∨ slpAlive s.procs (s.e i) = false) ∧
          (∀ j, (s.e j).is (p.port vport proto) = true → (s.e i).is (p.port vport proto) = true) ∧
          x.is (p.port vport proto) = true ∧ x.pid = p.pid ∧ x.start = p.start ∧
          x.reuse = uchar reuse ∧
          s' = { s with
            e := Function.update s.e i x
            holders := ⟨p, fd, p.port vport proto, reuse⟩ :: s.holders }) ∨
        (∃ i, (s.e i).is (p.port vport proto) = true ∧ slpAlive s.procs (s.e i) = true ∧
          reuse ≠ 0 ∧
          s' = { s with holders := ⟨p, fd, p.port vport proto, reuse⟩ :: s.holders }) ∨
        s' = s) := by
  obtain ⟨hp, he⟩ := Option.ite_none_right_eq_some.mp h
  refine ⟨hp, ?_⟩
  rcases slpClaim_cases s.procs p s.e vport proto reuse real with
    ⟨i, x, hc, hst, hrow, hx, h1, h2, h3⟩ | ⟨i, hc, hi, hlive, -, -, hr⟩ | hc | hc
  · left
    rw [hc] at he
    exact ⟨i, x, hst, hrow, hx, h1, h2, h3, (Option.some.inj he).symm⟩
  · right
    left
    rw [hc] at he
    exact ⟨i, hi, hlive, hr, (Option.some.inj he).symm⟩
  all_goals
    right
    right
    rw [hc] at he
    exact (Option.some.inj he).symm

theorem slpAlive_mono {procs procs' : List Proc} {x : SlpEnt} (h : slpAlive procs x = true)
    (hm : ∀ q ∈ procs, q.pid = x.pid → q.start = x.start → q ∈ procs') :
    slpAlive procs' x = true := by
  obtain ⟨q, hq, he⟩ := List.any_eq_true.mp h
  have he' := he
  simp only [Bool.and_eq_true, beq_iff_eq] at he'
  exact List.any_eq_true.mpr ⟨q, hm q hq he'.1 he'.2, he⟩

theorem slpAlive_own {procs : List Proc} {p : Proc} {x : SlpEnt} (hp : p ∈ procs)
    (h1 : x.pid = p.pid) (h2 : x.start = p.start) : slpAlive procs x = true :=
  List.any_eq_true.mpr ⟨p, hp, by simp [h1, h2]⟩

theorem Inv.start {p : Proc} (hI : Inv s) (hp : ∀ q ∈ s.procs, q.pid ≠ p.pid) :
    Inv { s with procs := p :: s.procs } where
  one := hI.one
  port := hI.port
  pids := by
    intro a ha b hb hab
    rcases List.mem_cons.mp ha with ea | ha' <;> rcases List.mem_cons.mp hb with eb | hb'
    · rw [ea, eb]
    · exact absurd (ea ▸ hab.symm) (hp b hb')
    · exact absurd (eb ▸ hab) (hp a ha')
    · exact hI.pids a ha' b hb' hab
  live := by
    intro h hh
    exact List.mem_cons_of_mem _ (hI.live h hh)
  covered := by
    intro h hh
    obtain ⟨i, hi, hlive, hr⟩ := hI.covered h hh
    exact ⟨i, hi, slpAlive_mono hlive fun q hq _ _ => List.mem_cons_of_mem _ hq, hr⟩

/-- a new holder with a row of its own -/
theorem Inv.take {p : Proc} {fd : Nat} {vport proto reuse : Int} {i : Fin SLP_MAX} {x : SlpEnt}
    (hI : Inv s) (hp : p ∈ s.procs)
    (hst : (s.e i).used = false ∨ slpAlive s.procs (s.e i) = false)
    (hrow : ∀ j, (s.e j).is (p.port vport proto) = true → (s.e i).is (p.port vport proto) = true)
    (hx : x.is (p.port vport proto) = true) (h1 : x.pid = p.pid) (h2 : x.start = p.start)
    (h3 : x.reuse = uchar reuse) :
    Inv { s with
      e := Function.update s.e i x
      holders := ⟨p, fd, p.port vport proto, reuse⟩ :: s.holders } where
  pids := hI.pids
  one := by
    intro k a b ha hb
    have other : ∀ {c d}, c = i → d ≠ i → (Function.update s.e i x c).is k = true →
        (Function.update s.e i x d).is k = true → False := by
      intro c d hc hd hck hdk
      rw [hc, Function.update_self] at hck
      rw [Function.update_of_ne hd, SlpEnt.is_port hck hx] at hdk
      exact hd (hI.one _ d i hdk (hrow d hdk))
    by_cases hai : a = i <;> by_cases hbi : b = i
    · rw [hai, hbi]
    · exact (other hai hbi ha hb).elim
    · exact (other hbi hai hb ha).elim
    · change (Function.update s.e i x a).is k = true at ha
      change (Function.update s.e i x b).is k = true at hb
      rw [Function.update_of_ne hai] at ha
      rw [Function.update_of_ne hbi] at hb
      exact hI.one k a b ha hb
  live := by
    intro h hh
    rcases List.mem_cons.mp hh with rfl | hh
    · exact hp
    · exact hI.live h hh
  port := by
    intro h hh
    rcases List.mem_cons.mp hh with rfl | hh
    · exact ⟨vport, proto, rfl⟩
    · exact hI.port h hh
  covered := by
    intro h hh
    rcases List.mem_cons.mp hh with rfl | hh
    · refine ⟨i, ?_⟩
      show (Function.update s.e i x i).is _ = true ∧ slpAlive _ (Function.update s.e i x i) = true ∧
        ((Function.update s.e i x i).reuse ≠ 0 → reuse ≠ 0)
      rw [Function.update_self]
      refine ⟨hx, slpAlive_own hp h1 h2, fun hne h0 => hne ?_⟩
      rw [h3, h0]
      rfl
    · obtain ⟨j, hj, hlive, hr⟩ := hI.covered h hh
      have hji : j ≠ i := by
        intro e
        rw [e, hI.not_stale hh hst] at hj
        cases hj
      refine ⟨j, ?_⟩
      show (Function.update s.e i x j).is _ = true ∧ slpAlive _ (Function.update s.e i x j) = true ∧
        ((Function.update s.e i x j).reuse ≠ 0 → h.reuse ≠ 0)
      rw [Function.update_of_ne hji]
      exact ⟨hj, hlive, hr⟩

/-- a new holder that shares a row -/
theorem Inv.share {p : Proc} {fd : Nat} {vport proto reuse : Int} {i : Fin SLP_MAX}
    (hI : Inv s) (hp : p ∈ s.procs) (hi : (s.e i).is (p.port vport proto) = true)
    (hlive : slpAlive s.procs (s.e i) = true) (hr : reuse ≠ 0) :
    Inv { s with holders := ⟨p, fd, p.port vport proto, reuse⟩ :: s.holders } where
  one := hI.one
  pids := hI.pids
  live := by
    intro h hh
    rcases List.mem_cons.mp hh with rfl | hh
    · exact hp
    · exact hI.live h hh
  port := by
    intro h hh
    rcases List.mem_cons.mp hh with rfl | hh
    · exact ⟨vport, proto, rfl⟩
    · exact hI.port h hh
  covered := by
    intro h hh
    rcases List.mem_cons.mp hh with rfl | hh
    · exact ⟨i, hi, hlive, fun _ => hr⟩
    · exact hI.covered h hh

theorem Inv.release {p : Proc} {fd : Nat} {vport proto : Int} (hI : Inv s)
    (hok : StepOk s (.release p fd vport proto)) :
    Inv { s with
      e := slpRelease p s.e vport proto
      holders := s.holders.filter fun h =>
        ¬ (h.proc = p ∧ h.fd = fd ∧ h.port = p.port vport proto) } where
  pids := hI.pids
  one := by
    intro k i j hi hj
    have ei := (slpRelease_used (SlpEnt.used_of_is hi)).1
    have ej := (slpRelease_used (SlpEnt.used_of_is hj)).1
    change (slpRelease p s.e vport proto i).is k = true at hi
    change (slpRelease p s.e vport proto j).is k = true at hj
    rw [ei] at hi
    rw [ej] at hj
    exact hI.one k i j hi hj
  live := by
    intro h hh
    exact hI.live h (List.mem_filter.mp hh).1
  port := by
    intro h hh
    exact hI.port h (List.mem_filter.mp hh).1
  covered := by
    intro h hh
    obtain ⟨hmem, hkeep⟩ := List.mem_filter.mp hh
    have hkeep' := of_decide_eq_true hkeep
    obtain ⟨i, hi, hlive, hr⟩ := hI.covered h hmem
    have hstay : ¬ ((s.e i).is (p.port vport proto) = true ∧ (s.e i).pid = p.pid) := by
      rintro ⟨hk, hpid⟩
      have hport := SlpEnt.is_port hi hk
      obtain ⟨hproc, hfd⟩ := hok i hk hpid h hmem hport
      exact hkeep' ⟨hproc, hfd, hport⟩
    have e : slpRelease p s.e vport proto i = s.e i := if_neg hstay
    refine ⟨i, ?_⟩
    show (slpRelease p s.e vport proto i).is _ = true ∧
      slpAlive _ (slpRelease p s.e vport proto i) = true ∧
      ((slpRelease p s.e vport proto i).reuse ≠ 0 → h.reuse ≠ 0)
    rw [e]
    exact ⟨hi, hlive, hr⟩

theorem Inv.die {p : Proc} (hI : Inv s) (hok : StepOk s (.die p)) :
    Inv { s with
      procs := s.procs.filter (· ≠ p)
      holders := s.holders.filter (·.proc ≠ p) } where
  one := hI.one
  pids := by
    intro a ha b hb
    exact hI.pids a (List.mem_filter.mp ha).1 b (List.mem_filter.mp hb).1
  live := by
    intro h hh
    obtain ⟨hmem, hne⟩ := List.mem_filter.mp hh
    exact List.mem_filter.mpr ⟨hI.live h hmem, hne⟩
  port := by
    intro h hh
    exact hI.port h (List.mem_filter.mp hh).1
  covered := by
    intro h hh
    obtain ⟨hmem, hne⟩ := List.mem_filter.mp hh
    have hne' := of_decide_eq_true hne
    obtain ⟨i, hi, hlive, hr⟩ := hI.covered h hmem
    refine ⟨i, hi, slpAlive_mono hlive ?_, hr⟩
    intro q hq h1 h2
    refine List.mem_filter.mpr ⟨hq, decide_eq_true ?_⟩
    rintro rfl
    exact hne' (hok i h1.symm h2.symm h hmem hi)

theorem Inv.step {a : Action} (hI : Inv s) (hok : StepOk s a) (hs : s.step a = some s') :
    Inv s' := by
  cases a with
  | start p =>
    obtain ⟨hp, rfl⟩ := step_start hs
    exact hI.start hp
  | claim p fd vport proto reuse real =>
    obtain ⟨hp, ⟨i, x, hst, hrow, hx, h1, h2, h3, rfl⟩ | ⟨i, hi, hlive, hr, rfl⟩ | rfl⟩ :=
      step_claim hs
    · exact hI.take hp hst hrow hx h1 h2 h3
    · exact hI.share hp hi hlive hr
    · exact hI
  | release p fd vport proto =>
    obtain ⟨-, rfl⟩ := step_release hs
    exact hI.release hok
  | die p =>
    obtain ⟨-, rfl⟩ := step_die hs
    exact hI.die hok

/-! ### a step that misses the condition -/

/-- no row is of the port, and one is unused -/
theorem answer_fresh {p : Proc} {vport proto : Int} {i : Fin SLP_MAX} (reuse real : Int)
    (h : ∀ j, (s.e j).is (p.port vport proto) = false) (hi : (s.e i).used = false) :
    s.answer p vport proto reuse real = 0 := by
  have hnone : first s.e (fun x => x.is (p.port vport proto)) = none := first_eq_none_iff.mpr h
  obtain ⟨j, hj⟩ := slpSlot_isSome s.procs hi
  rw [answer, slpClaim, hnone]
  dsimp only
  rw [hj]

/-- the row of the port is a dead process's -/
theorem answer_stale {p : Proc} {vport proto : Int} {i : Fin SLP_MAX} (reuse real : Int)
    (hone : ∀ k i j, (s.e i).is k = true → (s.e j).is k = true → i = j)
    (hi : (s.e i).is (p.port vport proto) = true) (hdead : slpAlive s.procs (s.e i) = false) :
    s.answer p vport proto reuse real = 0 := by
  obtain ⟨j, -, hj⟩ := first_isSome (T := s.e) (p := fun x => x.is (p.port vport proto)) hi
  have hk : (s.e j).is (p.port vport proto) = true := first_mem hj
  have hji := hone _ j i hk hi
  rw [answer, slpClaim, hj]
  dsimp only
  rw [hji, if_pos hdead]

theorem Inv.node {h : Holder} (hI : Inv s) (hh : h ∈ s.holders) : h.port.node = h.proc.node := by
  obtain ⟨v, q, e⟩ := hI.port h hh
  rw [e]
  rfl

/-- after the release, the port is given to another socket of the holder that was left out -/
theorem Inv.release_bad {p : Proc} {fd : Nat} {vport proto : Int} (hI : Inv s)
    (hbad : ¬ StepOk s (.release p fd vport proto))
    (hs : s.step (.release p fd vport proto) = some s') : ¬ Kernel s' := by
  obtain ⟨-, rfl⟩ := step_release hs
  simp only [StepOk, not_forall] at hbad
  obtain ⟨i, hi, hpid, h, hh, hport, hother⟩ := hbad
  intro K
  have hsame : h.proc.port vport proto = p.port vport proto := by
    have hnode : h.proc.node = p.node := by
      rw [← hI.node hh, hport]
      rfl
    unfold Proc.port
    rw [hnode]
  have hself := slpRelease_self hi hpid
  have hnone : ∀ j, (slpRelease p s.e vport proto j).is (h.proc.port vport proto) = false := by
    intro j
    by_contra hj
    have hj' : (slpRelease p s.e vport proto j).is (h.proc.port vport proto) = true := by
      simpa using hj
    obtain ⟨e, hstay⟩ := slpRelease_used (SlpEnt.used_of_is hj')
    rw [hsame, e] at hj'
    have hji := hI.one _ j i hj' hi
    rw [hji] at hstay
    exact hstay ⟨hi, hpid⟩
  have hzero := answer_fresh (s := { s with
      e := slpRelease p s.e vport proto
      holders := s.holders.filter fun h =>
        ¬ (h.proc = p ∧ h.fd = fd ∧ h.port = p.port vport proto) }) 0 0 hnone hself
  have hleft : h ∈ s.holders.filter fun h =>
      ¬ (h.proc = p ∧ h.fd = fd ∧ h.port = p.port vport proto) :=
    List.mem_filter.mpr ⟨hh, decide_eq_true fun hc => hother ⟨hc.1, hc.2.1⟩⟩
  obtain ⟨-, hfd⟩ := K.alone h.proc (hI.live h hh) (h.fd + 1) vport proto 0 0 hzero h hleft
    (hport.trans hsame.symm)
  omega

/-- after the death, the port is given to another socket of the holder that is left -/
theorem Inv.die_bad {p : Proc} (hI : Inv s) (hbad : ¬ StepOk s (.die p))
    (hs : s.step (.die p) = some s') : ¬ Kernel s' := by
  obtain ⟨hp, rfl⟩ := step_die hs
  simp only [StepOk, not_forall] at hbad
  obtain ⟨i, hpid, -, h, hh, hi, hother⟩ := hbad
  intro K
  obtain ⟨vport, proto, hport⟩ := hI.port h hh
  have hrow : (s.e i).is (h.proc.port vport proto) = true := hport ▸ hi
  have hdead : slpAlive (s.procs.filter (· ≠ p)) (s.e i) = false := by
    apply List.any_eq_false.mpr
    intro q hq hc
    obtain ⟨hmem, hne⟩ := List.mem_filter.mp hq
    simp only [Bool.and_eq_true, beq_iff_eq] at hc
    exact of_decide_eq_true hne (hI.pids q hmem p hp (hc.1.trans hpid))
  have hzero := answer_stale (s := { s with
      procs := s.procs.filter (· ≠ p)
      holders := s.holders.filter (·.proc ≠ p) }) 0 0 hI.one hrow hdead
  have hne : decide (h.proc ≠ p) = true := decide_eq_true hother
  have hlive : h.proc ∈ s.procs.filter (· ≠ p) := List.mem_filter.mpr ⟨hI.live h hh, hne⟩
  have hleft : h ∈ s.holders.filter (·.proc ≠ p) := List.mem_filter.mpr ⟨hh, hne⟩
  obtain ⟨-, hfd⟩ := K.alone h.proc hlive (h.fd + 1) vport proto 0 0 hzero h hleft hport
  omega

theorem Inv.step_bad {a : Action} (hI : Inv s) (hbad : ¬ StepOk s a) (hs : s.step a = some s') :
    ¬ Kernel s' := by
  cases a with
  | start p => exact absurd trivial hbad
  | claim p fd vport proto reuse real => exact absurd trivial hbad
  | release p fd vport proto => exact hI.release_bad hbad hs
  | die p => exact hI.die_bad hbad hs

/-! ## runs -/

variable {tr : List (Ledger × Action)} {t : Ledger}

/-- **Collisions.**  Any processes of any nodes claim and release ports and die.  Every claim that
may come at any moment of the run is answered as a kernel would, and every port has one entry, exactly
when the process that a port's entry records always gives it up last. -/
theorem kernel_iff (hrun : Path Ledger.step boot tr t) :
    (∀ u ∈ visited tr t, Kernel u) ↔ ∀ x ∈ tr, StepOk x.1 x.2 :=
  hrun.all_iff_ok inv_boot (fun _ hI => hI.kernel) (fun _ _ _ hI hok hs => hI.step hok hs)
    (fun _ _ _ hI hbad hs => hI.step_bad hbad hs)

/-! ### two processes that share a datagram port -/

def procA : Proc := ⟨100, 7, 1⟩
def procB : Proc := ⟨101, 8, 1⟩

/-- both bind datagram port 27015 with reuse set; the second socket closes first -/
def sharedOrderly : List Action :=
  [.start procA, .start procB, .claim procA 3 27015 2 1 27015, .claim procB 3 27015 2 1 27015,
   .release procB 3 27015 2, .release procA 3 27015 2]

/-- the first socket closes while the second still serves the port -/
def sharedLeft : List Action :=
  [.start procA, .start procB, .claim procA 3 27015 2 1 27015, .claim procB 3 27015 2 1 27015,
   .release procA 3 27015 2]

theorem kernel_sharedOrderly : ∃ t, run Ledger.step boot sharedOrderly = some t ∧
    ∀ u ∈ visited (trace Ledger.step boot sharedOrderly) t, Kernel u := by
  have hsome : (run Ledger.step boot sharedOrderly).isSome = true := by decide +kernel
  obtain ⟨t, ht⟩ := Option.isSome_iff_exists.mp hsome
  have hok : ∀ x ∈ trace Ledger.step boot sharedOrderly, StepOk x.1 x.2 := by decide +kernel
  exact ⟨t, ht, (kernel_iff (path_run ht)).mpr hok⟩

/-- then an exclusive bind of the port is answered 0 -/
theorem claim_over_holder : ∃ t, run Ledger.step boot sharedLeft = some t ∧
    t.answer procA 27015 2 0 27015 = 0 ∧
      ∃ h ∈ t.holders, h.port = procA.port 27015 2 ∧ h.proc = procB := by
  have hsome : (run Ledger.step boot sharedLeft).isSome = true := by decide +kernel
  obtain ⟨t, ht⟩ := Option.isSome_iff_exists.mp hsome
  have hall : ∀ u ∈ run Ledger.step boot sharedLeft, u.answer procA 27015 2 0 27015 = 0 ∧
      ∃ h ∈ u.holders, h.port = procA.port 27015 2 ∧ h.proc = procB := by decide +kernel
  exact ⟨t, ht, hall t ht⟩

end Ledger

end ShadowLan
