import ShadowLan.Hook.Egress
import ShadowLan.Hook.Release
import ShadowLan.Lib.Runs

/-!
# What a hairpin socket shows

A dial of our own address is completed over loopback, and `getpeername` must go on naming the
address that was dialed.  `g_hp` remembers it: a row for a socket, free while its socket is 0.

* `HpTable.remember`, `HpTable.forget`, `HpTable.peer`   the table;
* `PeerHook.step`     the process: dials, closes, and whatever else happens to it;
* `PeerHook.getpeer`  what `getpeername` is told: of a stream first, else of the table;
* `PeerHook.Right`    a socket without a stream shows what it dialed last since it was made;
* `PeerHook.Apart`    no socket that has dialed over loopback has a stream as well;
* `hairpin_peer_iff`  when they are right, over any run of such states.

A socket is written into the first row that is free or its own.  The two need not be the same row:
a socket whose own row stands behind a free one gets a second row, and a close frees the first.
-/

namespace ShadowLan

def DT_MAXHP : Nat := 32

structure HpRow where
  sock : Nat
  dest : SockaddrIn
  deriving DecidableEq

abbrev HpTable := Fin DT_MAXHP → HpRow

namespace HpTable

def init : HpTable := fun _ => ⟨0, ⟨0, 0⟩⟩

section
variable (g_hp : HpTable) (s : Nat)

/-- `dt_hairpin_remember` -/
def remember (dest : SockaddrIn) : HpTable :=
  match first g_hp fun r => r.sock == 0 || r.sock == s with
  | some i => Function.update g_hp i ⟨s, dest⟩
  | none => g_hp

/-- `dt_hairpin_forget_locked` -/
def forget : HpTable :=
  match first g_hp fun r => r.sock == s with
  | some i => Function.update g_hp i { g_hp i with sock := 0 }
  | none => g_hp

/-- the second branch of `dt_getpeer` -/
def peer : Option SockaddrIn := (first g_hp fun r => r.sock == s).map fun i => (g_hp i).dest

/-- a row that is free or the socket's own -/
def Room : Prop := ∃ i, (g_hp i).sock = 0 ∨ (g_hp i).sock = s

/-- the socket has one row at most -/
def Single : Prop := ∀ i j, (g_hp i).sock = s → (g_hp j).sock = s → i = j

instance : Decidable (g_hp.Room s) := inferInstanceAs (Decidable (∃ _, _))

instance : Decidable (g_hp.Single s) := inferInstanceAs (Decidable (∀ _ _, _))

end

variable {g_hp : HpTable} {s s' : Nat}

/-- a row that was not the socket's, and is not -/
theorem peer_update {i : Fin DT_MAXHP} {r : HpRow} (hi : (g_hp i).sock ≠ s) (hr : r.sock ≠ s) :
    peer (Function.update g_hp i r) s = g_hp.peer s := by
  have hfirst : first (Function.update g_hp i r) (fun r => r.sock == s) =
      first g_hp fun r => r.sock == s := by
    apply first_update
    rw [beq_eq_false_iff_ne.mpr hi, beq_eq_false_iff_ne.mpr hr]
  unfold peer
  rw [hfirst]
  cases hf : first g_hp fun r => r.sock == s with
  | none => rfl
  | some j =>
    have hj : (g_hp j).sock = s := eq_of_beq (first_mem hf)
    have hne : j ≠ i := by
      rintro rfl
      exact hi hj
    rw [Option.map_some, Option.map_some, Function.update_of_ne hne]

theorem peer_remember_self {dest : SockaddrIn} :
    (g_hp.remember s dest).peer s = some dest ↔ g_hp.Room s ∨ g_hp.peer s = some dest := by
  unfold remember
  cases hf : first g_hp fun r => r.sock == 0 || r.sock == s with
  | none =>
    have hno : ¬ g_hp.Room s := by
      rintro ⟨i, hi⟩
      have hrow := first_eq_none_iff.mp hf i
      rw [Bool.or_eq_false_iff, beq_eq_false_iff_ne, beq_eq_false_iff_ne] at hrow
      exact hi.elim hrow.1 hrow.2
    exact ⟨Or.inr, fun h => h.resolve_left hno⟩
  | some i =>
    have hrow := first_eq_some_iff.mp hf
    have hroom : g_hp.Room s := by
      refine ⟨i, ?_⟩
      have hi := hrow.1
      rw [Bool.or_eq_true, beq_iff_eq, beq_iff_eq] at hi
      exact hi
    refine ⟨fun _ => Or.inl hroom, fun _ => ?_⟩
    have hfirst : first (Function.update g_hp i ⟨s, dest⟩) (fun r => r.sock == s) = some i := by
      rw [first_eq_some_iff, Function.update_self]
      refine ⟨beq_self_eq_true s, fun j hj => ?_⟩
      rw [Function.update_of_ne hj.ne]
      exact (Bool.or_eq_false_iff.mp (hrow.2 j hj)).2
    show peer (Function.update g_hp i ⟨s, dest⟩) s = _
    unfold peer
    rw [hfirst, Option.map_some, Function.update_self]

theorem peer_remember_other {dest : SockaddrIn} (hs : s' ≠ 0) (hne : s' ≠ s) :
    (g_hp.remember s dest).peer s' = g_hp.peer s' := by
  unfold remember
  cases hf : first g_hp fun r => r.sock == 0 || r.sock == s with
  | none => rfl
  | some i =>
    have hi := first_mem hf
    rw [Bool.or_eq_true, beq_iff_eq, beq_iff_eq] at hi
    refine peer_update ?_ hne.symm
    rintro rfl
    exact hi.elim hs hne

theorem peer_forget_other (hs : s' ≠ 0) (hne : s' ≠ s) : (g_hp.forget s).peer s' = g_hp.peer s' := by
  unfold forget
  cases hf : first g_hp fun r => r.sock == s with
  | none => rfl
  | some i =>
    have hi : (g_hp i).sock = s := eq_of_beq (first_mem hf)
    refine peer_update ?_ hs.symm
    rw [hi]
    exact hne.symm

theorem peer_eq_none : g_hp.peer s = none ↔ ∀ i, (g_hp i).sock ≠ s := by
  unfold peer
  rw [Option.map_eq_none_iff, first_eq_none_iff]
  simp only [beq_eq_false_iff_ne]

/-- a socket is forgotten when it has one row at most -/
theorem peer_forget_self (hs : s ≠ 0) : (g_hp.forget s).peer s = none ↔ g_hp.Single s := by
  unfold forget
  cases hf : first g_hp fun r => r.sock == s with
  | none =>
    have hno : ∀ i, (g_hp i).sock ≠ s := fun i => beq_eq_false_iff_ne.mp (first_eq_none_iff.mp hf i)
    exact iff_of_true (peer_eq_none.mpr hno) fun i _ hi => absurd hi (hno i)
  | some k =>
    have hk : (g_hp k).sock = s := eq_of_beq (first_mem hf)
    dsimp only
    rw [peer_eq_none]
    constructor
    · intro hno i j hi hj
      have honly : ∀ m, (g_hp m).sock = s → m = k := by
        intro m hm
        by_contra hne
        have hrow := hno m
        rw [Function.update_of_ne hne] at hrow
        exact hrow hm
      rw [honly i hi, honly j hj]
    · intro hone i
      by_cases hik : i = k
      · rw [hik, Function.update_self]
        exact hs.symm
      · rw [Function.update_of_ne hik]
        exact fun hi => hik (hone i k hi hk)

end HpTable

/-! ## the process -/

structure PeerHook where
  proc : HookProc
  g_hp : HpTable
  /-- what each socket has dialed last over loopback, since it was made -/
  dialed : Nat → Option SockaddrIn

namespace PeerHook

inductive Act where
  /-- `dt_on_connect` -/
  | connect (os : HookOs) (s sid : Nat) (dst : SockaddrIn)
  /-- `dt_on_close` -/
  | close (s : Nat)
  /-- anything that leaves the table alone -/
  | other (proc : HookProc)

section
variable (P : PeerHook)

/-- the dial is completed over loopback -/
def hairpins (os : HookOs) (s sid : Nat) (dst : SockaddrIn) : Bool :=
  (P.proc.dtOnConnect os s sid dst).2.1 == 4

def step : Act → Option PeerHook
  | .connect os s sid dst =>
    let P' := { P with proc := { P.proc with streams := (P.proc.dtOnConnect os s sid dst).1 } }
    some (if P.hairpins os s sid dst then { P' with
        g_hp := P.g_hp.remember s dst
        dialed := Function.update P.dialed s (some dst) }
      else P')
  | .close s => some
      { proc := { P.proc with streams := P.proc.streams.onClose s, udp := P.proc.udp.onClose s }
        g_hp := P.g_hp.forget s
        dialed := Function.update P.dialed s none }
  | .other proc => some { P with proc := proc }

/-- `dt_getpeer` -/
def getpeer (s : Nat) : Option SockaddrIn :=
  match P.proc.streams.bySock s with
  | some i => some (P.proc.streams.g_st i).orig
  | none => P.g_hp.peer s

/-- every socket without a stream shows what it dialed; 0 is no socket in the tables -/
def Right : Prop := ∀ s ≠ 0, P.proc.streams.bySock s = none → P.getpeer s = P.dialed s

/-- no stream is that of a socket that has dialed over loopback -/
def Apart : Prop :=
  ∀ i, (P.proc.streams.g_st i).used = true → (P.proc.streams.g_st i).gsock ≠ 0 →
    P.dialed (P.proc.streams.g_st i).gsock = none

instance : Decidable P.Apart := inferInstanceAs (Decidable (∀ _, _ → _ → _))

/-- there is room for what is dialed, and nothing is left behind by a close -/
def Tidy : Act → Prop
  | .connect os s sid dst => P.hairpins os s sid dst = true → s ≠ 0 →
      P.g_hp.Room s ∨ P.g_hp.peer s = some dst
  | .close s => s ≠ 0 → P.g_hp.Single s
  | .other _ => True

instance : (a : Act) → Decidable (P.Tidy a)
  | .connect .. => inferInstanceAs (Decidable (_ → _ → _ ∨ _))
  | .close _ => inferInstanceAs (Decidable (_ → _))
  | .other _ => instDecidableTrue

end

def start (proc : HookProc) : PeerHook := ⟨proc, .init, fun _ => none⟩

variable {P P' : PeerHook} {a : Act}

theorem getpeer_of_none {s : Nat} (h : P.proc.streams.bySock s = none) :
    P.getpeer s = P.g_hp.peer s := by
  unfold getpeer
  rw [h]

theorem Apart.bySock (h : P.Apart) {s : Nat} (hd : P.dialed s ≠ none) :
    P.proc.streams.bySock s = none := by
  cases hs : P.proc.streams.bySock s with
  | none => rfl
  | some i =>
    obtain ⟨hs0, hu, hg⟩ := StreamTable.bySock_eq_some hs
    exact absurd (hg ▸ h i hu (hg ▸ hs0)) hd

/-- the table has every socket right, also the sockets that have a stream -/
structure Listed (P : PeerHook) : Prop where
  row : ∀ s ≠ 0, P.g_hp.peer s = P.dialed s
  apart : P.Apart

theorem Listed.right (h : P.Listed) : P.Right := by
  intro s hs hn
  rw [getpeer_of_none hn, h.row s hs]

/-- a tidy step keeps the table right -/
theorem Listed.step (h : P.Listed) (ha : P'.Apart) (ht : P.Tidy a) (hs : P.step a = some P') :
    P'.Listed := by
  refine ⟨?_, ha⟩
  cases a with
  | other proc =>
    rw [← Option.some.inj hs]
    exact h.row
  | connect os s sid dst =>
    rw [← Option.some.inj hs]
    cases hp : P.hairpins os s sid dst with
    | false => exact h.row
    | true =>
      intro s' hs'
      show (P.g_hp.remember s dst).peer s' = Function.update P.dialed s (some dst) s'
      by_cases he : s' = s
      · rw [he, Function.update_self]
        exact HpTable.peer_remember_self.mpr (ht hp (he ▸ hs'))
      · rw [Function.update_of_ne he, HpTable.peer_remember_other hs' he]
        exact h.row s' hs'
  | close s =>
    rw [← Option.some.inj hs]
    intro s' hs'
    show (P.g_hp.forget s).peer s' = Function.update P.dialed s none s'
    by_cases he : s' = s
    · rw [he, Function.update_self]
      exact (HpTable.peer_forget_self (he ▸ hs')).mpr (ht (he ▸ hs'))
    · rw [Function.update_of_ne he, HpTable.peer_forget_other hs' he]
      exact h.row s' hs'

/-- and a step that is not shows: its socket has no stream to be named by -/
theorem Listed.tidy (h : P.Listed) (ha : P'.Apart) (hr : P'.Right) (hs : P.step a = some P') :
    P.Tidy a := by
  cases a with
  | other proc => trivial
  | connect os s sid dst =>
    intro hp hs0
    have hP' : P' = { P with
        proc := { P.proc with streams := (P.proc.dtOnConnect os s sid dst).1 }
        g_hp := P.g_hp.remember s dst
        dialed := Function.update P.dialed s (some dst) } := by
      rw [← Option.some.inj hs, if_pos hp]
    have hd : P'.dialed s = some dst := by
      rw [hP']
      exact Function.update_self ..
    have hn := ha.bySock (s := s) (by rw [hd]; nofun)
    have hself := hr s hs0 hn
    rw [getpeer_of_none hn, hd, hP'] at hself
    exact HpTable.peer_remember_self.mp hself
  | close s =>
    intro hs0
    cases hp : P.g_hp.peer s with
    | none => exact fun i _ hi => absurd hi (HpTable.peer_eq_none.mp hp i)
    | some dst =>
      have hbefore := h.apart.bySock (s := s) (by rw [← h.row s hs0, hp]; nofun)
      have hclosed := StreamTable.onClose_missed hbefore
      have hn : P'.proc.streams.bySock s = none := by
        rw [← Option.some.inj hs]
        show (P.proc.streams.onClose s).bySock s = none
        unfold StreamTable.bySock at hbefore ⊢
        rw [hclosed]
        exact hbefore
      have hself := hr s hs0 hn
      rw [getpeer_of_none hn, ← Option.some.inj hs] at hself
      have hself : (P.g_hp.forget s).peer s = Function.update P.dialed s none s := hself
      rw [Function.update_self] at hself
      exact (HpTable.peer_forget_self hs0).mp hself

theorem listed_start {proc : HookProc} : (start proc).Listed := by
  refine ⟨fun s hs => ?_, fun _ _ _ => rfl⟩
  exact HpTable.peer_eq_none.mpr fun _ => hs.symm

/-- **The name of the peer.**  Along a run in which no socket that has dialed over loopback has a stream
as well, every socket without a stream shows the address that it dialed last, and a new socket none,
exactly when each dial finds a row and no socket is closed that has two. -/
theorem hairpin_peer_iff {proc : HookProc} {t : PeerHook} {tr : List (PeerHook × Act)}
    (h : Path step (start proc) tr t) (hapart : ∀ u ∈ visited tr t, u.Apart) :
    (∀ u ∈ visited tr t, u.Right) ↔ ∀ x ∈ tr, x.1.Tidy x.2 := by
  have hnext : ∀ x ∈ tr, ∀ u', x.1.step x.2 = some u' → u'.Apart :=
    fun x hx u' hu => hapart u' (h.next_visited hx hu)
  refine h.all_iff_ok_of (g := fun u a => ∀ u', u.step a = some u' → u'.Apart) hnext listed_start
    (fun _ hu => hu.right) ?_ ?_
  · intro u a u' hu hga hok hs
    exact hu.step (hga u' hs) hok hs
  · intro u a u' hu hga hno hs hr
    exact hno (hu.tidy (hga u' hs) hr hs)

/-- the loopback takes every dial -/
def openOs : HookOs := { HookProc.refusedOs SOCK_STREAM with loopback := fun _ => none }

/-- socket 7 is dialed again behind the row that socket 5 has left, and is closed -/
def dialedAgain : List Act :=
  [.connect openOs 5 1 ⟨0x0AC80002, 7777⟩, .connect openOs 7 2 ⟨0x0AC80002, 7777⟩, .close 5,
   .connect openOs 7 3 ⟨0x0AC80002, 7777⟩, .close 7]

set_option maxRecDepth 4000 in
theorem hairpin_dialedAgain : ∃ t, run step (start HookProc.island) dialedAgain = some t ∧
    ¬ ∀ u ∈ visited (trace step (start HookProc.island) dialedAgain) t, u.Right := by
  have hrun : ∀ t ∈ run step (start HookProc.island) dialedAgain,
      ∀ u ∈ visited (trace step (start HookProc.island) dialedAgain) t, u.Apart := by
    decide +kernel
  have hno : ¬ ∀ x ∈ trace step (start HookProc.island) dialedAgain, x.1.Tidy x.2 := by
    decide +kernel
  exact ⟨_, rfl, fun hr => hno ((hairpin_peer_iff (path_run rfl) (hrun _ rfl)).mp hr)⟩

end PeerHook

end ShadowLan
