import ShadowLan.Hook.DgramFifo

/-!
# Who gets a datagram

A scan asks for ports without the lock and compares later.  What it finds was true at some moment of
its call, since a life keeps its row and its type, a bound port stays, and a port that is presented
is presented for good; and a socket that has been on the port all the time is found.

* `Onward`            what a step leaves of a life that goes on;
* `Sighted`, `Due`    what a scan has found out, and whom it still has to come to;
* `Told`              the history behind a state;
* `bounded_fifo`      the promise, over every run of steady steps.
-/

namespace ShadowLan
namespace Queues
variable {s t : Queues} {tr : List (Queues × QueueAct)} {a : QueueAct}

/-! ## what a step leaves alone -/

structure Onward (s t : Queues) : Prop where
  /-- no life comes back -/
  back : ∀ n l, l < s.lives → t.lifeOf n = some l → s.lifeOf n = some l
  row : ∀ i l, (s.g_uq i).used = true → t.lifeOf (s.g_uq i).gsock = some l →
    (t.g_uq i).used = true ∧ (t.g_uq i).gsock = (s.g_uq i).gsock
  kind : ∀ n l, s.lifeOf n = some l → t.lifeOf n = some l → t.isDgram n = s.isDgram n
  /-- nothing happens to the ports of the row, or a port is presented for a bound socket, or a
  socket is bound -/
  ports : ∀ i l, (s.g_uq i).used = true → s.lifeOf (s.g_uq i).gsock = some l →
    t.lifeOf (s.g_uq i).gsock = some l →
    ((t.g_uq i).vport = (s.g_uq i).vport ∧
      t.boundPort (s.g_uq i).gsock = s.boundPort (s.g_uq i).gsock) ∨
    ((t.g_uq i).vport ≠ 0 ∧ s.boundPort (s.g_uq i).gsock ≠ 0 ∧
      t.boundPort (s.g_uq i).gsock = s.boundPort (s.g_uq i).gsock) ∨
    ((t.g_uq i).vport = (s.g_uq i).vport ∧ s.boundPort (s.g_uq i).gsock = 0)
  arrived : ∀ l m, m ∈ s.arrived l → m ∈ t.arrived l

/-- the sockets stay, and the rows in use keep their number and port -/
theorem Onward.of_rows (hsocks : t.socks = s.socks)
    (hrows : ∀ i, (s.g_uq i).used = true → (t.g_uq i).used = true ∧
      (t.g_uq i).gsock = (s.g_uq i).gsock ∧ (t.g_uq i).vport = (s.g_uq i).vport)
    (harr : ∀ l m, m ∈ s.arrived l → m ∈ t.arrived l) : Onward s t := by
  have hlife : ∀ n, t.lifeOf n = s.lifeOf n := fun n => by
    unfold lifeOf
    rw [hsocks]
  refine ⟨fun n l _ hl => (hlife n).symm.trans hl, fun i l hu _ => ?_, fun n l _ _ => ?_,
    fun i l hu _ _ => Or.inl ⟨(hrows i hu).2.2, ?_⟩, harr⟩
  · exact ⟨(hrows i hu).1, (hrows i hu).2.1⟩
  · unfold isDgram
    rw [hsocks]
  · unfold boundPort
    rw [hsocks]

theorem SameRows.onward (h : SameRows s t) (harr : ∀ l m, m ∈ s.arrived l → m ∈ t.arrived l) :
    Onward s t :=
  Onward.of_rows h.socks (fun i hu => ⟨(h.rows i).1.trans hu, (h.rows i).2⟩) harr

/-- a row in use stays as another is made -/
theorem create_keeps {n : Nat} {i : Fin DT_MAXUDP} (hu : (s.g_uq i).used = true) :
    (s.create n).1.g_uq i = s.g_uq i := by
  rcases create_cases s n with ⟨j, -, he⟩ | ⟨j, -, hfree, he⟩ | he
  · rw [he]
  · rw [he]
    refine setRow_of_ne _ ?_
    rintro rfl
    rw [hfree] at hu
    cases hu
  · rw [he]

theorem onward_create (s : Queues) (n : Nat) : Onward s (s.create n).1 :=
  Onward.of_rows rfl (fun i hu => by rw [create_keeps hu]; exact ⟨hu, rfl, rfl⟩) fun _ _ hm => hm

/-- the life that a number has with this socket -/
def lifeIn (k : Option Sock) : Option Nat := k.bind fun k => if k.live then some k.life else none

/-- a change of one number that keeps the life that it had, or ends it, or begins a new one -/
theorem Onward.of_sock (h : Inv s) {n : Nat} {k : Option Sock}
    (hsocks : t.socks = Function.update s.socks n k) (harr : t.arrived = s.arrived)
    (hlife : ∀ l, lifeIn k = some l → l < s.lives →
      s.lifeOf n = some l ∧ k.elim false Sock.dgram = s.isDgram n ∧
        (s.boundPort n = 0 ∨ (k.elim (-1) fun k => (k.port : Int)) = s.boundPort n))
    (hrows : ∀ i, (s.g_uq i).used = true →
      t.g_uq i = s.g_uq i ∨ ((s.g_uq i).gsock = n ∧ lifeIn k = none)) : Onward s t := by
  have hself : t.socks n = k := by
    rw [hsocks]
    exact Function.update_self _ _ _
  have hown : t.lifeOf n = lifeIn k := by
    unfold lifeOf
    rw [hself]
    rfl
  have hother : ∀ m, m ≠ n → t.lifeOf m = s.lifeOf m ∧ t.isDgram m = s.isDgram m ∧
      t.boundPort m = s.boundPort m := by
    intro m hm
    have hsock : t.socks m = s.socks m := by
      rw [hsocks]
      exact Function.update_of_ne hm _ _
    unfold lifeOf isDgram boundPort
    rw [hsock]
    exact ⟨rfl, rfl, rfl⟩
  have hkept : ∀ i l, (s.g_uq i).used = true → t.lifeOf (s.g_uq i).gsock = some l →
      t.g_uq i = s.g_uq i := by
    intro i l hu hl
    rcases hrows i hu with hi | ⟨hi, hno⟩
    · exact hi
    · rw [hi, hown, hno] at hl
      cases hl
  constructor
  case back =>
    intro m l hlt hl
    by_cases hm : m = n
    · rw [hm, hown] at hl
      rw [hm]
      exact (hlife l hl hlt).1
    · exact (hother m hm).1.symm.trans hl
  case row =>
    intro i l hu hl
    rw [hkept i l hu hl]
    exact ⟨hu, rfl⟩
  case kind =>
    intro m l hs hl
    by_cases hm : m = n
    · rw [hm, hown] at hl
      obtain ⟨-, hd, -⟩ := hlife l hl (h.lifeOf_lt hs)
      rw [hm, ← hd]
      unfold isDgram
      rw [hself]
    · exact (hother m hm).2.1
  case ports =>
    intro i l hu hs hl
    have hv : (t.g_uq i).vport = (s.g_uq i).vport := by rw [hkept i l hu hl]
    by_cases hm : (s.g_uq i).gsock = n
    · rw [hm, hown] at hl
      rw [hm]
      rcases (hlife l hl (h.lifeOf_lt hs)).2.2 with h0 | hp
      · exact Or.inr (Or.inr ⟨hv, h0⟩)
      · refine Or.inl ⟨hv, ?_⟩
        rw [← hp]
        unfold boundPort
        rw [hself]
    · exact Or.inl ⟨hv, (hother _ hm).2.2⟩
  case arrived =>
    intro l m hm
    rw [harr]
    exact hm

/-- a port is presented for a number that has a row -/
theorem Onward.of_alias {j : Fin DT_MAXUDP} {n v : Nat}
    (hj : (s.g_uq j).used = true ∧ (s.g_uq j).gsock = n) (hv : v ≠ 0)
    (hbound : (s.lifeOf n).isSome = true → s.boundPort n ≠ 0) :
    Onward s (s.setRow j { s.g_uq j with vport := v }) := by
  refine ⟨fun _ _ _ hl => hl, fun i l hu _ => ?_, fun _ _ _ _ => rfl, fun i l hu hl _ => ?_,
    fun _ _ hm => hm⟩
  · by_cases hi : i = j
    · rw [hi, setRow_self]
      exact ⟨hj.1, rfl⟩
    · rw [setRow_of_ne _ hi]
      exact ⟨hu, rfl⟩
  · by_cases hi : i = j
    · rw [hi, hj.2] at hl
      rw [hi, setRow_self, hj.2]
      exact Or.inr (Or.inl ⟨hv, hbound (by rw [hl]; rfl), rfl⟩)
    · rw [setRow_of_ne _ hi]
      exact Or.inl ⟨rfl, rfl⟩

theorem Onward.after_create {n : Nat} (h : Onward (s.create n).1 t) : Onward s t := by
  have hk := fun (i : Fin DT_MAXUDP) (hu : (s.g_uq i).used = true) => create_keeps (n := n) hu
  refine ⟨h.back, fun i l hu hl => ?_, h.kind, fun i l hu hs hl => ?_, h.arrived⟩
  · have hrow := h.row i l (by rw [hk i hu]; exact hu) (by rw [hk i hu]; exact hl)
    rw [hk i hu] at hrow
    exact hrow
  · have hp := h.ports i l (by rw [hk i hu]; exact hu) (by rw [hk i hu]; exact hs)
      (by rw [hk i hu]; exact hl)
    rw [hk i hu] at hp
    exact hp

theorem sameRows_pop (s : Queues) (n blen : Nat) : SameRows s (s.pop n blen) := by
  have hput : ∀ j, SameRows s (s.setRow j (s.g_uq j).pop) := by
    refine fun j => ⟨rfl, rfl, rfl, fun i => ?_⟩
    by_cases hi : i = j
    · rw [hi, setRow_self]
      exact ⟨rfl, rfl, rfl⟩
    · rw [setRow_of_ne _ hi]
      exact ⟨rfl, rfl, rfl⟩
  unfold pop
  cases s.entry n with
  | none => exact ⟨rfl, rfl, rfl, fun _ => ⟨rfl, rfl, rfl⟩⟩
  | some j =>
    dsimp only
    cases (s.g_uq j).h with
    | nil => exact ⟨rfl, rfl, rfl, fun _ => ⟨rfl, rfl, rfl⟩⟩
    | cons m r =>
      cases s.lifeOf n with
      | none => exact hput j
      | some l => exact ⟨(hput j).socks, (hput j).calls, (hput j).scans, (hput j).rows⟩

theorem pop_arrived (s : Queues) (n blen : Nat) : (s.pop n blen).arrived = s.arrived := by
  unfold pop
  cases s.entry n with
  | none => rfl
  | some j =>
    dsimp only
    cases (s.g_uq j).h with
    | nil => rfl
    | cons m r => cases s.lifeOf n <;> rfl

/-- the rows and sockets after a delivery -/
theorem deliver_sameRows (s : Queues) (k : Nat) (c : Scan) (mem : Bool) :
    (s.deliver k c mem).socks = s.socks ∧ (s.deliver k c mem).calls = s.calls ∧
      ∀ i, ((s.deliver k c mem).g_uq i).used = (s.g_uq i).used ∧
        ((s.deliver k c mem).g_uq i).gsock = (s.g_uq i).gsock ∧
        ((s.deliver k c mem).g_uq i).vport = (s.g_uq i).vport := by
  unfold deliver
  dsimp only
  cases s.target c with
  | none => exact ⟨rfl, rfl, fun _ => ⟨rfl, rfl, rfl⟩⟩
  | some j =>
    have hs := sameRows_offer s (s.forLife c) j (c.msg k) mem
    exact ⟨hs.socks, hs.calls, hs.rows⟩

/-- what has come after a delivery -/
theorem deliver_arrived {k : Nat} {c : Scan} {mem : Bool} {l : Nat} {m : Msg} :
    m ∈ (s.deliver k c mem).arrived l ↔ m ∈ s.arrived l ∨
      ((s.target c).isSome = true ∧ s.forLife c = some l ∧ m = c.msg k) := by
  unfold deliver
  dsimp only
  cases s.target c with
  | none => simp
  | some j =>
    show m ∈ ((s.arrive (s.forLife c) (c.msg k)).offer (s.forLife c) j (c.msg k) mem).arrived l ↔ _
    rw [offer_arrived, arrive_mem]
    simp

/-- a steady push brings its datagram to the life of its number -/
theorem Inv.push_arrived (h : Inv s) {n : Nat} {d : Dgram} {mem : Bool}
    (hok : Steady s (.push n d mem)) {l : Nat} {m : Msg} : m ∈ (s.push n d mem).arrived l ↔
      m ∈ s.arrived l ∨ (s.lifeOf n = some l ∧ m = ⟨s.calls, .sock n, d⟩) := by
  obtain ⟨hlive, j, hj, -⟩ := hok
  obtain ⟨l', hl'⟩ := Option.isSome_iff_exists.mp hlive
  rw [h.push_eq hl' hj, offer_arrived, arrive_mem, hl']
  exact Iff.rfl

/-- **One step.**  A steady step leaves the lives that go on their rows, types and ports. -/
theorem step_onward (h : Inv s) (hok : Steady s a) (hst : step s a = some t) : Onward s t := by
  cases a with
  | socket n dgram =>
    obtain ⟨hno, hst⟩ := Option.ite_none_left_eq_some.mp hst
    cases hst
    refine Onward.of_sock h (n := n) rfl rfl (fun l hl hlt => ?_) fun _ _ => Or.inl rfl
    cases hl
    exact absurd hlt (lt_irrefl _)
  | bind n port =>
    simp only [step] at hst
    split at hst
    · cases hst
    · rename_i k hk
      obtain ⟨h0, hst⟩ := Option.ite_none_left_eq_some.mp hst
      cases hst
      refine Onward.of_sock h (n := n) rfl rfl (fun l hl _ => ⟨?_, ?_, Or.inl ?_⟩)
        fun _ _ => Or.inl rfl
      · unfold lifeOf
        rw [hk]
        exact hl
      · unfold isDgram
        rw [hk]
        rfl
      · unfold boundPort
        rw [hk]
        exact congrArg Nat.cast (not_not.mp h0)
  | ensure n =>
    cases hst
    exact onward_create s n
  | bindAlias n v =>
    obtain ⟨hv, hst⟩ := Option.ite_none_left_eq_some.mp hst
    rw [← Option.some.inj hst]
    cases hj : (s.create n).2 with
    | none => exact onward_create s n
    | some j => exact (Onward.of_alias (create_spec hj) hv hok).after_create
  | push n d mem =>
    cases hst
    have harr : ∀ l m, m ∈ s.arrived l → m ∈ (s.push n d mem).arrived l := fun l m hm =>
      (h.push_arrived hok).mpr (Or.inl hm)
    obtain ⟨hlive, j, hj, -⟩ := hok
    obtain ⟨l, hl⟩ := Option.isSome_iff_exists.mp hlive
    rw [h.push_eq hl hj] at harr ⊢
    have hs := sameRows_offer { (s.create n).1 with calls := s.calls + 1 } (some l) j
      ⟨s.calls, .sock n, d⟩ mem
    refine Onward.of_rows hs.socks (fun i hu => ?_) harr
    have hi : ({ (s.create n).1 with calls := s.calls + 1 } : Queues).g_uq i = s.g_uq i :=
      create_keeps hu
    rw [(hs.rows i).1, (hs.rows i).2.1, (hs.rows i).2.2, hi]
    exact ⟨hu, rfl, rfl⟩
  | pop n blen =>
    cases hst
    exact (sameRows_pop s n blen).onward fun l m hm => by rw [pop_arrived]; exact hm
  | onClose n =>
    cases hst
    have hno : lifeIn ((s.socks n).map Sock.shut) = none := by cases s.socks n <;> rfl
    refine Onward.of_sock h (n := n) (k := (s.socks n).map Sock.shut) rfl ?_ (fun l hl => ?_)
      fun i hu => ?_
    · show ((s.entry n).elim s fun j => s.setRow j (s.g_uq j).free).arrived = s.arrived
      cases s.entry n <;> rfl
    · rw [hno] at hl
      cases hl
    · show ((s.entry n).elim s fun j => s.setRow j (s.g_uq j).free).g_uq i = s.g_uq i ∨ _
      cases he : s.entry n with
      | none => exact Or.inl rfl
      | some j =>
        by_cases hi : i = j
        · rw [hi]
          exact Or.inr ⟨(entry_some he).2, hno⟩
        · exact Or.inl (setRow_of_ne _ hi)
  | close n =>
    simp only [step] at hst
    split at hst
    · cases hst
    · obtain ⟨-, hst⟩ := Option.ite_none_left_eq_some.mp hst
      cases hst
      exact Onward.of_sock h (n := n) rfl rfl (fun _ hl => by cases hl) fun _ _ => Or.inl rfl
  | directIn gport ip raw =>
    simp only [step, Option.some.injEq] at hst
    rw [← hst]
    cases directSrc gport ip raw with
    | none => exact Onward.of_rows rfl (fun _ hu => ⟨hu, rfl, rfl⟩) fun _ _ hm => hm
    | some src => exact Onward.of_rows rfl (fun _ hu => ⟨hu, rfl, rfl⟩) fun _ _ hm => hm
  | bcastIn virt fakeip port sport raw =>
    cases hst
    exact Onward.of_rows rfl (fun _ hu => ⟨hu, rfl, rfl⟩) fun _ _ hm => hm
  | ask k =>
    simp only [step] at hst
    split at hst
    · cases hst
    · obtain ⟨-, hst⟩ := Option.ite_none_right_eq_some.mp hst
      cases hst
      exact Onward.of_rows rfl (fun _ hu => ⟨hu, rfl, rfl⟩) fun _ _ hm => hm
  | deliver k mem =>
    simp only [step] at hst
    split at hst
    · cases hst
    · rename_i c hc
      obtain ⟨-, hst⟩ := Option.ite_none_left_eq_some.mp hst
      cases hst
      obtain ⟨hsocks, -, hrows⟩ := deliver_sameRows s k c mem
      exact Onward.of_rows hsocks (fun i hu => ⟨(hrows i).1.trans hu, (hrows i).2⟩)
        fun l m hm => deliver_arrived.mpr (Or.inl hm)

/-! ## what a scan has seen -/

theorem during_snoc {k : Nat} {u : Queues} : During (tr ++ [(s, a)]) k u ↔
    During tr k u ∨ (u = s ∧ (((makes a).isSome ∧ s.calls = k) ∨ (s.scans k).isSome)) := by
  constructor
  · rintro ⟨b, hb, hk⟩
    rcases List.mem_append.mp hb with hb | hb
    · exact Or.inl ⟨b, hb, hk⟩
    · cases List.mem_singleton.mp hb
      exact Or.inr ⟨rfl, hk⟩
  · rintro (⟨b, hb, hk⟩ | ⟨rfl, hk⟩)
    · exact ⟨b, List.mem_append_left _ hb, hk⟩
    · exact ⟨a, List.mem_append_right _ (List.mem_singleton.mpr rfl), hk⟩

/-- a state of the call up to now -/
def SoFar (tr : List (Queues × QueueAct)) (s : Queues) (k : Nat) (u : Queues) : Prop :=
  During tr k u ∨ (u = s ∧ (s.scans k).isSome)

theorem SoFar.during {k : Nat} {u : Queues} (h : SoFar tr s k u) : During (tr ++ [(s, a)]) k u :=
  during_snoc.mpr (h.imp id fun h => ⟨h.1, Or.inr h.2⟩)

/-- the life was on the port at some moment of the call -/
def Seen (tr : List (Queues × QueueAct)) (s : Queues) (k l : Nat) (p : Int) : Prop :=
  ∃ u, SoFar tr s k u ∧ ∃ j, u.Listens j l p

/-- the life was on the port all the time of the call -/
def Loyal (tr : List (Queues × QueueAct)) (s : Queues) (k l : Nat) (p : Int) : Prop :=
  ∀ u, SoFar tr s k u → ∃ j, u.Listens j l p

theorem Seen.later {k l : Nat} {p : Int} (h : Seen tr s k l p) : Seen (tr ++ [(s, a)]) t k l p := by
  obtain ⟨u, hu, hp⟩ := h
  exact ⟨u, Or.inl hu.during, hp⟩

theorem Seen.now {k l : Nat} {p : Int} {j : Fin DT_MAXUDP} (hk : (s.scans k).isSome = true)
    (h : s.Listens j l p) : Seen tr s k l p := ⟨s, Or.inr ⟨rfl, hk⟩, j, h⟩

theorem Loyal.before {k l : Nat} {p : Int} (h : Loyal (tr ++ [(s, a)]) t k l p) :
    Loyal tr s k l p := fun u hu => h u (Or.inl hu.during)

/-- What a scan has found out about the port of the life that it brings its datagram to: the life was
on the port at some moment of the call. -/
structure Sighted (tr : List (Queues × QueueAct)) (s : Queues) (k : Nat) (c : Scan) : Prop where
  looked : c.stage = .looked → ∀ l, s.forLife c = some l → c.direct = true →
    if c.aliased ≠ 0 then Seen tr s k l c.aliased
    else Seen tr s k l (s.boundPort c.gs) ∧
      ((s.g_uq c.row).vport ≠ 0 → s.boundPort c.gs ≠ 0)
  asked : ∀ bp dgram, c.stage = .asked bp dgram → ∀ l, s.forLife c = some l →
    (c.direct = true ∨ (s.g_uq c.row).vport = 0) → Seen tr s k l bp

/-- Whom a scan still has to come to: a life that was on the port all the time is not behind it, and
at its row the answers are right. -/
structure Due (tr : List (Queues × QueueAct)) (s : Queues) (k : Nat) (c : Scan) : Prop where
  ahead : ∀ l j, Loyal tr s k l c.port → s.Listens j l c.port → c.msg k ∉ s.arrived l → c.row ≤ j
  own : ∀ l, Loyal tr s k l c.port → s.Listens c.row l c.port →
    c.life = some l ∧ c.gs = (s.g_uq c.row).gsock
  looked : c.stage = .looked → ∀ l, Loyal tr s k l c.port → s.Listens c.row l c.port →
    c.direct = true → (if c.aliased ≠ 0 then (c.aliased : Int) else s.boundPort c.gs) = c.port
  asked : ∀ bp dgram, c.stage = .asked bp dgram → ∀ l, Loyal tr s k l c.port →
    s.Listens c.row l c.port →
    dgram = true ∧ (c.direct = true ∨ (s.g_uq c.row).vport = 0 → bp = c.port)

/-- the life that a scan brings its datagram to has the row that it let go of the lock at -/
theorem Inv.forLife_listens (h : Inv s) {k l : Nat} {c : Scan} (hc : s.scans k = some c)
    (hl : s.forLife c = some l) : (s.g_uq c.row).gsock = c.gs ∧
      s.Listens c.row l (s.presents c.row) := by
  obtain ⟨hlife, hgs, hd⟩ := forLife_some.mp hl
  obtain ⟨-, hu, hg⟩ := (h.scans k c hc).2.keeps l hlife c.gs hgs
  exact ⟨hg, hu, by rw [hg]; exact hgs, by rw [hg]; exact hd, rfl⟩

/-- the life of a scan was its life before the step -/
theorem Onward.forLife_back (ho : Onward s t) (h : Inv s) {k l : Nat} {c : Scan}
    (hc : s.scans k = some c) (hl : t.forLife c = some l) : s.forLife c = some l := by
  obtain ⟨hlife, hgs, hd⟩ := forLife_some.mp hl
  have hlt := (h.scans k c hc).2.known l hlife
  have hback := ho.back c.gs l hlt hgs
  exact forLife_some.mpr ⟨hlife, hback, (ho.kind c.gs l hback hgs).symm.trans hd⟩

/-- what a scan has seen stays seen -/
theorem Sighted.later {k : Nat} {c : Scan} (hs : Sighted tr s k c) (h : Inv s) (ht : Inv t)
    (ho : Onward s t) (hc : s.scans k = some c) (hct : t.scans k = some c) :
    Sighted (tr ++ [(s, a)]) t k c := by
  have hports : ∀ l, t.forLife c = some l →
      ((t.g_uq c.row).vport = (s.g_uq c.row).vport ∧ t.boundPort c.gs = s.boundPort c.gs) ∨
      ((t.g_uq c.row).vport ≠ 0 ∧ s.boundPort c.gs ≠ 0 ∧ t.boundPort c.gs = s.boundPort c.gs) ∨
      ((t.g_uq c.row).vport = (s.g_uq c.row).vport ∧ s.boundPort c.gs = 0) := by
    intro l hl
    obtain ⟨hg, hlist⟩ := h.forLife_listens hc (ho.forLife_back h hc hl)
    obtain ⟨-, hgs, -⟩ := forLife_some.mp hl
    have hp := ho.ports c.row l hlist.used hlist.live (by rw [hg]; exact hgs)
    rw [hg] at hp
    exact hp
  constructor
  · intro hst l hl hd
    have hold := hs.looked hst l (ho.forLife_back h hc hl) hd
    split
    next ha =>
      rw [if_pos ha] at hold
      exact hold.later
    next ha =>
      rw [if_neg ha] at hold
      obtain ⟨hseen, hv⟩ := hold
      rcases hports l hl with ⟨hvp, hbp⟩ | ⟨-, hne, hbp⟩ | ⟨hvp, h0⟩
      · rw [hvp, hbp]
        exact ⟨hseen.later, hv⟩
      · rw [hbp]
        exact ⟨hseen.later, fun _ => hne⟩
      · -- a socket without a presented port is bound
        have hv0 : (t.g_uq c.row).vport = 0 := by
          rw [hvp]
          by_contra hne
          exact hv hne h0
        obtain ⟨hg, hlist⟩ := ht.forLife_listens hct hl
        have hpres : t.presents c.row = t.boundPort c.gs := by
          unfold presents
          rw [if_neg (not_not.mpr hv0), hg]
        rw [hpres] at hlist
        exact ⟨Seen.now (by rw [hct]; rfl) hlist, fun hne => absurd hv0 hne⟩
  · intro bp dgram hst l hl hd
    have hold := hs.asked bp dgram hst l (ho.forLife_back h hc hl)
    rcases hd with hd | hv0
    · exact (hold (Or.inl hd)).later
    · rcases hports l hl with ⟨hvp, -⟩ | ⟨hne, -, -⟩ | ⟨hvp, -⟩
      · exact (hold (Or.inr (hvp.symm.trans hv0))).later
      · exact absurd hv0 hne
      · exact (hold (Or.inr (hvp.symm.trans hv0))).later

/-- a life that is on the port all the time has kept its row -/
theorem Loyal.row {k l : Nat} {p : Int} {j : Fin DT_MAXUDP}
    (hl : Loyal (tr ++ [(s, a)]) t k l p) (h : Inv s) (ht : Inv t) (ho : Onward s t)
    (hk : (s.scans k).isSome = true) (hj : t.Listens j l p) :
    s.Listens j l p ∧ (t.g_uq j).gsock = (s.g_uq j).gsock := by
  obtain ⟨i, hi⟩ := hl.before s (Or.inr ⟨rfl, hk⟩)
  have hback := ho.back _ l (h.lifeOf_lt hi.live) hj.live
  have hsame : (t.g_uq j).gsock = (s.g_uq i).gsock := h.lives_apart hback hi.live
  obtain ⟨hu, hg⟩ := ho.row i l hi.used (by rw [← hsame]; exact hj.live)
  have hij : i = j := ht.one i j hu hj.used (hg.trans hsame.symm)
  rw [← hij] at hsame ⊢
  exact ⟨hi, hsame⟩

theorem Due.later {k : Nat} {c : Scan} (hs : Due tr s k c) (h : Inv s) (ht : Inv t)
    (ho : Onward s t) (hc : s.scans k = some c) : Due (tr ++ [(s, a)]) t k c := by
  have hk : (s.scans k).isSome = true := by rw [hc]; rfl
  have hown : ∀ l, Loyal (tr ++ [(s, a)]) t k l c.port → t.Listens c.row l c.port →
      s.Listens c.row l c.port ∧ (t.g_uq c.row).gsock = c.gs ∧
        c.gs = (s.g_uq c.row).gsock ∧ c.life = some l := by
    intro l hl hlist
    obtain ⟨hold, hg⟩ := hl.row h ht ho hk hlist
    obtain ⟨hlife, hgs⟩ := hs.own l hl.before hold
    exact ⟨hold, hg.trans hgs.symm, hgs, hlife⟩
  constructor
  · intro l j hl hlist hno
    exact hs.ahead l j hl.before (hl.row h ht ho hk hlist).1 fun hin => hno (ho.arrived l _ hin)
  · intro l hl hlist
    obtain ⟨-, hg, -, hlife⟩ := hown l hl hlist
    exact ⟨hlife, hg.symm⟩
  · intro hst l hl hlist hd
    obtain ⟨hold, hg, hgs, -⟩ := hown l hl hlist
    have hp := hs.looked hst l hl.before hold hd
    by_cases ha : c.aliased ≠ 0
    · rw [if_pos ha] at hp ⊢
      exact hp
    · rw [if_neg ha] at hp ⊢
      have hports := ho.ports c.row l hold.used hold.live (by rw [← hgs, ← hg]; exact hlist.live)
      rw [← hgs] at hports
      have hpres := hlist.port
      unfold presents at hpres
      rw [hg] at hpres
      rcases hports with ⟨-, hbp⟩ | ⟨-, -, hbp⟩ | ⟨-, h0⟩
      · exact hbp.trans hp
      · exact hbp.trans hp
      · -- the port is 0, which no bind presents
        rw [h0] at hp
        by_cases hv : (t.g_uq c.row).vport ≠ 0
        · rw [if_pos hv, ← hp] at hpres
          exact absurd (Int.natCast_eq_zero.mp hpres) hv
        · rw [if_neg hv] at hpres
          exact hpres
  · intro bp dgram hst l hl hlist
    obtain ⟨hold, hg, hgs, -⟩ := hown l hl hlist
    obtain ⟨hd, hp⟩ := hs.asked bp dgram hst l hl.before hold
    refine ⟨hd, fun hor => hp (hor.imp id fun hv0 => ?_)⟩
    rcases ho.ports c.row l hold.used hold.live (by rw [← hgs, ← hg]; exact hlist.live) with
      ⟨hvp, -⟩ | ⟨hne, -, -⟩ | ⟨hvp, -⟩
    · exact hvp.symm.trans hv0
    · exact absurd hv0 hne
    · exact hvp.symm.trans hv0

/-! ## a scan begins, asks and goes on -/

theorem look_spec {direct : Bool} {port i : Nat} {dg : Dgram} {c : Scan}
    (h : s.look direct port dg i = some c) : s.nextRow i = some c.row ∧
      c = ⟨direct, port, dg, c.row, (s.g_uq c.row).gsock, (s.g_uq c.row).vport,
        s.lifeOf (s.g_uq c.row).gsock, .looked⟩ := by
  obtain ⟨j, hj, rfl⟩ := Option.map_eq_some_iff.mp h
  exact ⟨hj, rfl⟩

/-- a row in use is found by a scan that has not passed it -/
theorem Inv.nextRow_le (h : Inv s) {i : Nat} {j : Fin DT_MAXUDP} (hij : i ≤ j.val)
    (hu : (s.g_uq j).used = true) : ∃ r ≤ j, s.nextRow i = some r := by
  refine first_isSome (T := fun j : Fin DT_MAXUDP => (j.val, s.g_uq j)) ?_
  have hopen := (h.tidy j hu).1
  simp [hij, hu, hopen]

theorem sighted_look {direct : Bool} {port i k : Nat} {dg : Dgram} {c : Scan}
    (hc : s.look direct port dg i = some c) (hk : (s.scans k).isSome = true) :
    Sighted tr s k c := by
  obtain ⟨hrow, hcs⟩ := look_spec hc
  have hu := (nextRow_spec hrow).2
  have hgs : c.gs = (s.g_uq c.row).gsock := by rw [hcs]
  have hal : c.aliased = (s.g_uq c.row).vport := by rw [hcs]
  have hstage : c.stage = .looked := by rw [hcs]
  constructor
  · intro _ l hl _
    obtain ⟨-, hlife, hd⟩ := forLife_some.mp hl
    have hnow : Seen tr s k l (s.presents c.row) :=
      Seen.now hk ⟨hu, by rw [← hgs]; exact hlife, by rw [← hgs]; exact hd, rfl⟩
    unfold presents at hnow
    rw [← hal, ← hgs] at hnow
    by_cases ha : c.aliased ≠ 0
    · rw [if_pos ha] at hnow ⊢
      exact hnow
    · rw [if_neg ha] at hnow ⊢
      exact ⟨hnow, fun hv => absurd (hal ▸ hv) ha⟩
  · intro bp dgram hasked
    rw [hstage] at hasked
    cases hasked

theorem Inv.due_look (h : Inv s) {direct : Bool} {port i k : Nat} {dg : Dgram} {c : Scan}
    (hc : s.look direct port dg i = some c)
    (hahead : ∀ l j, Loyal tr s k l port → s.Listens j l port →
      ⟨k, .port port, dg⟩ ∉ s.arrived l → i ≤ j.val) : Due tr s k c := by
  obtain ⟨hrow, hcs⟩ := look_spec hc
  have hgs : c.gs = (s.g_uq c.row).gsock := by rw [hcs]
  have hal : c.aliased = (s.g_uq c.row).vport := by rw [hcs]
  have hlife : c.life = s.lifeOf (s.g_uq c.row).gsock := by rw [hcs]
  have hstage : c.stage = .looked := by rw [hcs]
  have hport : c.port = port := by rw [hcs]
  have hdg : c.dg = dg := by rw [hcs]
  constructor
  · intro l j hl hj hno
    rw [hport] at hl hj
    have hmsg : c.msg k = ⟨k, .port port, dg⟩ := by rw [Scan.msg, hport, hdg]
    obtain ⟨r, hr, hnext⟩ := h.nextRow_le (hahead l j hl hj (hmsg ▸ hno)) hj.used
    cases hrow.symm.trans hnext
    exact hr
  · intro l _ hj
    exact ⟨hlife.trans hj.live, hgs⟩
  · intro _ l _ hj _
    have hp := hj.port
    unfold presents at hp
    rw [hal, hgs]
    exact hp
  · intro bp dgram hasked
    rw [hstage] at hasked
    cases hasked

/-- the state after a scan has asked -/
def asked (s : Queues) (k : Nat) (c : Scan) : Queues :=
  { s with scans := Function.update s.scans k (some (s.ask c)) }

theorem Sighted.ask {k : Nat} {c : Scan} (hs : Sighted tr s k c) (h : Inv s)
    (hc : s.scans k = some c) (hst : c.stage = .looked) :
    Sighted (tr ++ [(s, a)]) (s.asked k c) k (s.ask c) := by
  have hk : (s.scans k).isSome = true := by rw [hc]; rfl
  constructor
  · intro hlooked
    cases hlooked
  · intro bp dgram hasked l hl hor
    cases hasked
    have hl : s.forLife c = some l := hl
    by_cases hd : c.direct = true
    · have hold := hs.looked hst l hl hd
      by_cases ha : c.aliased ≠ 0
      · rw [if_pos ha] at hold
        rw [if_pos ⟨hd, ha⟩]
        exact hold.later
      · rw [if_neg ha] at hold
        rw [if_neg fun hno => ha hno.2]
        exact hold.1.later
    · rw [if_neg fun hno => hd hno.1]
      have hv0 : (s.g_uq c.row).vport = 0 := hor.resolve_left hd
      obtain ⟨hg, hlist⟩ := h.forLife_listens hc hl
      have hpres : s.presents c.row = s.boundPort c.gs := by
        unfold presents
        rw [if_neg (not_not.mpr hv0), hg]
      rw [hpres] at hlist
      exact (Seen.now hk hlist).later

theorem Due.ask {k : Nat} {c : Scan} (hs : Due tr s k c) (hst : c.stage = .looked) :
    Due (tr ++ [(s, a)]) (s.asked k c) k (s.ask c) := by
  constructor
  · intro l j hl hj hno
    exact hs.ahead l j hl.before ⟨hj.used, hj.live, hj.dgram, hj.port⟩ hno
  · intro l hl hj
    exact hs.own l hl.before ⟨hj.used, hj.live, hj.dgram, hj.port⟩
  · intro hlooked
    cases hlooked
  · intro bp dgram hasked l hl hj
    cases hasked
    have hj : s.Listens c.row l c.port := ⟨hj.used, hj.live, hj.dgram, hj.port⟩
    obtain ⟨-, hgs⟩ := hs.own l hl.before hj
    refine ⟨by rw [hgs]; exact hj.dgram, fun hor => ?_⟩
    by_cases hd : c.direct = true
    · have hp := hs.looked hst l hl.before hj hd
      by_cases ha : c.aliased ≠ 0
      · rw [if_pos ha] at hp
        rw [if_pos ⟨hd, ha⟩]
        exact hp
      · rw [if_neg ha] at hp
        rw [if_neg fun hno => ha hno.2]
        exact hp
    · rw [if_neg fun hno => hd hno.1, hgs]
      have hv0 : (s.g_uq c.row).vport = 0 := hor.resolve_left hd
      have hp := hj.port
      unfold presents at hp
      rw [if_neg (not_not.mpr hv0)] at hp
      exact hp

/-- a scan that comes back to the row of a life that was on the port all the time brings it its
datagram -/
theorem Due.delivers {k l : Nat} {c : Scan} {mem : Bool} (hs : Due tr s k c) (h : Inv s)
    (hst : c.stage ≠ .looked) (hl : Loyal tr s k l c.port) (hj : s.Listens c.row l c.port) :
    c.msg k ∈ (s.deliver k c mem).arrived l := by
  obtain ⟨hlife, hgs⟩ := hs.own l hl hj
  cases hstage : c.stage with
  | looked => exact absurd hstage hst
  | asked bp dgram =>
    obtain ⟨hd, hp⟩ := hs.asked bp dgram hstage l hl hj
    refine deliver_arrived.mpr (Or.inr ⟨?_, forLife_some.mpr ⟨hlife, ?_, ?_⟩, rfl⟩)
    · unfold target
      rw [hstage]
      dsimp only
      by_cases hdirect : c.direct = true
      · rw [if_pos hdirect, if_pos ⟨hj.used, (h.tidy _ hj.used).1, hd, hp (Or.inl hdirect)⟩]
        rfl
      · rw [if_neg hdirect]
        -- the number still has its row
        have hentry : s.entry c.gs = some c.row := by
          cases he : s.entry c.gs with
          | none => exact absurd hgs.symm (entry_none he c.row hj.used)
          | some r =>
            obtain ⟨hu, hg⟩ := entry_some he
            rw [h.one r c.row hu hj.used (hg.trans hgs)]
        rw [hentry]
        have hmatch : (if (s.g_uq c.row).vport ≠ 0 then ((s.g_uq c.row).vport : Int) else bp) =
            c.port := by
          by_cases hv : (s.g_uq c.row).vport ≠ 0
          · have hpres := hj.port
            unfold presents at hpres
            rw [if_pos hv] at hpres ⊢
            exact hpres
          · rw [if_neg hv]
            exact hp (Or.inr (not_not.mp hv))
        rw [Option.filter_some, if_pos (decide_eq_true hmatch)]
        rfl
    · rw [hgs]
      exact hj.live
    · rw [hgs]
      exact hj.dgram

/-- what a scan brings to a life was meant for it -/
theorem Sighted.meant {k l : Nat} {c : Scan} (hs : Sighted tr s k c) (h : Inv s)
    (hc : s.scans k = some c) (htarget : (s.target c).isSome = true) (hl : s.forLife c = some l) :
    Seen tr s k l c.port := by
  have hk : (s.scans k).isSome = true := by rw [hc]; rfl
  obtain ⟨j, hj⟩ := Option.isSome_iff_exists.mp htarget
  obtain ⟨hrow, -⟩ := h.target_own hc hj hl
  obtain ⟨hg, hlist⟩ := h.forLife_listens hc hl
  unfold target at hj
  split at hj
  · cases hj
  · rename_i bp dgram hstage
    have hseen := hs.asked bp dgram hstage l hl
    split at hj
    next hdirect =>
      obtain ⟨⟨-, -, -, hbp⟩, -⟩ := Option.ite_none_right_eq_some.mp hj
      rw [← hbp]
      exact hseen (Or.inl hdirect)
    next =>
      have hmatch := of_decide_eq_true (Option.filter_eq_some_iff.mp hj).2
      rw [hrow] at hmatch
      by_cases hv : (s.g_uq c.row).vport ≠ 0
      · rw [if_pos hv] at hmatch
        have hpres : s.presents c.row = c.port := by
          unfold presents
          rw [if_pos hv]
          exact hmatch
        rw [hpres] at hlist
        exact Seen.now hk hlist
      · rw [if_neg hv] at hmatch
        rw [← hmatch]
        exact hseen (Or.inr (not_not.mp hv))

/-! ## the history -/

/-- the history behind a state -/
structure Told (tr : List (Queues × QueueAct)) (s : Queues) : Prop where
  past : ∀ x ∈ tr, (makes x.2).isSome = true → x.1.calls < s.calls
  made : ∀ k c, s.scans k = some c →
    ∃ x ∈ tr, x.1.calls = k ∧ makes x.2 = some (.port c.port, c.dg)
  only : ∀ k c, s.scans k = some c → ∀ x ∈ tr, x.1.calls = k → ∀ d, makes x.2 = some d →
    d = (.port c.port, c.dg)
  sighted : ∀ k c, s.scans k = some c → Sighted tr s k c
  due : ∀ k c, s.scans k = some c → Due tr s k c
  addressed : Addressed tr s

theorem told_init : Told [] init where
  past := fun _ hx => by cases hx
  made := fun _ _ hc => by cases hc
  only := fun _ _ hc => by cases hc
  sighted := fun _ _ hc => by cases hc
  due := fun _ _ hc => by cases hc
  addressed := ⟨fun _ _ hm => (by cases hm), fun _ hx => by cases hx⟩

/-- what is told of a scan that the step begins or moves -/
structure Known (tr : List (Queues × QueueAct)) (s : Queues) (k : Nat) (c : Scan) : Prop where
  made : ∃ x ∈ tr, x.1.calls = k ∧ makes x.2 = some (.port c.port, c.dg)
  only : ∀ x ∈ tr, x.1.calls = k → ∀ d, makes x.2 = some d → d = (.port c.port, c.dg)
  sighted : Sighted tr s k c
  due : Due tr s k c

/-- the history goes on: the other scans stay, one that ends has delivered, and what is new was meant
for the life that it came for -/
theorem Told.snoc (h : Told tr s) (hi : Inv s) (ht : Inv t) (ho : Onward s t)
    (hcalls : t.calls = if (makes a).isSome then s.calls + 1 else s.calls)
    (hscans : ∀ k c, t.scans k = some c → s.scans k = some c ∨ Known (tr ++ [(s, a)]) t k c)
    (hends : ∀ k c, s.scans k = some c → t.scans k = none → ∀ l, Loyal tr s k l c.port →
      c.msg k ∈ t.arrived l)
    (hnew : ∀ l m, m ∈ t.arrived l → m ∈ s.arrived l ∨
      ((∃ x ∈ tr ++ [(s, a)], x.1.calls = m.call ∧ makes x.2 = some (m.dst, m.dg)) ∧
        ∃ u, During (tr ++ [(s, a)]) m.call u ∧ u.Meant l m.dst))
    (hmade : ∀ d, makes a = some d → t.scans s.calls = none → ∀ l, s.Meant l d.1 →
      ⟨s.calls, d.1, d.2⟩ ∈ t.arrived l) : Told (tr ++ [(s, a)]) t := by
  have hle : s.calls ≤ t.calls := by
    rw [hcalls]
    split
    · exact Nat.le_succ _
    · exact le_rfl
  have hfresh : ∀ k c, s.scans k = some c → s.calls ≠ k := fun k c hc =>
    ne_of_gt (hi.scans k c hc).1
  constructor
  case past =>
    intro x hx hmx
    rcases List.mem_append.mp hx with hx | hx
    · exact lt_of_lt_of_le (h.past x hx hmx) hle
    · cases List.mem_singleton.mp hx
      rw [hcalls, if_pos hmx]
      exact Nat.lt_succ_self _
  case made =>
    intro k c hc
    rcases hscans k c hc with hold | hknown
    · obtain ⟨x, hx, hk⟩ := h.made k c hold
      exact ⟨x, List.mem_append_left _ hx, hk⟩
    · exact hknown.made
  case only =>
    intro k c hc x hx hk d hd
    rcases hscans k c hc with hold | hknown
    · rcases List.mem_append.mp hx with hx | hx
      · exact h.only k c hold x hx hk d hd
      · cases List.mem_singleton.mp hx
        exact absurd hk (hfresh k c hold)
    · exact hknown.only x hx hk d hd
  case sighted =>
    intro k c hc
    rcases hscans k c hc with hold | hknown
    · exact (h.sighted k c hold).later hi ht ho hold hc
    · exact hknown.sighted
  case due =>
    intro k c hc
    rcases hscans k c hc with hold | hknown
    · exact (h.due k c hold).later hi ht ho hold
    · exact hknown.due
  case addressed =>
    constructor
    · intro l m hm
      rcases hnew l m hm with hold | hnow
      · obtain ⟨⟨x, hx, hk⟩, u, hu, hmeant⟩ := h.addressed.own l m hold
        exact ⟨⟨x, List.mem_append_left _ hx, hk⟩, u, during_snoc.mpr (Or.inl hu), hmeant⟩
      · exact hnow
    · intro x hx d hd hover l hmeant
      rcases List.mem_append.mp hx with hx | hx
      · cases hc : s.scans x.1.calls with
        | none =>
          exact ho.arrived l _ (h.addressed.all x hx d hd hc l fun u hu =>
            hmeant u (during_snoc.mpr (Or.inl hu)))
        | some c =>
          cases h.only _ c hc x hx rfl d hd
          exact hends _ c hc hover l fun u hu => hmeant u hu.during
      · cases List.mem_singleton.mp hx
        refine hmade d hd hover l (hmeant s (during_snoc.mpr (Or.inr ⟨rfl, Or.inl ⟨?_, rfl⟩⟩)))
        rw [hd]
        rfl

/-- a step that makes no call and leaves the scans alone -/
theorem Told.quiet (h : Told tr s) (hi : Inv s) (ht : Inv t) (ho : Onward s t)
    (hmakes : makes a = none) (hcalls : t.calls = s.calls) (hscans : t.scans = s.scans)
    (harr : t.arrived = s.arrived) : Told (tr ++ [(s, a)]) t := by
  refine h.snoc hi ht ho (by rw [hmakes]; exact hcalls) (fun k c hc => Or.inl ?_)
    (fun k c hc hno => ?_) (fun l m hm => Or.inl ?_) fun d hd => ?_
  · rw [← hscans]
    exact hc
  · rw [hscans, hc] at hno
    cases hno
  · rw [← harr]
    exact hm
  · rw [hmakes] at hd
    cases hd

theorem Told.push (h : Told tr s) (hi : Inv s) {n : Nat} {d : Dgram} {mem : Bool}
    (hok : Steady s (.push n d mem)) (hst : step s (.push n d mem) = some t) :
    Told (tr ++ [(s, .push n d mem)]) t := by
  have ho := step_onward hi hok hst
  have ht := step_inv hi hok hst
  cases hst
  obtain ⟨hlive, j, hj, -⟩ := id hok
  obtain ⟨l', hl'⟩ := Option.isSome_iff_exists.mp hlive
  have hs := sameRows_offer { (s.create n).1 with calls := s.calls + 1 } (some l') j
    ⟨s.calls, .sock n, d⟩ mem
  rw [← hi.push_eq hl' hj] at hs
  refine h.snoc hi ht ho hs.calls (fun k c hc => Or.inl ?_) (fun k c hc hno => ?_)
    (fun l m hm => ?_) fun d' hd _ l hmeant => ?_
  · have hsc : (s.push n d mem).scans = s.scans := hs.scans
    rw [← hsc]
    exact hc
  · have hsc : (s.push n d mem).scans = s.scans := hs.scans
    rw [hsc, hc] at hno
    cases hno
  · refine ((hi.push_arrived hok).mp hm).imp id ?_
    rintro ⟨hl, rfl⟩
    have hlast : (s, QueueAct.push n d mem) ∈ tr ++ [(s, .push n d mem)] :=
      List.mem_append_right _ (List.mem_singleton.mpr rfl)
    exact ⟨⟨_, hlast, rfl, rfl⟩, s, ⟨_, hlast, Or.inl ⟨rfl, rfl⟩⟩, hl⟩
  · cases hd
    exact (hi.push_arrived hok).mpr (Or.inr ⟨hmeant, rfl⟩)

/-- a call that begins to scan: who is on the port now is ahead of it -/
theorem Told.begin (h : Told tr s) (hi : Inv s) {direct : Bool} {port : Nat} {dg : Dgram}
    (ht : Inv (s.begin direct port dg)) (hmakes : makes a = some (.port port, dg)) :
    Told (tr ++ [(s, a)]) (s.begin direct port dg) := by
  have ho : Onward s (s.begin direct port dg) :=
    Onward.of_rows rfl (fun _ hu => ⟨hu, rfl, rfl⟩) fun _ _ hm => hm
  have hlast : (s, a) ∈ tr ++ [(s, a)] := List.mem_append_right _ (List.mem_singleton.mpr rfl)
  have hown : (s.begin direct port dg).scans s.calls = s.look direct port dg 0 :=
    Function.update_self _ _ _
  have hother : ∀ k, k ≠ s.calls → (s.begin direct port dg).scans k = s.scans k := fun k hk =>
    Function.update_of_ne hk _ _
  refine h.snoc hi ht ho (by rw [hmakes]; rfl) (fun k c hc => ?_) (fun k c hc hno => ?_)
    (fun _ _ hm => Or.inl hm) fun d hd hno l hmeant => ?_
  · by_cases hk : k = s.calls
    · rw [hk] at hc ⊢
      rw [hown] at hc
      have hlook : (s.begin direct port dg).look direct port dg 0 = some c := hc
      obtain ⟨-, hcs⟩ := look_spec hc
      have hport : c.port = port := by rw [hcs]
      have hdg : c.dg = dg := by rw [hcs]
      refine Or.inr ⟨⟨_, hlast, rfl, ?_⟩, fun x hx hxk d hd => ?_, ?_, ?_⟩
      · rw [hport, hdg]
        exact hmakes
      · rcases List.mem_append.mp hx with hx | hx
        · exact absurd hxk (ne_of_lt (h.past x hx (by rw [hd]; rfl)))
        · cases List.mem_singleton.mp hx
          rw [hport, hdg]
          exact Option.some.inj (hd.symm.trans hmakes)
      · refine sighted_look hlook ?_
        rw [hown, hc]
        rfl
      · exact ht.due_look hlook fun _ _ _ _ _ => Nat.zero_le _
    · rw [hother k hk] at hc
      exact Or.inl hc
  · rw [hother k (ne_of_lt (hi.scans k c hc).1), hc] at hno
    cases hno
  · cases hd.symm.trans hmakes
    obtain ⟨j, hj⟩ := hmeant
    obtain ⟨r, -, hr⟩ := hi.nextRow_le (Nat.zero_le j.val) hj.used
    rw [hown] at hno
    unfold look at hno
    rw [hr] at hno
    cases hno

theorem Told.ask (h : Told tr s) (hi : Inv s) {k : Nat} {c : Scan} (hc : s.scans k = some c)
    (hst : c.stage = .looked) : Told (tr ++ [(s, .ask k)]) (s.asked k c) := by
  have ho : Onward s (s.asked k c) :=
    Onward.of_rows rfl (fun _ hu => ⟨hu, rfl, rfl⟩) fun _ _ hm => hm
  have hown : (s.asked k c).scans k = some (s.ask c) := Function.update_self _ _ _
  have hother : ∀ k', k' ≠ k → (s.asked k c).scans k' = s.scans k' := fun k' hk =>
    Function.update_of_ne hk _ _
  refine h.snoc hi (hi.ask hc) ho rfl (fun k' c' hc' => ?_) (fun k' c' hc' hno => ?_)
    (fun _ _ hm => Or.inl hm) fun d hd => by cases hd
  · by_cases hk : k' = k
    · rw [hk] at hc' ⊢
      cases hown.symm.trans hc'
      obtain ⟨x, hx, hxk⟩ := h.made k c hc
      refine Or.inr ⟨⟨x, List.mem_append_left _ hx, hxk⟩, fun x hx hxk d hd => ?_,
        (h.sighted k c hc).ask hi hc hst, (h.due k c hc).ask hst⟩
      rcases List.mem_append.mp hx with hx | hx
      · exact h.only k c hc x hx hxk d hd
      · cases List.mem_singleton.mp hx
        cases hd
    · rw [hother k' hk] at hc'
      exact Or.inl hc'
  · by_cases hk : k' = k
    · rw [hk, hown] at hno
      cases hno
    · rw [hother k' hk, hc'] at hno
      cases hno

theorem Told.deliver (h : Told tr s) (hi : Inv s) {k : Nat} {c : Scan} {mem : Bool}
    (hc : s.scans k = some c) (hst : c.stage ≠ .looked) (hok : Steady s (.deliver k mem)) :
    Told (tr ++ [(s, .deliver k mem)]) (s.deliver k c mem) := by
  have ht := hi.deliver hc hok
  obtain ⟨hsocks, hcalls, hrows⟩ := deliver_sameRows s k c mem
  have ho : Onward s (s.deliver k c mem) :=
    Onward.of_rows hsocks (fun i hu => ⟨(hrows i).1.trans hu, (hrows i).2⟩)
      fun l m hm => deliver_arrived.mpr (Or.inl hm)
  have hk : (s.scans k).isSome = true := by rw [hc]; rfl
  have hown : (s.deliver k c mem).scans k =
      (s.deliver k c mem).look c.direct c.port c.dg (c.row + 1) := by
    unfold Queues.deliver
    exact Function.update_self _ _ _
  have hother : ∀ k', k' ≠ k → (s.deliver k c mem).scans k' = s.scans k' := by
    intro k' hk'
    unfold Queues.deliver
    dsimp only
    rw [Function.update_of_ne hk']
    cases s.target c with
    | none => rfl
    | some j => exact congrFun (sameRows_offer s (s.forLife c) j (c.msg k) mem).scans k'
  -- a life that was on the port all the time has its datagram, or is still ahead
  have hahead : ∀ l j, Loyal tr s k l c.port → s.Listens j l c.port →
      c.msg k ∉ (s.deliver k c mem).arrived l → c.row + 1 ≤ j.val := by
    intro l j hl hj hno
    have hle := (h.due k c hc).ahead l j hl hj fun hin => hno (ho.arrived l _ hin)
    refine lt_of_le_of_ne hle fun heq => hno ?_
    exact (h.due k c hc).delivers hi hst hl (heq ▸ hj)
  refine h.snoc hi ht ho hcalls (fun k' c' hc' => ?_) (fun k' c' hc' hno l hl => ?_)
    (fun l m hm => ?_) fun d hd => by cases hd
  · by_cases hkk : k' = k
    · rw [hkk] at hc' ⊢
      rw [hown] at hc'
      obtain ⟨-, hcs⟩ := look_spec hc'
      have hport : c'.port = c.port := by rw [hcs]
      have hdg : c'.dg = c.dg := by rw [hcs]
      obtain ⟨x, hx, hxk, hxm⟩ := h.made k c hc
      refine Or.inr ⟨⟨x, List.mem_append_left _ hx, hxk, ?_⟩, fun x hx hxk d hd => ?_, ?_, ?_⟩
      · rw [hport, hdg]
        exact hxm
      · rw [hport, hdg]
        rcases List.mem_append.mp hx with hx | hx
        · exact h.only k c hc x hx hxk d hd
        · cases List.mem_singleton.mp hx
          cases hd
      · refine sighted_look hc' ?_
        rw [hown, hc']
        rfl
      · refine ht.due_look hc' fun l j hl hj hno => ?_
        exact hahead l j hl.before (hl.row hi ht ho hk hj).1 hno
    · rw [hother k' hkk] at hc'
      exact Or.inl hc'
  · by_cases hkk : k' = k
    · rw [hkk] at hc' hno hl ⊢
      cases hc.symm.trans hc'
      by_contra hno'
      obtain ⟨j, hj⟩ := hl s (Or.inr ⟨rfl, hk⟩)
      have hle := hahead l j hl hj hno'
      obtain ⟨r, -, hr⟩ := ht.nextRow_le hle ((hrows j).1.trans hj.used)
      rw [hown] at hno
      unfold look at hno
      rw [hr] at hno
      cases hno
    · rw [hother k' hkk, hc'] at hno
      cases hno
  · refine (deliver_arrived.mp hm).imp id ?_
    rintro ⟨htarget, hl, rfl⟩
    obtain ⟨x, hx, hxk⟩ := h.made k c hc
    obtain ⟨u, hu, hj⟩ := (h.sighted k c hc).meant hi hc htarget hl
    exact ⟨⟨x, List.mem_append_left _ hx, hxk⟩, u, hu.during, hj⟩

/-- **One step.**  A steady step goes on with the history. -/
theorem step_told (h : Told tr s) (hi : Inv s) (hok : Steady s a) (hst : step s a = some t) :
    Told (tr ++ [(s, a)]) t := by
  have ho := step_onward hi hok hst
  have ht := step_inv hi hok hst
  cases a with
  | socket n dgram =>
    obtain ⟨-, hst⟩ := Option.ite_none_left_eq_some.mp hst
    cases hst
    exact h.quiet hi ht ho rfl rfl rfl rfl
  | bind n port =>
    simp only [step] at hst
    split at hst
    · cases hst
    · obtain ⟨-, hst⟩ := Option.ite_none_left_eq_some.mp hst
      cases hst
      exact h.quiet hi ht ho rfl rfl rfl rfl
  | ensure n =>
    cases hst
    exact h.quiet hi ht ho rfl rfl rfl rfl
  | bindAlias n v =>
    obtain ⟨-, hst⟩ := Option.ite_none_left_eq_some.mp hst
    rw [← Option.some.inj hst] at ht ho ⊢
    cases hj : (s.create n).2 with
    | none =>
      rw [hj] at ht ho
      exact h.quiet hi ht ho rfl rfl rfl rfl
    | some j =>
      rw [hj] at ht ho
      exact h.quiet hi ht ho rfl rfl rfl rfl
  | push n d mem => exact h.push hi hok hst
  | pop n blen =>
    cases hst
    have hs := sameRows_pop s n blen
    exact h.quiet hi ht ho rfl hs.calls hs.scans (pop_arrived s n blen)
  | onClose n =>
    cases hst
    have hsame : ((s.entry n).elim s fun j => s.setRow j (s.g_uq j).free).calls = s.calls ∧
        ((s.entry n).elim s fun j => s.setRow j (s.g_uq j).free).scans = s.scans ∧
        ((s.entry n).elim s fun j => s.setRow j (s.g_uq j).free).arrived = s.arrived := by
      cases s.entry n <;> exact ⟨rfl, rfl, rfl⟩
    exact h.quiet hi ht ho rfl hsame.1 hsame.2.1 hsame.2.2
  | close n =>
    simp only [step] at hst
    split at hst
    · cases hst
    · obtain ⟨-, hst⟩ := Option.ite_none_left_eq_some.mp hst
      cases hst
      exact h.quiet hi ht ho rfl rfl rfl rfl
  | directIn gport ip raw =>
    simp only [step, Option.some.injEq] at hst
    rw [← hst] at ht ho ⊢
    cases hsrc : directSrc gport ip raw with
    | none =>
      rw [hsrc] at ht ho
      exact h.quiet hi ht ho (by rw [makes, hsrc]; rfl) rfl rfl rfl
    | some src =>
      rw [hsrc] at ht
      exact h.begin hi ht (by rw [makes, hsrc]; rfl)
  | bcastIn virt fakeip port sport raw =>
    cases hst
    exact h.begin hi ht rfl
  | ask k =>
    simp only [step] at hst
    split at hst
    · cases hst
    · rename_i c hc
      obtain ⟨hlooked, hst⟩ := Option.ite_none_right_eq_some.mp hst
      cases hst
      exact h.ask hi hc hlooked
  | deliver k mem =>
    simp only [step] at hst
    split at hst
    · cases hst
    · rename_i c hc
      obtain ⟨hlooked, hst⟩ := Option.ite_none_left_eq_some.mp hst
      cases hst
      exact h.deliver hi hc hlooked hok

/-- a run of steady steps has its history -/
theorem told_run (h : Path step init tr t) (hok : ∀ x ∈ tr, Steady x.1 x.2) :
    Inv t ∧ Told tr t := by
  induction h with
  | nil => exact ⟨inv_init, told_init⟩
  | snoc _ hl ih =>
    obtain ⟨hi, hh⟩ := ih fun x hx => hok x (List.mem_append_left _ hx)
    have hlast := hok _ (List.mem_append_right _ List.mem_cons_self)
    exact ⟨step_inv hi hlast hl, step_told hh hi hlast hl⟩

/-- **Bounded queues.**  However the producers, the readers and the calls of the app take turns: as
long as every step is steady, each queue is a bounded FIFO that drops what is new, and it is given
what was addressed to its socket. -/
theorem bounded_fifo (h : Path step init tr t) (hok : ∀ x ∈ tr, Steady x.1 x.2) :
    (∀ u ∈ visited tr t, BoundedFifo u) ∧ Addressed tr t :=
  ⟨h.all_of_ok inv_init (fun _ hu => hu.boundedFifo) (fun _ _ _ hu ha hst => step_inv hu ha hst) hok,
    (told_run h hok).2.addressed⟩

/-- two games; one gets a datagram, and a broadcast that comes while the other one is closed -/
def twoGames : List QueueAct :=
  [.socket 5 true, .bind 5 7777, .ensure 5, .socket 6 true, .bind 6 8888, .ensure 6,
   .directIn 8888 (dotted 0x0A000002) [1, 2, 3], .ask 0, .deliver 0 true, .ask 0, .deliver 0 true,
   .bcastIn 0x0A000003 0 8888 0 [4], .onClose 5, .ask 1, .deliver 1 true, .ask 1, .deliver 1 true,
   .pop 6 2, .pop 6 10]

theorem bounded_twoGames : ∃ t, run step init twoGames = some t ∧
    (t.popped 1).map Reading.got =
      [⟨[1, 2], ⟨0x0A000002, 8888⟩⟩, ⟨[4], ⟨0x0A000003, 8888⟩⟩] ∧
    (∀ u ∈ visited (trace step init twoGames) t, BoundedFifo u) ∧
      Addressed (trace step init twoGames) t := by
  have hsome : (run step init twoGames).isSome = true := by decide +kernel
  obtain ⟨t, ht⟩ := Option.isSome_iff_exists.mp hsome
  have hgot : ∀ t ∈ run step init twoGames, (t.popped 1).map Reading.got =
      [⟨[1, 2], ⟨0x0A000002, 8888⟩⟩, ⟨[4], ⟨0x0A000003, 8888⟩⟩] := by
    decide +kernel
  have hok : ∀ x ∈ trace step init twoGames, Steady x.1 x.2 := by decide +kernel
  exact ⟨t, ht, hgot t ht, bounded_fifo (path_run ht) hok⟩

/-- a socket on port 7777 is closed while the scan asks for its port, and a socket with no port at
all is given its row -/
def rowReused : List QueueAct :=
  [.socket 5 true, .bind 5 7777, .ensure 5, .directIn 7777 (dotted 0x0A000002) [1], .ask 0,
   .onClose 5, .close 5, .socket 6 true, .ensure 6, .deliver 0 true, .pop 6 10]

theorem row_reused : ∃ t, run step init rowReused = some t ∧ (t.popped 1).length = 1 ∧
    t.arrived 1 = [] ∧ ¬ BoundedFifo t := by
  have hsome : (run step init rowReused).isSome = true := by decide +kernel
  obtain ⟨t, ht⟩ := Option.isSome_iff_exists.mp hsome
  have hpop : ∀ t ∈ run step init rowReused, (t.popped 1).length = 1 ∧ t.arrived 1 = [] := by
    decide +kernel
  obtain ⟨hlen, harr⟩ := hpop t ht
  refine ⟨t, ht, hlen, harr, fun hb => ?_⟩
  obtain ⟨taken, hR, hsub⟩ := hb.read_came 1
  rw [harr, List.sublist_nil] at hsub
  rw [hsub] at hR
  rw [List.forall₂_nil_right_iff.mp hR] at hlen
  cases hlen

/-- a push for a number that nobody has makes a row, and the next socket with the number reads it -/
example : ∀ t ∈ run step init [.push 5 ⟨[1], ⟨2, 3⟩⟩ true, .socket 5 true],
    t.births = [[⟨0, .sock 5, ⟨[1], ⟨2, 3⟩⟩⟩]] := by decide +kernel

end Queues

end ShadowLan
