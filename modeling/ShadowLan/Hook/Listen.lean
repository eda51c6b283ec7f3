import ShadowLan.Hook.Accept
import ShadowLan.Hook.Alias
import Mathlib.Data.Fintype.Card

/-!
# Which ports does this process serve?

`listen` on a stream socket records the port that the app asked for in `g_lports`, and `dt_on_streq`
joins a stream when its port is in that table.  No function takes a port out of it.

* `recordListen`, `ownsListen`   the table;
* `ListenHook.step`              binds, listens and closes of the process, and the `DT_STREQ`s it gets;
* `Right`                        the table is what the open sockets listen on, and the streams joined
                                 are those for one of these ports;
* `ListenOk`                     the condition on a step: a socket that leaves its port leaves it to
                                 another one, the tables have room, and no `DT_STREQ` names port 0;
* `claims_iff`                   a run is right everywhere exactly when all its steps meet it.

The tunnel is on, and memory for a joining thread is to be had.  A socket that is bound to no IPv4
address has no virtual port.
-/

namespace ShadowLan

abbrev DT_MAXLISTEN : Nat := 32

/-- `g_lports`; a free row is 0 -/
abbrev ListenTable := Fin DT_MAXLISTEN → Nat

/-- `dt_record_listen` -/
def recordListen (L : ListenTable) (port : Nat) : ListenTable :=
  if port = 0 then L else (claim L (· == port) (· == 0) fun _ => port).1

/-- `dt_owns_listen` -/
def ownsListen (L : ListenTable) (port : Nat) : Bool := (first L (· == port)).isSome

/-- an open socket that listens on a virtual port -/
structure Listener where
  sock : Nat
  port : Nat
  deriving DecidableEq

/-- a `DT_STREQ`: was its port served, and did the process join? -/
structure Streq where
  served : Bool
  joined : Bool
  deriving DecidableEq

structure ListenHook where
  g_ta : AliasTable
  g_lports : ListenTable
  g_hs : Fin DT_MAXHOST → DtHosted
  now : Nat
  listeners : List Listener
  streqs : List Streq

inductive ListenAct where
  /-- a bind enters the port that it asked for -/
  | bind (sock vport real proto : Nat)
  /-- `listen` succeeds; `bound` is the port that `getsockname` gives for an IPv4 address -/
  | listen (sock : Nat) (bound : Option Nat)
  | close (sock : Nat)
  | streq (sid gport ovirt : Nat)
  /-- the hosted sessions go on: rows are filled in further, and freed -/
  | sessions (g_hs : Fin DT_MAXHOST → DtHosted)
  | tick (ms : Nat)

namespace ListenHook

def init : ListenHook where
  g_ta := .blank
  g_lports := fun _ => 0
  g_hs := fun _ => ⟨false, 0, none, none, false, 0, false, 0, 0, 0, 0⟩
  now := 0
  listeners := []
  streqs := []

variable (S : ListenHook)

/-- an open socket listens on the virtual port `p` -/
def serves (p : Nat) : Bool := S.listeners.any (·.port == p)

/-- the ports that are served -/
def ports : Finset Nat := (S.listeners.map Listener.port).toFinset

/-- a session row is free -/
def hostRoom : Bool := (first S.g_hs fun h => !h.used).isSome

/-- the port that `listen` records: that of the alias table wins -/
def listenPort (sock bound : Nat) : Nat := (S.g_ta.vport sock).getD bound

/-- the hook of `listen` -/
def listen (sock bound : Nat) : ListenHook :=
  { S with
    g_lports := recordListen S.g_lports (S.listenPort sock bound),
    listeners := (S.listeners.filter (·.sock != sock)) ++ [⟨sock, S.listenPort sock bound⟩] }

/-- what `dt_on_close` does to the tables that `listen` and `dt_on_streq` read -/
def close (sock : Nat) : ListenHook :=
  { S with g_ta := S.g_ta.drop sock, listeners := S.listeners.filter (·.sock != sock) }

/-- `dt_on_streq` -/
def onStreq (sid gport ovirt : Nat) : ListenHook :=
  if ownsListen S.g_lports gport then
    match first S.g_hs fun h => !h.used with
    | some i =>
      { S with
        g_hs := Function.update S.g_hs i { S.g_hs i with
          used := true, sid := sid, real := none, fd := none, live := false, dead := false,
          last := S.now, ovirt := ovirt, gport := gport, lport := 0 },
        streqs := S.streqs ++ [⟨S.serves gport, true⟩] }
    | none => { S with streqs := S.streqs ++ [⟨S.serves gport, false⟩] }
  else { S with streqs := S.streqs ++ [⟨S.serves gport, false⟩] }

def step : ListenAct → Option ListenHook
  | .bind sock vport real proto => some { S with g_ta := S.g_ta.add sock vport real proto }
  | .listen _ none => some S
  -- the kernel binds a socket that listens to a port of its own, if need be
  | .listen sock (some bound) => if 0 < bound then some (S.listen sock bound) else none
  | .close sock => some (S.close sock)
  | .streq sid gport ovirt => some (S.onStreq sid gport ovirt)
  | .sessions g_hs => some { S with g_hs := g_hs }
  | .tick ms => some { S with now := S.now + ms }

/-- The table is what the open sockets listen on, and the streams joined are those for such a port. -/
def Right : Prop :=
  (∀ p, p ≠ 0 → ownsListen S.g_lports p = S.serves p) ∧ ∀ x ∈ S.streqs, x.joined = x.served

/-- the ports that `sock` listens on, `keep` apart, are served by other sockets too -/
def spared (sock keep : Nat) : Bool :=
  S.listeners.all fun l => l.sock != sock || l.port == keep ||
    S.listeners.any fun l' => l'.sock != sock && l'.port == l.port

def ListenOk : ListenAct → Prop
  | .listen sock (some bound) =>
    (S.serves (S.listenPort sock bound) = true ∨ S.ports.card < DT_MAXLISTEN) ∧
      S.spared sock (S.listenPort sock bound) = true
  | .close sock => S.spared sock 0 = true
  | .streq _ gport _ =>
    if gport = 0 then S.ports.card < DT_MAXLISTEN → S.hostRoom = false
    else S.serves gport = true → S.hostRoom = true
  | _ => True

instance (a : ListenAct) : Decidable (S.ListenOk a) := by
  unfold ListenOk
  split <;> infer_instance

end ListenHook

/-! ## the table -/

theorem ownsListen_iff {L : ListenTable} {p : Nat} : ownsListen L p = true ↔ ∃ i, L i = p := by
  unfold ownsListen
  constructor
  · intro h
    obtain ⟨i, hi⟩ := Option.isSome_iff_exists.mp h
    exact ⟨i, beq_iff_eq.mp (first_mem hi)⟩
  · rintro ⟨i, hi⟩
    obtain ⟨j, -, hj⟩ := first_isSome (T := L) (p := (· == p)) (beq_iff_eq.mpr hi)
    rw [hj]
    rfl

/-- no port is in two rows -/
def Distinct (L : ListenTable) : Prop := ∀ i j, L i = L j → L i ≠ 0 → i = j

theorem recordListen_owned {L : ListenTable} {p : Nat} (h : ownsListen L p = true) :
    recordListen L p = L := by
  unfold recordListen
  obtain ⟨i, hi⟩ := Option.isSome_iff_exists.mp h
  rw [claim_found hi]
  exact ite_self L

theorem recordListen_full {L : ListenTable} {p : Nat} (h : ownsListen L 0 = false)
    (hno : ownsListen L p = false) : recordListen L p = L := by
  unfold recordListen
  have h0 : first L (· == 0) = none := Option.not_isSome_iff_eq_none.mp (Bool.eq_false_iff.mp h)
  have hp : first L (· == p) = none := Option.not_isSome_iff_eq_none.mp (Bool.eq_false_iff.mp hno)
  rw [claim_full hp h0]
  exact ite_self L

/-- a port that is not in the table takes the first free row -/
theorem recordListen_new {L : ListenTable} {p : Nat} (hp : p ≠ 0) (hno : ownsListen L p = false)
    (h : ownsListen L 0 = true) : ∃ i, L i = 0 ∧ recordListen L p = Function.update L i p := by
  obtain ⟨i, hi⟩ := Option.isSome_iff_exists.mp h
  have hn : first L (· == p) = none := Option.not_isSome_iff_eq_none.mp (Bool.eq_false_iff.mp hno)
  refine ⟨i, beq_iff_eq.mp (first_mem hi), ?_⟩
  unfold recordListen
  rw [if_neg hp, claim_fresh hn hi]

theorem owns_update {L : ListenTable} {i : Fin DT_MAXLISTEN} {p q : Nat} (hi : L i = 0) (hq : q ≠ 0) :
    ownsListen (Function.update L i p) q = true ↔ q = p ∨ ownsListen L q = true := by
  rw [ownsListen_iff, ownsListen_iff]
  constructor
  · rintro ⟨j, hj⟩
    by_cases hji : j = i
    · rw [hji, Function.update_self] at hj
      exact Or.inl hj.symm
    · rw [Function.update_of_ne hji] at hj
      exact Or.inr ⟨j, hj⟩
  · rintro (rfl | ⟨j, hj⟩)
    · exact ⟨i, Function.update_self i q L⟩
    · have hji : j ≠ i := fun e => hq (by rw [← hj, e, hi])
      exact ⟨j, (Function.update_of_ne hji _ _).trans hj⟩

/-- **what recording a port leaves in the table** -/
theorem owns_record {L : ListenTable} {p q : Nat} (hp : p ≠ 0) (hq : q ≠ 0) :
    ownsListen (recordListen L p) q = true ↔
      ownsListen L q = true ∨ q = p ∧ ownsListen L 0 = true := by
  by_cases ho : ownsListen L p = true
  · rw [recordListen_owned ho]
    refine ⟨Or.inl, fun h => ?_⟩
    rcases h with h | ⟨rfl, -⟩
    · exact h
    · exact ho
  · have hno := Bool.eq_false_iff.mpr ho
    by_cases h0 : ownsListen L 0 = true
    · obtain ⟨i, hi, e⟩ := recordListen_new hp hno h0
      rw [e, owns_update hi hq, or_comm, and_iff_left h0]
    · rw [recordListen_full (Bool.eq_false_iff.mpr h0) hno]
      refine ⟨Or.inl, fun h => ?_⟩
      rcases h with h | ⟨-, h⟩
      · exact h
      · exact absurd h h0

theorem Distinct.record {L : ListenTable} {p : Nat} (h : Distinct L) :
    Distinct (recordListen L p) := by
  by_cases hp : p = 0
  · unfold recordListen
    rw [if_pos hp]
    exact h
  · by_cases ho : ownsListen L p = true
    · rw [recordListen_owned ho]
      exact h
    · have hno := Bool.eq_false_iff.mpr ho
      have hnot : ∀ i, L i ≠ p := fun i hi => ho (ownsListen_iff.mpr ⟨i, hi⟩)
      by_cases h0 : ownsListen L 0 = true
      · obtain ⟨k, -, e⟩ := recordListen_new hp hno h0
        rw [e]
        intro i j hij hne
        by_cases hi : i = k
        · by_cases hj : j = k
          · rw [hi, hj]
          · rw [hi, Function.update_self, Function.update_of_ne hj] at hij
            exact absurd hij.symm (hnot j)
        · rw [Function.update_of_ne hi] at hij hne
          by_cases hj : j = k
          · rw [hj, Function.update_self] at hij
            exact absurd hij (hnot i)
          · rw [Function.update_of_ne hj] at hij
            exact h i j hij hne
      · rw [recordListen_full (Bool.eq_false_iff.mpr h0) hno]
        exact h

/-! ## the invariant -/

namespace ListenHook
variable {S S' : ListenHook}

/-- A right state, with what every state keeps: no port is in two rows, and nobody listens on 0. -/
structure Sound (S : ListenHook) : Prop where
  right : S.Right
  distinct : Distinct S.g_lports
  pos : ∀ l ∈ S.listeners, l.port ≠ 0

theorem serves_iff {p : Nat} : S.serves p = true ↔ ∃ l ∈ S.listeners, l.port = p := by
  unfold serves
  simp only [List.any_eq_true, beq_iff_eq]

theorem Sound.owns (h : S.Sound) {p : Nat} (hp : p ≠ 0) :
    ownsListen S.g_lports p = true ↔ S.serves p = true := by
  rw [h.right.1 p hp]

theorem Sound.serves_zero (h : S.Sound) : S.serves 0 = false := by
  rw [Bool.eq_false_iff, Ne, serves_iff]
  rintro ⟨l, hl, e⟩
  exact h.pos l hl e

theorem mem_ports {p : Nat} : p ∈ S.ports ↔ S.serves p = true := by
  rw [serves_iff, ports, List.mem_toFinset, List.mem_map]

/-- **a row is free exactly when fewer ports than rows are served** -/
theorem Sound.room (h : S.Sound) :
    ownsListen S.g_lports 0 = true ↔ S.ports.card < DT_MAXLISTEN := by
  have hmem : ∀ p, p ∈ S.ports → ∃ i, S.g_lports i = p ∧ p ≠ 0 := by
    intro p hp
    have hs := mem_ports.mp hp
    have hne : p ≠ 0 := by
      rintro rfl
      rw [h.serves_zero] at hs
      exact Bool.noConfusion hs
    obtain ⟨i, hi⟩ := ownsListen_iff.mp ((h.owns hne).mpr hs)
    exact ⟨i, hi, hne⟩
  constructor
  · intro hz
    obtain ⟨k, hk⟩ := ownsListen_iff.mp hz
    -- the served ports are in the other rows
    have hsub : S.ports ⊆ (Finset.univ.erase k).image S.g_lports := by
      intro p hp
      obtain ⟨i, hi, hne⟩ := hmem p hp
      have hik : i ≠ k := fun e => hne (by rw [← hi, e, hk])
      exact Finset.mem_image.mpr ⟨i, Finset.mem_erase.mpr ⟨hik, Finset.mem_univ i⟩, hi⟩
    calc S.ports.card ≤ ((Finset.univ.erase k).image S.g_lports).card := Finset.card_le_card hsub
      _ ≤ (Finset.univ.erase k).card := Finset.card_image_le
      _ < Fintype.card (Fin DT_MAXLISTEN) :=
        Finset.card_lt_card (Finset.erase_ssubset (Finset.mem_univ k))
      _ = DT_MAXLISTEN := Fintype.card_fin _
  · intro hlt
    by_contra hz
    have hne : ∀ i, S.g_lports i ≠ 0 := fun i hi => hz (ownsListen_iff.mpr ⟨i, hi⟩)
    have hinj : Function.Injective S.g_lports := fun i j e => h.distinct i j e (hne i)
    have hsub : Finset.univ.image S.g_lports ⊆ S.ports := by
      intro p hp
      obtain ⟨i, -, hi⟩ := Finset.mem_image.mp hp
      have hp0 : p ≠ 0 := hi ▸ hne i
      exact mem_ports.mpr ((h.owns hp0).mp (ownsListen_iff.mpr ⟨i, hi⟩))
    have hcard := Finset.card_le_card hsub
    rw [Finset.card_image_of_injective _ hinj, Finset.card_univ, Fintype.card_fin] at hcard
    exact absurd hlt (Nat.not_lt.mpr hcard)

theorem sound_init : init.Sound where
  right := by
    refine ⟨fun p hp => ?_, fun x hx => absurd hx List.not_mem_nil⟩
    show ownsListen (fun _ => 0) p = false
    rw [Bool.eq_false_iff, Ne, ownsListen_iff]
    rintro ⟨-, h⟩
    exact hp h.symm
  distinct := fun _ _ _ h => absurd rfl h
  pos := fun _ h => absurd h List.not_mem_nil

/-! ## what each step leaves -/

theorem listenPort_pos {sock bound : Nat} (hb : 0 < bound) : S.listenPort sock bound ≠ 0 := by
  unfold listenPort
  cases hv : S.g_ta.vport sock with
  | none => exact Nat.pos_iff_ne_zero.mp hb
  | some p => exact Nat.pos_iff_ne_zero.mp (AliasTable.vport_pos _ hv)

/-- a socket other than `sock` listens on `q` -/
def othersServe (S : ListenHook) (sock q : Nat) : Prop :=
  ∃ l ∈ S.listeners, l.sock ≠ sock ∧ l.port = q

theorem othersServe_serves {sock q : Nat} (h : S.othersServe sock q) : S.serves q = true := by
  obtain ⟨l, hl, -, e⟩ := h
  exact serves_iff.mpr ⟨l, hl, e⟩

theorem serves_close {sock q : Nat} :
    (S.close sock).serves q = true ↔ S.othersServe sock q := by
  rw [serves_iff]
  constructor
  · rintro ⟨l, hl, e⟩
    obtain ⟨hm, hne⟩ := List.mem_filter.mp hl
    exact ⟨l, hm, bne_iff_ne.mp hne, e⟩
  · rintro ⟨l, hm, hne, e⟩
    exact ⟨l, List.mem_filter.mpr ⟨hm, bne_iff_ne.mpr hne⟩, e⟩

theorem serves_listen {sock bound q : Nat} : (S.listen sock bound).serves q = true ↔
    q = S.listenPort sock bound ∨ S.othersServe sock q := by
  rw [← serves_close, serves_iff, serves_iff]
  show (∃ l ∈ S.listeners.filter (·.sock != sock) ++ [⟨sock, S.listenPort sock bound⟩],
    l.port = q) ↔ q = S.listenPort sock bound ∨ ∃ l ∈ S.listeners.filter (·.sock != sock), l.port = q
  constructor
  · rintro ⟨l, hl, e⟩
    rcases List.mem_append.mp hl with hl | hl
    · exact Or.inr ⟨l, hl, e⟩
    · rw [List.mem_singleton.mp hl] at e
      exact Or.inl e.symm
  · rintro (rfl | ⟨l, hl, e⟩)
    · exact ⟨_, List.mem_append_right _ List.mem_cons_self, rfl⟩
    · exact ⟨l, List.mem_append_left _ hl, e⟩

/-- the ports of `sock`, `keep` apart, are left to others -/
theorem spared_iff {sock keep : Nat} : S.spared sock keep = true ↔
    ∀ q, q ≠ keep → S.serves q = true → S.othersServe sock q := by
  have hall : S.spared sock keep = true ↔ ∀ l ∈ S.listeners,
      (l.sock ≠ sock ∨ l.port = keep) ∨ S.othersServe sock l.port := by
    unfold spared othersServe
    simp only [List.all_eq_true, Bool.or_eq_true, bne_iff_ne, beq_iff_eq, List.any_eq_true,
      Bool.and_eq_true]
  rw [hall]
  constructor
  · intro h q hq hs
    obtain ⟨l, hl, rfl⟩ := serves_iff.mp hs
    rcases h l hl with (hne | he) | ho
    · exact ⟨l, hl, hne, rfl⟩
    · exact absurd he hq
    · exact ho
  · intro h l hl
    by_cases hk : l.port = keep
    · exact Or.inl (Or.inr hk)
    · exact Or.inr (h l.port hk (serves_iff.mpr ⟨l, hl, rfl⟩))

/-- a `listen` leaves the table right exactly when the port finds its row and the socket leaves no
port behind -/
theorem Sound.listen_iff (h : S.Sound) {sock bound : Nat} (hb : 0 < bound) :
    (S.listen sock bound).Right ↔ S.ListenOk (.listen sock (some bound)) := by
  have hp : S.listenPort sock bound ≠ 0 := listenPort_pos hb
  have howns : ∀ q, q ≠ 0 → (ownsListen (S.listen sock bound).g_lports q = true ↔
      S.serves q = true ∨ q = S.listenPort sock bound ∧ S.ports.card < DT_MAXLISTEN) := by
    intro q hq
    rw [← h.owns hq, ← h.room]
    exact owns_record hp hq
  show _ ↔ (S.serves (S.listenPort sock bound) = true ∨ S.ports.card < DT_MAXLISTEN) ∧
    S.spared sock (S.listenPort sock bound) = true
  rw [spared_iff]
  constructor
  · rintro ⟨hr, -⟩
    have hiff : ∀ q, q ≠ 0 → (ownsListen (S.listen sock bound).g_lports q = true ↔
        (S.listen sock bound).serves q = true) := fun q hq => by rw [hr q hq]
    constructor
    · have hown := (hiff _ hp).mpr (serves_listen.mpr (Or.inl rfl))
      rcases (howns _ hp).mp hown with hs | ⟨-, hc⟩
      · exact Or.inl hs
      · exact Or.inr hc
    · intro q hq hs
      have hq0 : q ≠ 0 := by
        rintro rfl
        rw [h.serves_zero] at hs
        exact Bool.noConfusion hs
      have hs' := (hiff q hq0).mp ((howns q hq0).mpr (Or.inl hs))
      exact (serves_listen.mp hs').resolve_left hq
  · rintro ⟨hroom, hsp⟩
    refine ⟨fun q hq => Bool.eq_iff_iff.mpr ?_, h.right.2⟩
    rw [howns q hq, serves_listen]
    constructor
    · rintro (hs | ⟨e, -⟩)
      · by_cases e : q = S.listenPort sock bound
        · exact Or.inl e
        · exact Or.inr (hsp q e hs)
      · exact Or.inl e
    · rintro (rfl | ho)
      · rcases hroom with hs | hc
        · exact Or.inl hs
        · exact Or.inr ⟨rfl, hc⟩
      · exact Or.inl (othersServe_serves ho)

theorem Sound.close_iff (h : S.Sound) {sock : Nat} :
    (S.close sock).Right ↔ S.ListenOk (.close sock) := by
  show _ ↔ S.spared sock 0 = true
  rw [spared_iff]
  constructor
  · rintro ⟨hr, -⟩ q hq hs
    have hown : ownsListen (S.close sock).g_lports q = true := (h.owns hq).mpr hs
    rw [hr q hq] at hown
    exact serves_close.mp hown
  · intro hsp
    refine ⟨fun q hq => Bool.eq_iff_iff.mpr ?_, h.right.2⟩
    rw [serves_close]
    exact ⟨fun ho => hsp q hq ((h.owns hq).mp ho),
      fun ho => (h.owns hq).mpr (othersServe_serves ho)⟩

/-- what `dt_on_streq` does, as far as the listen table is concerned -/
theorem onStreq_spec (sid gport ovirt : Nat) :
    (S.onStreq sid gport ovirt).g_lports = S.g_lports ∧
      (S.onStreq sid gport ovirt).listeners = S.listeners ∧
      (S.onStreq sid gport ovirt).streqs =
        S.streqs ++ [⟨S.serves gport, ownsListen S.g_lports gport && S.hostRoom⟩] := by
  unfold onStreq hostRoom
  cases ho : ownsListen S.g_lports gport with
  | false => exact ⟨rfl, rfl, rfl⟩
  | true =>
    rw [if_pos rfl]
    cases first S.g_hs fun h => !h.used with
    | none => exact ⟨rfl, rfl, rfl⟩
    | some i => exact ⟨rfl, rfl, rfl⟩

theorem Sound.streq_iff (h : S.Sound) (sid gport ovirt : Nat) :
    (S.onStreq sid gport ovirt).Right ↔ S.ListenOk (.streq sid gport ovirt) := by
  obtain ⟨hl, hs, hq⟩ := S.onStreq_spec sid gport ovirt
  have hright : (S.onStreq sid gport ovirt).Right ↔
      (ownsListen S.g_lports gport && S.hostRoom) = S.serves gport := by
    unfold Right serves
    rw [hl, hs, hq]
    constructor
    · rintro ⟨-, hall⟩
      exact hall _ (List.mem_append_right _ List.mem_cons_self)
    · intro e
      refine ⟨h.right.1, fun x hx => ?_⟩
      rcases List.mem_append.mp hx with hx | hx
      · exact h.right.2 x hx
      · rw [List.mem_singleton.mp hx]
        exact e
  rw [hright]
  show _ ↔ if gport = 0 then S.ports.card < DT_MAXLISTEN → S.hostRoom = false
    else S.serves gport = true → S.hostRoom = true
  by_cases h0 : gport = 0
  · rw [if_pos h0, h0, h.serves_zero, ← h.room]
    cases ownsListen S.g_lports 0 <;> simp
  · rw [if_neg h0, h.right.1 gport h0]
    cases S.serves gport <;> simp

/-- the rows and the ports stay in order, whatever the step -/
theorem Sound.keep {a : ListenAct} (h : S.Sound) (hs : S.step a = some S') (hr : S'.Right) :
    S'.Sound := by
  cases a with
  | bind | sessions | tick =>
    rw [← Option.some.inj hs] at hr ⊢
    exact ⟨hr, h.distinct, h.pos⟩
  | listen sock bound =>
    cases bound with
    | none =>
      rw [← Option.some.inj hs]
      exact h
    | some bound =>
      obtain ⟨hb, e⟩ := Option.ite_none_right_eq_some.mp hs
      rw [← Option.some.inj e] at hr ⊢
      refine ⟨hr, h.distinct.record, fun l hl => ?_⟩
      rcases List.mem_append.mp hl with hl | hl
      · exact h.pos l (List.mem_filter.mp hl).1
      · rw [List.mem_singleton.mp hl]
        exact listenPort_pos hb
  | close sock =>
    rw [← Option.some.inj hs] at hr ⊢
    exact ⟨hr, h.distinct, fun l hl => h.pos l (List.mem_filter.mp hl).1⟩
  | streq sid gport ovirt =>
    rw [← Option.some.inj hs] at hr ⊢
    obtain ⟨hl, hm, -⟩ := S.onStreq_spec sid gport ovirt
    exact ⟨hr, hl ▸ h.distinct, hm ▸ h.pos⟩

/-- **one step**: from a sound state it is right exactly when the step meets the condition -/
theorem Sound.step_iff {a : ListenAct} (h : S.Sound) (hs : S.step a = some S') :
    S'.Right ↔ S.ListenOk a := by
  cases a with
  | bind | sessions | tick =>
    rw [← Option.some.inj hs]
    exact iff_of_true h.right trivial
  | listen sock bound =>
    cases bound with
    | none =>
      rw [← Option.some.inj hs]
      exact iff_of_true h.right trivial
    | some bound =>
      obtain ⟨hb, e⟩ := Option.ite_none_right_eq_some.mp hs
      rw [← Option.some.inj e]
      exact h.listen_iff hb
  | close sock =>
    rw [← Option.some.inj hs]
    exact h.close_iff
  | streq sid gport ovirt =>
    rw [← Option.some.inj hs]
    exact h.streq_iff sid gport ovirt

/-- **Only a listening process claims a stream, exactly when** no socket leaves a port behind, the
tables have room, and no `DT_STREQ` names port 0. -/
theorem claims_iff {tr : List (ListenHook × ListenAct)} (h : Path step init tr S) :
    (∀ u ∈ visited tr S, u.Right) ↔ ∀ x ∈ tr, x.1.ListenOk x.2 :=
  h.all_iff_ok sound_init (fun _ hu => hu.right)
    (fun _ _ _ hu hok hs => hu.keep hs ((hu.step_iff hs).mpr hok))
    fun _ _ _ hu hno hs hr => hno ((hu.step_iff hs).mp hr)

/-- a game listens on port 5000, which the alias table keeps for it, and serves a stream; then it
listens with a second socket, and closes the first -/
def handedPort : List ListenAct :=
  [.bind 7 5000 41234 SOCK_STREAM, .listen 7 (some 41234), .streq 1 5000 9, .streq 2 41234 9,
    .bind 8 5000 5000 SOCK_STREAM, .listen 8 (some 5000), .close 7, .streq 3 5000 9]

theorem claims_handed :
    ∃ S tr, Path step init tr S ∧ S.streqs.map Streq.joined = [true, false, true] ∧
      ∀ u ∈ visited tr S, u.Right := by
  have hsome : (run step init handedPort).isSome = true := by decide
  obtain ⟨S, hS⟩ := Option.isSome_iff_exists.mp hsome
  have hjoin : (run step init handedPort).map (fun S => S.streqs.map Streq.joined)
      = some [true, false, true] := by decide +kernel
  rw [hS] at hjoin
  have hr := path_run hS
  refine ⟨S, _, hr, Option.some.inj hjoin, (claims_iff hr).mpr ?_⟩
  have hok : (trace step init handedPort).all (fun x => decide (x.1.ListenOk x.2)) = true := by
    decide +kernel
  intro x hx
  exact of_decide_eq_true (List.all_eq_true.mp hok x hx)

/-- the game closes its listening socket; the process still claims the port, and joins a stream that
nobody here serves -/
def closedPort : List ListenAct := [.listen 7 (some 5000), .close 7, .streq 1 5000 9]

theorem closed_claims :
    ∃ S tr, Path step init tr S ∧ ownsListen S.g_lports 5000 = true ∧
      S.serves 5000 = false ∧ S.streqs = [⟨false, true⟩] := by
  have hsome : (run step init closedPort).isSome = true := by decide
  obtain ⟨S, hS⟩ := Option.isSome_iff_exists.mp hsome
  have hend : (run step init closedPort).all (fun S => ownsListen S.g_lports 5000 &&
      !S.serves 5000 && S.streqs == [⟨false, true⟩]) = true := by decide +kernel
  rw [hS, Option.all_some, Bool.and_eq_true, Bool.and_eq_true, Bool.not_eq_true', beq_iff_eq] at hend
  exact ⟨S, _, path_run hS, hend.1.1, hend.1.2, hend.2⟩

end ListenHook

end ShadowLan
