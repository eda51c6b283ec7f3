import ShadowLan.Hook.Table

/-!
# `close()` and the identity of a socket

The hook knows a tunneled stream by the number of the app's socket.  `dt_on_close` gives that
number up in two cases: it frees the slot of a dial that has not got to the wire, and it zeroes
`gsock` in a slot whose thread owns the wire and has a verdict.  Every other slot keeps the number
of a socket that is gone.

* `Released`          the used slot of the socket is in one of the two cases;
* `close_releases`    close gives the number up exactly then, and for good;
* `refused_dial`      a failed dial, then close: the number stays in the table.
-/

namespace ShadowLan

namespace DtStream

/-- `dt_on_close` gives the slot's socket up -/
def Released (st : DtStream) : Prop :=
  (st.state ≠ .connecting ∧ st.fdLive = true) ∨ (st.state = .connecting ∧ st.fdLive = false)

instance (st : DtStream) : Decidable st.Released := by
  unfold Released
  infer_instance

theorem close_released {st : DtStream} (h : st.Released) :
    st.close.used = false ∨ st.close.gsock = 0 := by
  rcases h with h1 | ⟨hs, hl⟩
  · unfold close freeQueues
    dsimp only
    rw [if_pos h1]
    split_ifs
    · exact Or.inl rfl
    · exact Or.inr rfl
  · exact Or.inl (close_frees hs hl)

theorem close_kept {st : DtStream} (h : ¬ st.Released) :
    st.close.used = st.used ∧ st.close.gsock = st.gsock := by
  have h1 : ¬ (st.state ≠ .connecting ∧ st.fdLive = true) := fun hc => h (Or.inl hc)
  have h2 : ¬ (st.state = .connecting ∧ ¬ st.fdLive = true) :=
    fun hc => h (Or.inr ⟨hc.1, Bool.eq_false_iff.mpr hc.2⟩)
  unfold close
  dsimp only
  rw [if_neg h1, if_neg h2]
  exact ⟨rfl, rfl⟩

end DtStream

namespace StreamTable

/-! ## looking a socket up -/

theorem bySock_eq_some {T : StreamTable} {s : Nat} {i : Slot} (h : T.bySock s = some i) :
    s ≠ 0 ∧ (T.g_st i).used = true ∧ (T.g_st i).gsock = s := by
  unfold bySock at h
  by_cases hs : s = 0
  · rw [if_pos hs] at h; cases h
  · rw [if_neg hs] at h
    obtain ⟨hp, -⟩ := Fin.find?_eq_some_iff.mp h
    obtain ⟨hu, hg⟩ := Bool.and_eq_true_iff.mp hp
    exact ⟨hs, hu, beq_iff_eq.mp hg⟩

theorem bySock_eq_none {T : StreamTable} {s : Nat} :
    T.bySock s = none ↔ s ≠ 0 → ∀ i, (T.g_st i).used = true → (T.g_st i).gsock ≠ s := by
  unfold bySock
  by_cases hs : s = 0
  · rw [if_pos hs]
    exact ⟨fun _ h => absurd hs h, fun _ => rfl⟩
  · rw [if_neg hs, Fin.find?_eq_none_iff]
    constructor
    · intro h _ i hu hg
      have := h i
      rw [hu, hg, Bool.true_and, beq_self_eq_true] at this
      cases this
    · intro h i
      have := h hs i
      cases hu : (T.g_st i).used with
      | false => rfl
      | true => simpa using this hu

/-- every used slot of the socket is the one that is found, and `dt_on_close` gives it up -/
def Released (T : StreamTable) (s : Nat) : Prop :=
  s ≠ 0 → ∀ i, (T.g_st i).used = true → (T.g_st i).gsock = s →
    T.bySock s = some i ∧ (T.g_st i).Released

instance (T : StreamTable) (s : Nat) : Decidable (T.Released s) := by
  unfold Released
  infer_instance

theorem onClose_found {T : StreamTable} {s : Nat} {i : Slot} (h : T.bySock s = some i) :
    (T.onClose s).g_st = Function.update T.g_st i (T.g_st i).close := by
  unfold onClose onSlot
  rw [h]
  rfl

theorem onClose_missed {T : StreamTable} {s : Nat} (h : T.bySock s = none) :
    (T.onClose s).g_st = T.g_st := by
  unfold onClose onSlot
  rw [h]

/-- right after `dt_on_close` the socket is unknown exactly if its slot was released -/
theorem bySock_onClose (T : StreamTable) (s : Nat) :
    (T.onClose s).bySock s = none ↔ T.Released s := by
  cases hf : T.bySock s with
  | none =>
    have hnone := bySock_eq_none.mp hf
    rw [bySock_eq_none, onClose_missed hf]
    exact ⟨fun _ hs i hu hg => absurd hg (hnone hs i hu), fun _ => hnone⟩
  | some i =>
    obtain ⟨hs, hu, hg⟩ := bySock_eq_some hf
    rw [bySock_eq_none, onClose_found hf]
    constructor
    · intro h _ j huj hgj
      have hij : j = i := by
        by_contra hne
        have := h hs j
        rw [Function.update_of_ne hne] at this
        exact this huj hgj
      subst hij
      refine ⟨hf, ?_⟩
      by_contra hno
      obtain ⟨e1, e2⟩ := DtStream.close_kept hno
      have := h hs j
      rw [Function.update_self, e1, e2] at this
      exact this huj hgj
    · intro h _ j huj hgj
      by_cases hij : j = i
      · subst hij
        rw [Function.update_self] at huj hgj
        rcases DtStream.close_released (h hs j hu hg).2 with h1 | h1
        · rw [h1] at huj; cases huj
        · rw [h1] at hgj; exact hs hgj.symm
      · rw [Function.update_of_ne hij] at huj hgj
        have := (h hs j huj hgj).1
        rw [hf] at this
        exact hij (Option.some.inj this).symm

/-! ## nothing but a new connect brings a socket back -/

/-- no slot has the socket, and no connect of it is under way -/
def Forgotten (s : Nat) (T : StreamTable) : Prop :=
  (s ≠ 0 → ∀ i, (T.g_st i).used = true → (T.g_st i).gsock ≠ s) ∧ ∀ x ∈ T.pending, x.1 ≠ s

/-- slots that keep their identity do not bring a socket back -/
theorem Forgotten.keep {s : Nat} {T T' : StreamTable} (h : Forgotten s T)
    (hk : ∀ i, (T.g_st i).Keeps (T'.g_st i)) (hp : ∀ x ∈ T'.pending, x ∈ T.pending) :
    Forgotten s T' := by
  refine ⟨fun hs i hu hg => ?_, fun x hx => h.2 x (hp x hx)⟩
  have hu0 := (hk i).used hu
  rcases (hk i).gsock with e | e
  · exact h.1 hs i hu0 (e.symm.trans hg)
  · exact hs (hg.symm.trans e)

theorem Forgotten.alloc {s : Nat} {T : StreamTable} (h : Forgotten s T) {k sid s' : Nat}
    {dst : SockaddrIn} (hk : T.pending[k]? = some (s', dst)) :
    Forgotten s ({ T with pending := T.pending.eraseIdx k }.alloc s' dst sid) := by
  have hne : s' ≠ s := h.2 _ (List.mem_of_getElem? hk)
  have hp : ∀ x ∈ T.pending.eraseIdx k, x.1 ≠ s := fun x hx => h.2 x (List.mem_of_mem_eraseIdx hx)
  unfold StreamTable.alloc
  cases freeSlot { T with pending := T.pending.eraseIdx k } with
  | none => exact ⟨h.1, hp⟩
  | some i =>
    refine ⟨fun hs j hu hg => ?_, hp⟩
    have hu' : (Function.update T.g_st i ((T.g_st i).alloc s' dst sid) j).used = true := hu
    have hg' : (Function.update T.g_st i ((T.g_st i).alloc s' dst sid) j).gsock = s := hg
    by_cases hj : j = i
    · subst hj
      rw [Function.update_self] at hg'
      exact hne hg'
    · rw [Function.update_of_ne hj] at hu' hg'
      exact h.1 hs j hu' hg'

/-- a step brings a socket back only if it is a connect of that socket -/
theorem Forgotten.step {s : Nat} {T T' : StreamTable} {a : TableAct} (h : Forgotten s T)
    (hn : ∀ dst, a ≠ .connect s dst) (hstep : T.step a = some T') : Forgotten s T' := by
  cases a with
  | connect s' dst =>
    simp only [StreamTable.step] at hstep
    cases hf : T.bySock s' with
    | some i => rw [hf] at hstep; cases hstep; exact h
    | none =>
      rw [hf] at hstep; cases hstep
      refine ⟨h.1, fun x hx => ?_⟩
      rcases List.mem_append.mp hx with hx | hx
      · exact h.2 x hx
      · rw [List.mem_singleton.mp hx]
        rintro rfl
        exact hn dst rfl
  | alloc k sid =>
    simp only [StreamTable.step] at hstep
    cases hk : T.pending[k]? with
    | none => rw [hk] at hstep; cases hstep
    | some x =>
      obtain ⟨s', dst⟩ := x
      rw [hk] at hstep
      have e := Option.some.inj hstep
      rw [← e]; exact h.alloc hk
  | _ =>
    have hk := step_keeps hstep (by simp)
    exact h.keep hk.slots fun x hx => hk.pending (by simp) ▸ hx

theorem Forgotten.onClose {s : Nat} {T : StreamTable} (h : T.Released s)
    (hp : ∀ x ∈ T.pending, x.1 ≠ s) : Forgotten s (T.onClose s) := by
  refine ⟨bySock_eq_none.mp ((bySock_onClose T s).mpr h), fun x hx => ?_⟩
  have hx' : x ∈ (T.onSlot s DtStream.close).pending := hx
  rw [onSlot_pending] at hx'
  exact hp x hx'

/-! ## what the hooks answer -/

/-- `dt_on_connect` at its look at the table: `2` is `EALREADY` -/
def connectAnswer (T : StreamTable) (s : Nat) : Option Nat := (T.bySock s).map fun _ => 2

/-- `dt_stream_send`: `0` is not our stream -/
def sendAnswer (T : StreamTable) (s : Nat) (buf : List Byte) : Int :=
  (T.bySock s).elim 0 fun i => ((T.g_st i).send buf).2.1

/-- `dt_stream_pop` -/
def popAnswer (T : StreamTable) (s blen : Nat) : Int :=
  (T.bySock s).elim 0 fun i => ((T.g_st i).pop blen).2.1

/-- `dt_stream_has`: what `poll` and `select` see -/
def hasAnswer (T : StreamTable) (s : Nat) : Bool :=
  (T.bySock s).elim false fun i =>
    let st := T.g_st i
    !st.h.isEmpty || st.peerFin || st.rdShut || st.dead || st.state == .dead

/-- the socket is nobody's for every hook -/
def Unknown (T : StreamTable) (s : Nat) : Prop :=
  T.bySock s = none ∧ T.connectAnswer s = none ∧ (∀ buf, T.sendAnswer s buf = 0) ∧
    (∀ blen, T.popAnswer s blen = 0) ∧ T.hasAnswer s = false

theorem unknown_iff {T : StreamTable} {s : Nat} : T.Unknown s ↔ T.bySock s = none := by
  refine ⟨fun h => h.1, fun h => ⟨h, ?_, fun buf => ?_, fun blen => ?_, ?_⟩⟩
  · unfold connectAnswer; rw [h]; rfl
  · unfold sendAnswer; rw [h]; rfl
  · unfold popAnswer; rw [h]; rfl
  · unfold hasAnswer; rw [h]; rfl

/-- **`close()` gives the socket up exactly when its slot is released**, in every state of the
table; and then, unless a connect of the socket is under way, no run without a new connect of it
ever finds the socket again. -/
theorem close_releases (T : StreamTable) (s : Nat) :
    ((T.onClose s).Unknown s ↔ T.Released s) ∧
      (T.Released s → (∀ x ∈ T.pending, x.1 ≠ s) →
        ∀ tr T', Path step (T.onClose s) tr T' → (∀ x ∈ tr, ∀ dst, x.2 ≠ .connect s dst) →
          T'.Unknown s) := by
  refine ⟨unknown_iff.trans (bySock_onClose T s), fun hr hp tr T' hpath hno => ?_⟩
  have hf : Forgotten s T' := hpath.inv_of_ok (Forgotten.onClose hr hp)
    (fun _ _ _ hu hl hs => hu.step hl hs) hno
  exact unknown_iff.mpr (bySock_eq_none.mpr hf.1)

/-- the app dials on socket 7, and the dial of the relay goes the given way -/
def dialing (ok : Bool) : List TableAct :=
  [.connect 7 ⟨10, 80⟩, .alloc 0 1, .lookup 0, .thread 0 (.dial ok)]

/-- the relay confirms the stream -/
def confirming : List TableAct :=
  [.thread 0 .abortCheck, .thread 0 (.stopen true 5),
    .thread 0 (.verdict (some (DT_STOK, [0, 0, 0, 1])))]

set_option maxRecDepth 4000 in
/-- an open stream is closed and drained: its socket is free at once and stays free -/
theorem close_releases_open : ∃ T, run step init (dialing true ++ confirming) = some T ∧
    (T.onClose 7).Unknown 7 ∧
    ∀ tr T', Path step (T.onClose 7) tr T' → (∀ x ∈ tr, ∀ dst, x.2 ≠ .connect 7 dst) →
      T'.Unknown 7 := by
  have hrun : (run step init (dialing true ++ confirming)).isSome = true := by decide
  obtain ⟨T, hT⟩ := Option.isSome_iff_exists.mp hrun
  have hr : ∀ T ∈ run step init (dialing true ++ confirming),
      T.Released 7 ∧ ∀ x ∈ T.pending, x.1 ≠ 7 := by decide
  obtain ⟨h1, h2⟩ := hr T hT
  exact ⟨T, hT, (close_releases T 7).1.mpr h1, (close_releases T 7).2 h1 h2⟩

set_option maxRecDepth 4000 in
/-- the dial fails, the app closes the socket: a new socket 7 is still taken for the old one -/
theorem refused_dial : ∃ tr T, Path step init tr T ∧ (T.onClose 7).bySock 7 = some 0 ∧
    (T.onClose 7).connectAnswer 7 = some 2 ∧ (T.onClose 7).popAnswer 7 1 = -1 := by
  have hrun : (run step init (dialing false)).isSome = true := by decide
  obtain ⟨T, hT⟩ := Option.isSome_iff_exists.mp hrun
  have h : ∀ T ∈ run step init (dialing false), (T.onClose 7).bySock 7 = some 0 ∧
      (T.onClose 7).connectAnswer 7 = some 2 ∧ (T.onClose 7).popAnswer 7 1 = -1 := by
    decide
  exact ⟨_, T, path_run hT, h T hT⟩

end StreamTable

end ShadowLan
