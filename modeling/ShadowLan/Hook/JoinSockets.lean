import ShadowLan.Lib.Keyed
import ShadowLan.Hook.JoinThread

/-!
# Who closes the sockets of a hosted stream?

A joining thread has up to two sockets: the connection to the relay, which it knows alone until it puts
it into its row, and that of the game, which is in the row once the bridge is recorded.  `dt_hs_close`
frees the row under the lock and closes behind it, when the row may be another's already.

* `Tidy`                 sockets are closed by the thread that has opened them, and none is lost;
* `Sound`                what every step keeps as long as no thread loses its row;
* `Sound.turned`         one thread goes on, and the others see nothing of it;
* `sound_turn`, `sound_step`   by the moves of a thread, and by the steps;
* `hosted_sockets_iff`   runs are tidy exactly when no thread that records its bridge finds its row swept.
-/

namespace ShadowLan

namespace JoinHook

section
variable (S : JoinHook)

/-- the row that a sid finds -/
def rowOf (sid : Nat) : Option DtHosted := keyed S.g_hs DtHosted.key sid

/-- the sockets that a thread will close: those only it knows, and those in its row -/
def held (t : JoinThread) : List Nat :=
  t.pc.hand ++ if t.pc.serves then (S.rowOf t.sid).elim [] DtHosted.socks else []

/-- what a thread closes is its own, and what it has opened is not lost -/
structure Tidy : Prop where
  wrong : S.wrong = []
  held : ∀ s k, S.sockets s = some (.join k) → ∃ t, S.threads[k]? = some t ∧ s ∈ S.held t

/-- the row of a thread, by where the thread stands: it has a bridge from `told` on, and the thread's
connection from `pick` on -/
def Shape (row : Option DtHosted) : JoinPc → Prop
  | .dial | .join _ | .verdict _ | .bridge .. | .record .. => ∀ h ∈ row, h.live = false
  | .told _ | .joined _ => ∃ h ∈ row, ∃ real, h.live = true ∧ h.real = some real ∧ h.fd = none
  | .pick fd => ∃ h ∈ row, ∃ real, h.live = true ∧ h.real = some real ∧ h.fd = some fd
  | .pump fd real => ∃ h ∈ row, h.live = true ∧ h.real = some real ∧ h.fd = some fd
  | .close _ | .hs | .drop _ => True

/-- a stream is not asked for while it is served, or while a row that never got a thread is for it -/
def Fresh : JoinAct → Prop
  | .streq sid .. =>
    (∀ i, (S.g_hs i).key ≠ some sid) ∧ ∀ t ∈ S.threads, t.pc.serves = true → t.sid ≠ sid
  | _ => True

/-- a thread that records its bridge finds its row -/
def Kept : JoinAct → Prop
  | .turn k (.record _) => ∀ t ∈ S.threads[k]?, (S.bySid t.sid).isSome = true
  | _ => True

instance : (a : JoinAct) → Decidable (S.Fresh a)
  | .streq .. => inferInstanceAs (Decidable (_ ∧ _))
  | .turn .. | .sweep | .tick _ | .opened _ | .closed _ => instDecidableTrue

instance : (a : JoinAct) → Decidable (S.Kept a)
  | .turn k (.record _) => inferInstanceAs (Decidable (∀ t ∈ S.threads[k]?, _))
  | .turn _ (.dialed _) | .turn _ (.asked _) | .turn _ (.verdict _) | .turn _ (.bridge ..)
  | .turn _ (.told _) | .turn _ .joined | .turn _ .pick | .turn _ .leave | .turn _ .close
  | .turn _ .hs | .streq .. | .sweep | .tick _ | .opened _ | .closed _ => instDecidableTrue

end

variable {g_node : Nat} {S S' : JoinHook} {k s : Nat} {t t' : JoinThread} {m : JoinMove}

/-! ## rows -/

theorem key_eq_some {h : DtHosted} {sid : Nat} :
    h.key = some sid ↔ (h.used && h.sid == sid) = true := by
  unfold DtHosted.key
  rw [Option.ite_none_right_eq_some, Option.some.injEq, Bool.and_eq_true, beq_iff_eq]

theorem bySid_eq (S : JoinHook) (sid : Nat) :
    S.bySid sid = first S.g_hs fun h => h.key == some sid := by
  unfold bySid
  apply first_congr
  intro i
  exact Bool.eq_iff_iff.mpr (key_eq_some.symm.trans beq_iff_eq.symm)

theorem rowOf_eq_some {i : Fin DT_MAXHOST} {sid : Nat} (h : S.bySid sid = some i) :
    S.rowOf sid = some (S.g_hs i) ∧ (S.g_hs i).key = some sid := by
  rw [bySid_eq] at h
  have hrow : S.rowOf sid = some (S.g_hs i) := congrArg (Option.map S.g_hs) h
  exact ⟨hrow, keyed_key hrow⟩

theorem rowOf_eq_none {sid : Nat} : S.rowOf sid = none ↔ S.bySid sid = none := by
  rw [bySid_eq]
  exact Option.map_eq_none_iff

/-- what every step keeps that is `Kept` -/
structure Sound (S : JoinHook) : Prop where
  uniq : UniqueKeys S.g_hs DtHosted.key
  /-- a row that is not live has no sockets -/
  clean : ∀ sid h, S.rowOf sid = some h → h.live = false → h.socks = []
  apart : ∀ (k k' : Nat) (t t' : JoinThread), S.threads[k]? = some t → S.threads[k']? = some t' → t.pc.serves = true →
    t'.pc.serves = true → t.sid = t'.sid → k = k'
  shape : ∀ (k : Nat) (t : JoinThread), S.threads[k]? = some t → Shape (S.rowOf t.sid) t.pc
  nodup : ∀ (k : Nat) (t : JoinThread), S.threads[k]? = some t → (S.held t).Nodup
  own : ∀ s k, S.sockets s = some (.join k) ↔ ∃ t, S.threads[k]? = some t ∧ s ∈ S.held t
  wrong : S.wrong = []

theorem Sound.tidy (h : S.Sound) : S.Tidy := ⟨h.wrong, fun s k => (h.own s k).mp⟩

/-- the table after a step of thread `t`, which may have changed its own row -/
structure Turned (S S' : JoinHook) (t : JoinThread) : Prop where
  uniq : UniqueKeys S'.g_hs DtHosted.key
  clean : ∀ sid h, S'.rowOf sid = some h → h.live = false → h.socks = []
  rows : ∀ sid, S'.rowOf sid = S.rowOf sid ∨ sid = t.sid ∧ t.pc.serves = true

theorem Sound.still (h : S.Sound) (t : JoinThread) (hg : S'.g_hs = S.g_hs) : Turned S S' t := by
  have hrow : ∀ sid, S'.rowOf sid = S.rowOf sid := fun sid => by rw [rowOf, rowOf, hg]
  refine ⟨hg ▸ h.uniq, fun sid r hr => ?_, fun sid => Or.inl (hrow sid)⟩
  rw [hrow] at hr
  exact h.clean sid r hr

/-- one thread goes on: the others see nothing of it -/
theorem Sound.turned (h : S.Sound) (ht : S.threads[k]? = some t)
    (hth : S'.threads = S.threads.set k t') (hsid : t'.sid = t.sid)
    (hserves : t'.pc.serves = true → t.pc.serves = true) (hrows : Turned S S' t)
    (hshape : Shape (S'.rowOf t.sid) t'.pc) (hnodup : (S'.held t').Nodup)
    (hown : ∀ s, S'.sockets s = some (.join k) ↔ s ∈ S'.held t')
    (hothers : ∀ s j, j ≠ k → (S'.sockets s = some (.join j) ↔ S.sockets s = some (.join j)))
    (hwrong : S'.wrong = []) : S'.Sound := by
  have hk : k < S.threads.length := (List.getElem?_eq_some_iff.mp ht).1
  have hself : S'.threads[k]? = some t' := by
    rw [hth, List.getElem?_set_self hk]
  have hother : ∀ j, j ≠ k → S'.threads[j]? = S.threads[j]? := by
    intro j hj
    rw [hth, List.getElem?_set_ne hj.symm]
  -- the row of another thread is not the one that changes
  have hrow : ∀ j u, j ≠ k → S.threads[j]? = some u → u.pc.serves = true →
      S'.rowOf u.sid = S.rowOf u.sid := by
    intro j u hj hu hsu
    rcases hrows.rows u.sid with hr | ⟨hr, hst⟩
    · exact hr
    · exact absurd (h.apart j k u t hu ht hsu hst hr) hj
  have hheld : ∀ j u, j ≠ k → S.threads[j]? = some u → S'.held u = S.held u := by
    intro j u hj hu
    unfold held
    cases hsu : u.pc.serves with
    | true => rw [hrow j u hj hu hsu]
    | false => rfl
  refine ⟨hrows.uniq, hrows.clean, ?_, ?_, ?_, ?_, hwrong⟩
  · intro a b u v ha hb hsu hsv hs
    by_cases hak : a = k <;> by_cases hbk : b = k
    · rw [hak, hbk]
    · subst hak
      rw [hself] at ha
      rw [hother b hbk] at hb
      cases ha
      exact h.apart a b t v ht hb (hserves hsu) hsv (hsid.symm.trans hs)
    · subst hbk
      rw [hother a hak] at ha
      rw [hself] at hb
      cases hb
      exact h.apart a b u t ha ht hsu (hserves hsv) (hs.trans hsid)
    · rw [hother a hak] at ha
      rw [hother b hbk] at hb
      exact h.apart a b u v ha hb hsu hsv hs
  · intro j u hu
    by_cases hj : j = k
    · subst hj
      rw [hself] at hu
      cases hu
      rw [hsid]
      exact hshape
    · rw [hother j hj] at hu
      have hs := h.shape j u hu
      cases hsu : u.pc.serves with
      | true =>
        rw [hrow j u hj hu hsu]
        exact hs
      | false =>
        cases hpc : u.pc with
        | drop l => trivial
        | _ => rw [hpc] at hsu; cases hsu
  · intro j u hu
    by_cases hj : j = k
    · subst hj
      rw [hself] at hu
      cases hu
      exact hnodup
    · rw [hother j hj] at hu
      rw [hheld j u hj hu]
      exact h.nodup j u hu
  · intro s j
    by_cases hj : j = k
    · subst hj
      rw [hown, hself]
      simp
    · rw [hothers s j hj, h.own, hother j hj]
      constructor
      · rintro ⟨u, hu, hs⟩
        exact ⟨u, hu, (hheld j u hj hu).symm ▸ hs⟩
      · rintro ⟨u, hu, hs⟩
        exact ⟨u, hu, hheld j u hj hu ▸ hs⟩

theorem Sound.mine (h : S.Sound) (ht : S.threads[k]? = some t) (s : Nat) :
    S.sockets s = some (.join k) ↔ s ∈ S.held t := by
  rw [h.own, ht]
  simp

/-- a thread goes on with the sockets that it has, and may put them elsewhere -/
theorem Sound.refiles (h : S.Sound) (ht : S.threads[k]? = some t)
    (hth : S'.threads = S.threads.set k t') (hsid : t'.sid = t.sid)
    (hserves : t'.pc.serves = true → t.pc.serves = true) (hrows : Turned S S' t)
    (hshape : Shape (S'.rowOf t.sid) t'.pc) (hheld : (S'.held t').Perm (S.held t))
    (hsock : S'.sockets = S.sockets) (hwrong : S'.wrong = S.wrong) : S'.Sound := by
  refine h.turned ht hth hsid hserves hrows hshape ?_ (fun s => ?_) (fun _ _ _ => by rw [hsock])
    (hwrong.trans h.wrong)
  · exact hheld.nodup_iff.mpr (h.nodup k t ht)
  · rw [hsock, hheld.mem_iff]
    exact h.mine ht s

theorem Sound.walks (h : S.Sound) (ht : S.threads[k]? = some t) (hsid : t'.sid = t.sid)
    (hserves : t'.pc.serves = true → t.pc.serves = true) (hheld : S.held t' = S.held t)
    (hshape : Shape (S.rowOf t.sid) t'.pc) : (S.goes k t').Sound :=
  h.refiles ht rfl hsid hserves (h.still t rfl) hshape (List.Perm.of_eq hheld) rfl rfl

/-- a thread has a new socket -/
theorem Sound.opens (h : S.Sound) (ht : S.threads[k]? = some t) (hnew : S.sockets s = none)
    (hsid : t'.sid = t.sid) (hserves : t'.pc.serves = true → t.pc.serves = true)
    (hheld : (S.held t').Perm (s :: S.held t)) (hshape : Shape (S.rowOf t.sid) t'.pc) :
    ({ S with sockets := Function.update S.sockets s (some (.join k)) }.goes k t').Sound := by
  have hno : s ∉ S.held t := by
    intro hs
    have ho := (h.mine ht s).mpr hs
    rw [hnew] at ho
    cases ho
  refine h.turned ht rfl hsid hserves (h.still t rfl) hshape ?_ (fun s' => ?_) (fun s' j hj => ?_)
    h.wrong
  · show (S.held t').Nodup
    exact hheld.nodup_iff.mpr (List.nodup_cons.mpr ⟨hno, h.nodup k t ht⟩)
  · show Function.update S.sockets s (some (.join k)) s' = _ ↔ s' ∈ S.held t'
    rw [hheld.mem_iff, List.mem_cons]
    by_cases hs : s' = s
    · rw [hs, Function.update_self]
      exact iff_of_true rfl (Or.inl rfl)
    · rw [Function.update_of_ne hs, h.mine ht]
      exact (or_iff_right hs).symm
  · show Function.update S.sockets s (some (.join k)) s' = _ ↔ _
    by_cases hs : s' = s
    · rw [hs, Function.update_self, hnew]
      refine iff_of_false (fun he => hj ?_) nofun
      exact (SockOwner.join.inj (Option.some.inj he)).symm
    · rw [Function.update_of_ne hs]

/-- a thread closes a socket of its own -/
theorem Sound.closes (h : S.Sound) (ht : S.threads[k]? = some t) (hsid : t'.sid = t.sid)
    (hserves : t'.pc.serves = true → t.pc.serves = true) (hheld : S.held t = s :: S.held t')
    (hshape : Shape (S.rowOf t.sid) t'.pc) : (S.closes k s t').Sound := by
  have hmine : S.sockets s = some (.join k) :=
    (h.mine ht s).mpr (hheld ▸ List.mem_cons_self)
  have hnd := h.nodup k t ht
  rw [hheld] at hnd
  obtain ⟨hno, hnd⟩ := List.nodup_cons.mp hnd
  refine h.turned ht rfl hsid hserves (h.still t rfl) hshape hnd (fun s' => ?_) (fun s' j hj => ?_) ?_
  · show Function.update S.sockets s none s' = _ ↔ s' ∈ S.held t'
    by_cases hs : s' = s
    · rw [hs, Function.update_self]
      exact iff_of_false nofun hno
    · rw [Function.update_of_ne hs, h.mine ht, hheld, List.mem_cons]
      exact or_iff_right hs
  · show Function.update S.sockets s none s' = _ ↔ _
    by_cases hs : s' = s
    · rw [hs, Function.update_self, hmine]
      refine iff_of_false nofun fun he => hj ?_
      exact (SockOwner.join.inj (Option.some.inj he)).symm
    · rw [Function.update_of_ne hs]
  · show (if S.sockets s = some (SockOwner.join k) then S.wrong else S.wrong ++ [(k, s)]) = []
    rw [if_pos hmine]
    exact h.wrong

/-- the row of a thread is written -/
theorem Sound.written (h : S.Sound) {i : Fin DT_MAXHOST} {r : DtHosted} (hi : S.bySid t.sid = some i)
    (hserves : t.pc.serves = true) (hkey : r.key = some t.sid) (hlive : r.live = true) :
    Turned S (S.setHs i r) t ∧ (S.setHs i r).rowOf t.sid = some r := by
  have hki := (rowOf_eq_some hi).2
  have hself : (S.setHs i r).rowOf t.sid = some r := keyed_update_self hkey (h.uniq.alone hki)
  have hrow : ∀ sid, sid ≠ t.sid → (S.setHs i r).rowOf sid = S.rowOf sid := by
    intro sid hs
    apply keyed_update_other
    · rw [hki]
      exact fun he => hs (Option.some.inj he).symm
    · rw [hkey]
      exact fun he => hs (Option.some.inj he).symm
  refine ⟨⟨?_, fun sid r' hr hl => ?_, fun sid => ?_⟩, hself⟩
  · apply h.uniq.update
    intro sid hs
    rw [hkey] at hs
    rw [← Option.some.inj hs]
    exact h.uniq.alone hki
  · by_cases hs : sid = t.sid
    · rw [hs, hself] at hr
      rw [← Option.some.inj hr, hlive] at hl
      cases hl
    · rw [hrow sid hs] at hr
      exact h.clean sid r' hr hl
  · by_cases hs : sid = t.sid
    · exact Or.inr ⟨hs, hserves⟩
    · exact Or.inl (hrow sid hs)

/-- the row of a thread is given back -/
theorem Sound.freed (h : S.Sound) {i : Fin DT_MAXHOST} {r : DtHosted} (hi : S.bySid t.sid = some i)
    (hserves : t.pc.serves = true) (hkey : r.key = none) : Turned S (S.setHs i r) t := by
  have hki := (rowOf_eq_some hi).2
  have hrow : ∀ sid, sid ≠ t.sid → (S.setHs i r).rowOf sid = S.rowOf sid := by
    intro sid hs
    apply keyed_update_other
    · rw [hki]
      exact fun he => hs (Option.some.inj he).symm
    · rw [hkey]
      exact nofun
  have hself : (S.setHs i r).rowOf t.sid = none := keyed_update_free hkey (h.uniq.alone hki)
  refine ⟨?_, fun sid r' hr hl => ?_, fun sid => ?_⟩
  · apply h.uniq.update
    intro sid hs
    rw [hkey] at hs
    cases hs
  · by_cases hs : sid = t.sid
    · rw [hs, hself] at hr
      cases hr
    · rw [hrow sid hs] at hr
      exact h.clean sid r' hr hl
  · by_cases hs : sid = t.sid
    · exact Or.inr ⟨hs, hserves⟩
    · exact Or.inl (hrow sid hs)

theorem key_of_used {h r : DtHosted} {sid : Nat} (hk : h.key = some sid) (hu : r.used = h.used)
    (hs : r.sid = h.sid) : r.key = some sid := by
  unfold DtHosted.key at hk ⊢
  rw [hu, hs]
  exact hk

theorem socks_eq_nil {h : DtHosted} (hs : h.socks = []) : h.real = none ∧ h.fd = none := by
  obtain ⟨hr, hf⟩ := List.append_eq_nil_iff.mp hs
  exact ⟨Option.toList_eq_nil_iff.mp hr, Option.toList_eq_nil_iff.mp hf⟩

/-! ## a thread goes on -/

/-- a thread whose row is not live has only what is in its hand -/
theorem Sound.held_idle (h : S.Sound) (hrow : ∀ r ∈ S.rowOf t.sid, r.live = false) :
    S.held t = t.pc.hand := by
  unfold held
  cases hr : S.rowOf t.sid with
  | none => simp
  | some r => simp [h.clean t.sid r hr (hrow r hr)]

theorem sound_turn (h : S.Sound) (ht : S.threads[k]? = some t) (hs : Turns g_node S k t m S')
    (hkept : ∀ lport, m = .record lport → (S.bySid t.sid).isSome = true) : S'.Sound := by
  have hshape := h.shape k t ht
  cases hs with
  | noRelay hpc =>
    rw [hpc] at hshape
    refine h.walks ht rfl (fun _ => by rw [hpc]; rfl) ?_ trivial
    simp [held, hpc, JoinPc.hand, JoinPc.serves]
  | dialed hpc hnew =>
    rw [hpc] at hshape
    refine h.opens ht hnew rfl (fun _ => by rw [hpc]; rfl) ?_ hshape
    simp [held, hpc, JoinPc.hand, JoinPc.serves]
  | @asked fd ok hpc =>
    rw [hpc] at hshape
    refine h.walks ht rfl (fun _ => by rw [hpc]; rfl) ?_ ?_
    · cases ok <;> simp [held, hpc, JoinPc.hand, JoinPc.serves]
    · cases ok
      · trivial
      · exact hshape
  | @verdict fd frame hpc =>
    rw [hpc] at hshape
    refine h.walks ht rfl (fun _ => by rw [hpc]; rfl) ?_ ?_
    · dsimp only [held]
      split <;> simp [hpc, JoinPc.hand, JoinPc.serves]
    · dsimp only
      split
      · exact hshape
      · trivial
  | givesUp hpc hleft =>
    refine h.walks ht rfl (fun _ => by rw [hpc]; rfl) ?_ trivial
    simp [held, hpc, JoinPc.hand, JoinPc.serves]
  | refused hpc hleft =>
    rw [hpc] at hshape
    refine h.walks ht rfl (fun _ => by rw [hpc]; rfl) ?_ hshape
    simp [held, hpc, JoinPc.hand, JoinPc.serves]
  | @taken fd left al port s hpc hnew =>
    rw [hpc] at hshape
    refine h.opens ht hnew rfl (fun _ => by rw [hpc]; rfl) ?_ hshape
    simp only [held, hpc, JoinPc.hand, JoinPc.serves]
    exact List.Perm.swap s fd _
  | @record fd s lport hpc =>
    rw [hpc] at hshape
    obtain ⟨i, hi⟩ := Option.isSome_iff_exists.mp (hkept lport rfl)
    obtain ⟨hrow, hkey⟩ := rowOf_eq_some hi
    have hsv : t.pc.serves = true := by rw [hpc]; rfl
    have hnone := socks_eq_nil (h.clean _ _ hrow (hshape _ hrow))
    have hon : (S.onHs t.sid fun r =>
        { r with real := some s, live := true, last := S.now, lport := lport }) = S.setHs i
          { S.g_hs i with real := some s, live := true, last := S.now, lport := lport } := by
      unfold onHs
      rw [hi]
    rw [hon]
    obtain ⟨hturned, hself⟩ := h.written (r :=
      { S.g_hs i with real := some s, live := true, last := S.now, lport := lport }) hi hsv
      (key_of_used hkey rfl rfl) rfl
    refine h.refiles ht rfl rfl (fun _ => hsv) ⟨hturned.uniq, hturned.clean, hturned.rows⟩
      ⟨_, hself, s, rfl, rfl, hnone.2⟩ ?_ rfl rfl
    have hold : S.held t = [fd, s] := by
      rw [h.held_idle hshape, hpc]
      rfl
    have hnew : (S.setHs i { S.g_hs i with
        real := some s, live := true, last := S.now, lport := lport }).held
          { t with pc := .told fd } = [fd, s] := by
      unfold held
      dsimp only
      rw [hself]
      simp [JoinPc.hand, JoinPc.serves, DtHosted.socks, hnone.2]
    exact List.Perm.of_eq (hnew.trans hold.symm)
  | @told fd ok hpc =>
    rw [hpc] at hshape
    refine h.walks ht rfl (fun _ => by rw [hpc]; rfl) ?_ ?_
    · cases ok <;> simp [held, hpc, JoinPc.hand, JoinPc.serves]
    · cases ok
      · trivial
      · exact hshape
  | @joined fd hpc =>
    rw [hpc] at hshape
    obtain ⟨r, hrow, real, hlive, hreal, hfd⟩ := hshape
    have hsome : S.bySid t.sid ≠ none := fun hno => by
      rw [rowOf_eq_none.mpr hno] at hrow
      cases hrow
    obtain ⟨i, hi⟩ := Option.ne_none_iff_exists'.mp hsome
    obtain ⟨hrow', hkey⟩ := rowOf_eq_some hi
    have hr : S.g_hs i = r := Option.some.inj (hrow'.symm.trans hrow)
    have hsv : t.pc.serves = true := by rw [hpc]; rfl
    have hon : (S.onHs t.sid fun r => { r with fd := some fd })
        = S.setHs i { S.g_hs i with fd := some fd } := by
      unfold onHs
      rw [hi]
    rw [hon, hr]
    obtain ⟨hturned, hself⟩ := h.written (r := { r with fd := some fd }) hi hsv
      (key_of_used hkey (by rw [hr]) (by rw [hr])) hlive
    refine h.refiles ht rfl rfl (fun _ => hsv) ⟨hturned.uniq, hturned.clean, hturned.rows⟩
      ⟨_, hself, real, hlive, hreal, rfl⟩ ?_ rfl rfl
    have hold : S.held t = [fd, real] := by
      unfold held
      rw [hrow]
      simp [hpc, JoinPc.hand, JoinPc.serves, DtHosted.socks, hreal, hfd]
    have hnew : (S.setHs i { r with fd := some fd }).held { t with pc := .pick fd } = [real, fd] := by
      unfold held
      dsimp only
      rw [hself]
      simp [JoinPc.hand, JoinPc.serves, DtHosted.socks, hreal]
    show ((S.setHs i { r with fd := some fd }).held { t with pc := .pick fd }).Perm (S.held t)
    rw [hnew, hold]
    exact List.Perm.swap fd real []
  | @pick fd real i hpc hi hreal =>
    rw [hpc] at hshape
    obtain ⟨r, hrow, -, hlive, -, hfd⟩ := hshape
    have hr : S.g_hs i = r := Option.some.inj ((rowOf_eq_some hi).1.symm.trans hrow)
    refine h.walks ht rfl (fun _ => by rw [hpc]; rfl) ?_ ⟨r, hrow, hlive, hr ▸ hreal, hfd⟩
    simp [held, hpc, JoinPc.hand, JoinPc.serves]
  | @noReal fd hpc hno =>
    rw [hpc] at hshape
    obtain ⟨r, hrow, real, -, hreal, -⟩ := hshape
    obtain ⟨i, hi, hr⟩ := Option.map_eq_some_iff.mp hrow
    rw [bySid_eq, hi] at hno
    rw [← hr] at hreal
    exact absurd (hreal.symm.trans hno) nofun
  | leave hpc =>
    refine h.walks ht rfl (fun _ => by rw [hpc]; rfl) ?_ trivial
    simp [held, hpc, JoinPc.hand, JoinPc.serves]
  | close hpc =>
    refine h.closes ht rfl (fun _ => by rw [hpc]; rfl) ?_ trivial
    simp [held, hpc, JoinPc.hand, JoinPc.serves]
  | drop hpc =>
    refine h.closes ht rfl nofun ?_ trivial
    simp [held, hpc, JoinPc.hand, JoinPc.serves]
  | @hs i hpc hi =>
    have hsv : t.pc.serves = true := by rw [hpc]; rfl
    have hturned := h.freed (r := { S.g_hs i with used := false, real := none, fd := none }) hi hsv rfl
    refine h.refiles ht rfl rfl nofun ⟨hturned.uniq, hturned.clean, hturned.rows⟩ trivial ?_ rfl rfl
    have hold : S.held t = (S.g_hs i).socks := by
      unfold held
      rw [(rowOf_eq_some hi).1, hpc]
      rfl
    rw [hold]
    exact List.Perm.of_eq (List.append_nil _)
  | gone hpc hno =>
    refine h.walks ht rfl nofun ?_ trivial
    unfold held
    rw [hpc, rowOf_eq_none.mpr hno]
    rfl

/-! ## the other steps -/

/-- the rows of the threads are as they were, up to rows without sockets -/
theorem Sound.others (h : S.Sound) (hth : S'.threads = S.threads)
    (huniq : UniqueKeys S'.g_hs DtHosted.key)
    (hclean : ∀ sid r, S'.rowOf sid = some r → r.live = false → r.socks = [])
    (hrow : ∀ t ∈ S.threads, t.pc.serves = true → S'.rowOf t.sid = S.rowOf t.sid ∨
      S'.rowOf t.sid = none ∧ ∃ r, S.rowOf t.sid = some r ∧ r.live = false)
    (hsock : ∀ s k, S'.sockets s = some (.join k) ↔ S.sockets s = some (.join k))
    (hwrong : S'.wrong = S.wrong) : S'.Sound := by
  have hheld : ∀ t ∈ S.threads, S'.held t = S.held t := by
    intro t ht
    unfold held
    cases hsv : t.pc.serves with
    | false => rfl
    | true =>
      rcases hrow t ht hsv with hr | ⟨hn, r, hr, hl⟩
      · rw [hr]
      · rw [hn, hr]
        exact congrArg (t.pc.hand ++ ·) (h.clean _ _ hr hl).symm
  refine ⟨huniq, hclean, ?_, fun k t ht => ?_, fun k t ht => ?_, fun s k => ?_, hwrong.trans h.wrong⟩
  · rw [hth]
    exact h.apart
  · rw [hth] at ht
    have hs := h.shape k t ht
    cases hsv : t.pc.serves with
    | false =>
      cases hpc : t.pc with
      | drop l => trivial
      | _ => rw [hpc] at hsv; cases hsv
    | true =>
      rcases hrow t (List.mem_of_getElem? ht) hsv with hr | ⟨hn, r, hr, hl⟩
      · rw [hr]
        exact hs
      · rw [hn]
        rw [hr] at hs
        cases hpc : t.pc with
        | dial | join | verdict | bridge | record => exact nofun
        | close | hs | drop => trivial
        | told | joined | pick =>
          rw [hpc] at hs
          obtain ⟨r', hr', _, hlive, -⟩ := hs
          rw [← Option.mem_some_iff.mp hr', hl] at hlive
          cases hlive
        | pump =>
          rw [hpc] at hs
          obtain ⟨r', hr', hlive, -⟩ := hs
          rw [← Option.mem_some_iff.mp hr', hl] at hlive
          cases hlive
  · rw [hth] at ht
    rw [hheld t (List.mem_of_getElem? ht)]
    exact h.nodup k t ht
  · rw [hsock, h.own, hth]
    constructor
    · rintro ⟨t, ht, hs⟩
      exact ⟨t, ht, (hheld t (List.mem_of_getElem? ht)).symm ▸ hs⟩
    · rintro ⟨t, ht, hs⟩
      exact ⟨t, ht, hheld t (List.mem_of_getElem? ht) ▸ hs⟩

theorem Sound.app (h : S.Sound) {o : Option SockOwner} (ho : ∀ k, o ≠ some (.join k))
    (hold : ∀ k, S.sockets s ≠ some (.join k)) :
    Sound { S with sockets := Function.update S.sockets s o } := by
  refine h.others rfl h.uniq h.clean (fun _ _ _ => Or.inl rfl) (fun s' k => ?_) rfl
  show Function.update S.sockets s o s' = _ ↔ _
  by_cases hs : s' = s
  · rw [hs, Function.update_self]
    exact iff_of_false (ho k) (hold k)
  · rw [Function.update_of_ne hs]

theorem swept_key (r : DtHosted) : (S.swept r).key = r.key ∨ (S.swept r).key = none := by
  unfold swept
  split
  · exact Or.inr rfl
  · exact Or.inl rfl

theorem swept_eq {r : DtHosted} (h : (S.swept r).key ≠ none) : S.swept r = r := by
  unfold swept at h ⊢
  split
  · rename_i hc
    rw [if_pos hc] at h
    exact absurd rfl h
  · rfl

theorem Sound.sweeps (h : S.Sound) : Sound { S with g_hs := fun i => S.swept (S.g_hs i) } := by
  have hrow : ∀ sid, keyed (fun i => S.swept (S.g_hs i)) DtHosted.key sid
      = ((S.rowOf sid).map S.swept).filter fun r => r.key.isSome :=
    fun sid => keyed_map h.uniq swept_key
  refine h.others rfl (h.uniq.map swept_key) (fun sid r hr hl => ?_) (fun t _ _ => ?_)
    (fun _ _ => Iff.rfl) rfl
  · have hr : keyed (fun i => S.swept (S.g_hs i)) DtHosted.key sid = some r := hr
    rw [hrow] at hr
    obtain ⟨hm, hk⟩ := Option.filter_eq_some_iff.mp hr
    obtain ⟨r₀, hr₀, rfl⟩ := Option.map_eq_some_iff.mp hm
    have heq := swept_eq (S := S) (Option.isSome_iff_ne_none.mp hk)
    rw [heq] at hl ⊢
    exact h.clean sid r₀ hr₀ hl
  · show keyed (fun i => S.swept (S.g_hs i)) DtHosted.key t.sid = _ ∨ _
    rw [hrow]
    cases hr : S.rowOf t.sid with
    | none => exact Or.inl rfl
    | some r =>
      cases hk : (S.swept r).key with
      | some sid =>
        have heq := swept_eq (S := S) (r := r) (by rw [hk]; exact nofun)
        refine Or.inl ?_
        rw [Option.map_some, heq]
        rw [heq] at hk
        exact Option.filter_eq_some_iff.mpr ⟨rfl, by rw [hk]; rfl⟩
      | none =>
        refine Or.inr ⟨?_, r, rfl, ?_⟩
        · show keyed (fun i => S.swept (S.g_hs i)) DtHosted.key t.sid = none
          rw [hrow, hr, Option.map_some, Option.filter_eq_none_iff]
          intro r' hr'
          rw [← Option.some.inj hr', hk]
          exact nofun
        · have hkey : r.key ≠ none := by
            rw [keyed_key hr]
            exact nofun
          unfold swept at hk
          split at hk
          · rename_i hc
            exact Bool.eq_false_iff.mpr hc.2.1
          · exact absurd hk hkey

/-- a thread is added whose sid no other has -/
theorem Sound.appends (h : S.Sound) (hnew : ∀ u ∈ S.threads, u.pc.serves = true → u.sid ≠ t.sid)
    (hshape : Shape (S.rowOf t.sid) t.pc) (hheld : S.held t = []) :
    Sound { S with threads := S.threads ++ [t] } := by
  have hget : ∀ {k : Nat} {u : JoinThread}, (S.threads ++ [t])[k]? = some u →
      S.threads[k]? = some u ∨ k = S.threads.length ∧ u = t := by
    intro k u hu
    rcases Nat.lt_or_ge k S.threads.length with hk | hk
    · rw [List.getElem?_append_left hk] at hu
      exact Or.inl hu
    · rw [List.getElem?_append_right hk] at hu
      rw [List.getElem?_singleton] at hu
      obtain ⟨hk', hu⟩ := Option.ite_none_right_eq_some.mp hu
      exact Or.inr ⟨by omega, (Option.some.inj hu).symm⟩
  refine ⟨h.uniq, h.clean, ?_, fun k u hu => ?_, fun k u hu => ?_, fun s k => ?_, h.wrong⟩
  · intro a b u v ha hb hsu hsv hs
    rcases hget ha with hu | ⟨rfl, rfl⟩ <;> rcases hget hb with hv | ⟨rfl, rfl⟩
    · exact h.apart a b u v hu hv hsu hsv hs
    · exact absurd hs (hnew u (List.mem_of_getElem? hu) hsu)
    · exact absurd hs.symm (hnew v (List.mem_of_getElem? hv) hsv)
    · rfl
  · rcases hget hu with hu | ⟨-, rfl⟩
    · exact h.shape k u hu
    · exact hshape
  · rcases hget hu with hu | ⟨-, rfl⟩
    · exact h.nodup k u hu
    · show (S.held u).Nodup
      rw [hheld]
      exact List.nodup_nil
  · show S.sockets s = _ ↔ _
    rw [h.own]
    constructor
    · rintro ⟨u, hu, hs⟩
      exact ⟨u, by rw [List.getElem?_append_left (List.getElem?_eq_some_iff.mp hu).1, hu], hs⟩
    · rintro ⟨u, hu, hs⟩
      rcases hget hu with hu | ⟨-, rfl⟩
      · exact ⟨u, hu, hs⟩
      · have hs : s ∈ S.held u := hs
        rw [hheld] at hs
        cases hs

/-- a free row is taken for a stream that is not served -/
theorem Sound.takes (h : S.Sound) {i : Fin DT_MAXHOST} {r : DtHosted} {sid : Nat}
    (hfree : (S.g_hs i).key = none) (hrow : ∀ j, (S.g_hs j).key ≠ some sid)
    (hnew : ∀ u ∈ S.threads, u.pc.serves = true → u.sid ≠ sid) (hkey : r.key = some sid)
    (hsocks : r.socks = []) : (S.setHs i r).Sound ∧ (S.setHs i r).rowOf sid = some r := by
  have hself : (S.setHs i r).rowOf sid = some r := keyed_update_self hkey fun j _ => hrow j
  have hother : ∀ sid', sid' ≠ sid → (S.setHs i r).rowOf sid' = S.rowOf sid' := by
    intro sid' hs
    apply keyed_update_other
    · rw [hfree]
      exact nofun
    · rw [hkey]
      exact fun he => hs (Option.some.inj he).symm
  refine ⟨h.others rfl ?_ (fun sid' r' hr hl => ?_) (fun u hu hsv => Or.inl ?_) (fun _ _ => Iff.rfl)
    rfl, hself⟩
  · apply h.uniq.update
    intro sid' hs j _
    rw [hkey] at hs
    rw [← Option.some.inj hs]
    exact hrow j
  · by_cases hs : sid' = sid
    · rw [hs, hself] at hr
      rw [← Option.some.inj hr]
      exact hsocks
    · rw [hother sid' hs] at hr
      exact h.clean sid' r' hr hl
  · exact hother u.sid (hnew u hu hsv)

theorem sound_streq (h : S.Sound) {sid gport ovirt : Nat} {g_lports : ListenTable}
    {mem spawns : Bool} (hf : S.Fresh (.streq sid gport ovirt g_lports mem spawns)) :
    (S.streq sid gport ovirt g_lports mem spawns).Sound := by
  unfold streq
  split
  · cases hi : first S.g_hs fun r => !r.used with
    | none => exact h
    | some i =>
      have hfree : (S.g_hs i).key = none := by
        unfold DtHosted.key
        rw [if_neg (by simpa using first_mem hi)]
      obtain ⟨hsound, hself⟩ := h.takes (r := { S.g_hs i with
        used := true, sid := sid, real := none, fd := none, live := false, dead := false,
        last := S.now, ovirt := ovirt, gport := gport, lport := 0 }) hfree hf.1 hf.2 rfl rfl
      dsimp only
      split
      · refine hsound.appends (t := ⟨sid, gport, .hs, [], none, []⟩) hf.2 trivial ?_
        unfold held
        dsimp only
        rw [hself]
        rfl
      · split
        · refine hsound.appends (t := ⟨sid, gport, .dial, [], none, []⟩) hf.2 ?_ ?_
          · rintro r hr
            rw [hself] at hr
            rw [← Option.some.inj hr]
          · unfold held
            dsimp only
            rw [hself]
            rfl
        · exact hsound
  · exact h

theorem sound_init : init.Sound where
  uniq := fun _ _ _ hi => absurd hi nofun
  clean := fun sid r hr => by
    have hno : init.rowOf sid = none := keyed_eq_none_iff.mpr fun _ => nofun
    rw [hno] at hr
    cases hr
  apart := nofun
  shape := nofun
  nodup := nofun
  own := fun _ _ => iff_of_false nofun fun ⟨_, ht, _⟩ => absurd ht nofun
  wrong := rfl

theorem sound_step {a : JoinAct} (h : S.Sound) (hf : S.Fresh a) (hk : S.Kept a)
    (hs : S.step g_node a = some S') : S'.Sound := by
  cases a with
  | streq sid gport ovirt g_lports mem spawns =>
    rw [← Option.some.inj hs]
    exact sound_streq h hf
  | turn k m =>
    obtain ⟨t, ht, hs⟩ := Option.bind_eq_some_iff.mp hs
    refine sound_turn h ht (turn_cases hs) ?_
    rintro lport rfl
    exact hk t ht
  | sweep =>
    rw [← Option.some.inj hs]
    exact h.sweeps
  | tick ms =>
    rw [← Option.some.inj hs]
    exact h.others rfl h.uniq h.clean (fun _ _ _ => Or.inl rfl) (fun _ _ => Iff.rfl) rfl
  | opened s =>
    obtain ⟨hno, hs⟩ := Option.ite_none_right_eq_some.mp hs
    rw [← Option.some.inj hs]
    exact h.app nofun fun k => by rw [hno]; exact nofun
  | closed s =>
    obtain ⟨hno, hs⟩ := Option.ite_none_right_eq_some.mp hs
    rw [← Option.some.inj hs]
    exact h.app nofun fun k => by rw [hno]; exact nofun

/-- a thread whose row is gone loses the socket of its bridge -/
theorem lost_step {a : JoinAct} (h : S.Sound) (hk : ¬ S.Kept a) (hs : S.step g_node a = some S') :
    ¬ S'.Tidy := by
  cases a with
  | turn k m =>
    obtain ⟨t, ht, hs⟩ := Option.bind_eq_some_iff.mp hs
    cases turn_cases hs with
    | @record fd s lport hpc =>
      have hno : S.bySid t.sid = none := by
        by_contra hsome
        refine hk fun u hu => ?_
        rw [ht] at hu
        rw [← Option.some.inj hu]
        exact Option.isSome_iff_ne_none.mpr hsome
      have hon : (S.onHs t.sid fun r =>
          { r with real := some s, live := true, last := S.now, lport := lport }) = S := by
        unfold onHs
        rw [hno]
      rw [hon]
      have hidle : S.held t = [fd, s] := by
        unfold held
        rw [hpc, rowOf_eq_none.mpr hno]
        rfl
      have hown : S.sockets s = some (.join k) := by
        rw [h.mine ht, hidle]
        simp
      intro htidy
      obtain ⟨u, hu, hsu⟩ := htidy.held s k hown
      have hset : (S.threads.set k { t with pc := .told fd })[k]? = some { t with pc := .told fd } :=
        List.getElem?_set_self (List.getElem?_eq_some_iff.mp ht).1
      have hu : (S.threads.set k { t with pc := .told fd })[k]? = some u := hu
      rw [hset] at hu
      cases hu
      have hheld : (S.goes k { t with pc := .told fd }).held { t with pc := .told fd } = [fd] := by
        show [fd] ++ (S.rowOf t.sid).elim [] DtHosted.socks = [fd]
        rw [rowOf_eq_none.mpr hno]
        rfl
      rw [hheld] at hsu
      have hnd := h.nodup k t ht
      rw [hidle, List.mem_singleton.mp hsu] at hnd
      simp at hnd
    | _ => exact absurd trivial hk
  | _ => exact absurd trivial hk

/-- **Sockets of the joining threads.**  When no stream is asked for again while it is served, then along
a run every thread closes only what it has opened and every socket that it has opened is still in its
hands, exactly when no thread that records its bridge finds its row swept. -/
theorem hosted_sockets_iff {u : JoinHook} {tr : List (JoinHook × JoinAct)}
    (h : Path (step g_node) init tr u) (hf : ∀ x ∈ tr, x.1.Fresh x.2) :
    (∀ v ∈ visited tr u, v.Tidy) ↔ ∀ x ∈ tr, x.1.Kept x.2 := by
  refine h.all_iff_ok_of hf (I := Sound) sound_init (fun _ hi => hi.tidy) ?_ ?_
  · intro v a v' hi hfresh hok hs
    exact sound_step hi hfresh hok hs
  · intro v a v' hi _ hno hs
    exact lost_step hi hno hs

/-- the game takes the connection when the row is swept already -/
def slowGame : List JoinAct :=
  [.streq 7 2300 3 (fun _ => 2300) true true, .turn 0 (.dialed (some 4)), .turn 0 (.asked true),
    .turn 0 (.verdict (some (DT_STOK, [0, 0, 0, 7]))), .turn 0 (.bridge 0 (some 5)), .tick 30001,
    .sweep, .turn 0 (.record 40000)]

theorem hosted_slowGame : ∃ u, run (step 9) init slowGame = some u ∧
    ¬ ∀ v ∈ visited (trace (step 9) init slowGame) u, v.Tidy := by
  have hrun : (run (step 9) init slowGame).isSome = true := by decide +kernel
  obtain ⟨u, hu⟩ := Option.isSome_iff_exists.mp hrun
  have hfresh : ∀ x ∈ trace (step 9) init slowGame, x.1.Fresh x.2 := by decide +kernel
  have hlost : ¬ ∀ x ∈ trace (step 9) init slowGame, x.1.Kept x.2 := by decide +kernel
  exact ⟨u, hu, fun htidy => hlost ((hosted_sockets_iff (path_run hu) hfresh).mp htidy)⟩

end JoinHook

end ShadowLan
