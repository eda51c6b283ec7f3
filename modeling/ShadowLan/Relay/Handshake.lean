import ShadowLan.Relay.Streams

/-!
# Claiming a stream

Any number of joinees race for a stream, and its coroutines meet at every `await`.  The record is
fair to all of them when one joinee at most is told `T_STOK`, the opener hears one verdict, and
nobody is left without an answer once the record is gone.

* `Stream.Fair`         the three of them;
* `Stream.waiting`      the claims that are parked, and those that a suspended BUSY round holds;
* `Stream.Undisturbed`  the condition on a step: nobody waits when the record goes, and a BUSY round
                        that was suspended goes on alone, with the stream still open;
* `Stream.fair_run`     a run of such steps is fair to the end.
-/

namespace ShadowLan

def Piece.isVerdict : Piece → Bool
  | .frame t _ => t == T_STOK || t == T_STFAIL
  | .raw _ => false

/-- the verdicts among what was written -/
def verdicts (out : List Piece) : List Piece := out.filter Piece.isVerdict

/-- told `T_STOK` -/
def Tcp.Granted (k : Tcp) : Prop := ∃ p, .frame T_STOK p ∈ k.out

/-- told `T_STOK` or `T_STFAIL`, or closed by the relay -/
def Tcp.Answered (k : Tcp) : Prop := (∃ o ∈ k.out, o.isVerdict = true) ∨ k.closing = true

/-- no verdict was written, or none can be written any more -/
def Tcp.Silent (k : Tcp) : Prop := verdicts k.out = [] ∨ k.gone = true

/-- the connections whose claims a suspended BUSY round holds -/
def Coro.held : Coro → List Nat
  | .busy cur rest win => cur.1 :: win.1 :: rest.map Prod.fst
  | _ => []

def Coro.isStok : Coro → Bool
  | .stokJoiner _ => true
  | _ => false

/-- the coroutine is only there in such a state -/
def Coro.Fits (st : StreamState) : Coro → Prop
  | .pipe _ (.running ..) => st = .ready
  | .stokJoiner _ | .stokOpener _ | .early _ | .reading _ | .pipe _ .ending => st ≠ .opened
  | _ => True

theorem Coro.fits_ready (t : Coro) : t.Fits .ready := by
  cases t with
  | pipe task pc => cases pc <;> simp [Coro.Fits]
  | _ => simp [Coro.Fits]

theorem Coro.Fits.joined {t : Coro} (h : t.Fits .opened) : t.Fits .joined := by
  cases t with
  | pipe task pc => cases pc <;> simp_all [Coro.Fits]
  | _ => simp_all [Coro.Fits]

namespace Stream
variable (s : Stream)

structure Fair : Prop where
  /-- one joinee at most is told `T_STOK` -/
  one : ∀ c c', (s.conns (.joinee c)).Granted → (s.conns (.joinee c')).Granted → c = c'
  /-- the opener hears one verdict at most -/
  verdict : (verdicts (s.conns .opener).out).length ≤ 1
  /-- when the record is gone, every joinee that came while it was there has its answer -/
  answered : s.listed = false → ∀ c ∈ s.joined, (s.conns (.joinee c)).Answered

/-- the connections of the claims that nobody has answered yet -/
def waiting : List Nat := s.claims.map Prod.fst ++ s.coros.flatMap Coro.held

/-- the condition on a step -/
def Undisturbed : Label → Prop
  | .popped => s.waiting = []
  | .strayGrant => s.coros.flatMap Coro.held = []
  | .wake i => match s.coros[i]? with
    | some .timeout | some (.failing _) | some (.badId _) => s.waiting = []
    | some .grant => s.coros.flatMap Coro.held = []
    | some (.busy ..) => s.listed = true ∧ s.state = .opened ∧ (s.without i).waiting = []
    | _ => True
  | _ => True

instance (k : Tcp) : Decidable k.Answered := inferInstanceAs (Decidable (_ ∨ _))

instance (l : Label) : Decidable (s.Undisturbed l) := by
  cases l with
  | wake i =>
    unfold Undisturbed
    dsimp only
    split <;> infer_instance
  | _ => unfold Undisturbed; infer_instance

/-! ## the invariant -/

/-- what every step keeps; the claims of `hands` are being dealt with right now -/
structure Kept (hands : List Nat) (s : Stream) : Prop where
  wf : ∀ w, (s.conns w).Wf
  granted : ∀ c, (s.conns (.joinee c)).Granted → s.joiner = some c
  fresh : s.state = .opened → s.joiner = none
  verdict : (verdicts (s.conns .opener).out).length ≤ 1
  silent : (s.conns .opener).Silent ∨ s.state = .ready ∧ s.coros.countP Coro.isStok = 0
  stok : s.coros.countP Coro.isStok ≤ if s.state = .opened then 0 else 1
  raw : s.state ≠ .ready → rawOf (s.conns .opener).out = []
  fits : ∀ t ∈ s.coros, t.Fits s.state
  answered : ∀ c ∈ s.joined, c ∈ hands ∨ c ∈ s.waiting ∨ (s.conns (.joinee c)).Answered ∨
    s.joiner = some c
  explicit : s.implicit = false → s.waiting = []
  claimed : s.state ≠ .opened → s.waiting = []
  popped : s.listed = false → hands = [] ∧ s.waiting = [] ∧ (s.conns .opener).closing = true ∧
    ∀ c, s.joiner = some c → (s.conns (.joinee c)).closing = true

variable {s} {hands : List Nat}

theorem Kept.fair (h : Kept [] s) : s.Fair where
  one c c' hc hc' := by
    have h1 := h.granted c hc
    rw [h.granted c' hc'] at h1
    exact (Option.some.inj h1).symm
  verdict := h.verdict
  answered hl c hc := by
    obtain ⟨-, hw, -, hj⟩ := h.popped hl
    rcases h.answered c hc with h1 | h1 | h1 | h1
    · exact absurd h1 (by simp)
    · rw [hw] at h1
      exact absurd h1 (by simp)
    · exact h1
    · exact Or.inr (hj c h1)

theorem kept_opened (sid o d : Nat) : Kept [] (opened sid o d) where
  wf _ := ⟨nofun, nofun⟩
  granted c h := by
    obtain ⟨p, hp⟩ := h
    exact absurd hp List.not_mem_nil
  fresh _ := rfl
  verdict := by simp [opened, Tcp.fresh, verdicts]
  silent := Or.inl (Or.inl rfl)
  stok := by simp [opened, Coro.isStok]
  raw _ := rfl
  fits t ht := by
    rw [List.mem_singleton.mp ht]
    exact trivial
  answered c hc := absurd hc List.not_mem_nil
  explicit _ := by simp [waiting, opened, Coro.held]
  claimed h := absurd rfl h
  popped h := absurd h (by simp [opened])

/-! ## verdicts -/

theorem verdicts_append (l l' : List Piece) : verdicts (l ++ l') = verdicts l ++ verdicts l' :=
  List.filter_append ..

theorem answered_grows {k k' : Tcp} {l : List Piece} (hg : k.Grows l k') (h : k.Answered) :
    k'.Answered := by
  rcases h with ⟨o, ho, hv⟩ | h
  · exact Or.inl ⟨o, by rw [hg.out]; exact List.mem_append_left _ ho, hv⟩
  · exact Or.inr (hg.closing h)

/-- a connection written on, or closed: on a joinee's no `T_STOK` but to the joiner, on the opener's
one verdict at most, and raw bytes only once the stream is ready -/
theorem Kept.setConn (h : Kept hands s) {w : Who} {l : List Piece} {k : Tcp}
    (hg : (s.conns w).Grows l k)
    (hj : ∀ c, w = .joinee c → ∀ p, .frame T_STOK p ∈ l → s.joiner = some c)
    (ho : w = .opener → (verdicts k.out).length ≤ 1 ∧
      (k.Silent ∨ s.state = .ready ∧ s.coros.countP Coro.isStok = 0) ∧
      (rawOf l = [] ∨ s.state = .ready)) : Kept hands (s.setConn w k) := by
  have hgr : ∀ w', ∃ l', (s.conns w').Grows l' ((s.setConn w k).conns w') ∧
      (w' ≠ w → l' = []) ∧ (w' = w → l' = l) := by
    intro w'
    by_cases hw : w' = w
    · subst hw
      exact ⟨l, by rw [setConn_self]; exact hg, fun h => absurd rfl h, fun _ => rfl⟩
    · exact ⟨[], by rw [setConn_other _ hw]; exact Tcp.grows_refl _, fun _ => rfl,
        fun h => absurd h hw⟩
  refine ⟨?_, ?_, h.fresh, ?_, ?_, h.stok, ?_, h.fits, ?_, h.explicit, h.claimed, ?_⟩
  · intro w'
    obtain ⟨l', hg', -⟩ := hgr w'
    exact hg'.wf (h.wf w')
  · intro c hc
    obtain ⟨l', hg', hn', he'⟩ := hgr (.joinee c)
    obtain ⟨p, hp⟩ := hc
    rw [hg'.out] at hp
    rcases List.mem_append.mp hp with hp | hp
    · exact h.granted c ⟨p, hp⟩
    · by_cases hw : Who.joinee c = w
      · rw [he' hw] at hp
        exact hj c hw.symm p hp
      · rw [hn' hw] at hp
        exact absurd hp List.not_mem_nil
  · by_cases hw : Who.opener = w
    · subst hw
      rw [setConn_self]
      exact (ho rfl).1
    · rw [setConn_other _ hw]
      exact h.verdict
  · by_cases hw : Who.opener = w
    · subst hw
      rw [setConn_self]
      exact (ho rfl).2.1
    · rw [setConn_other _ hw]
      exact h.silent
  · intro hr
    have hr' : s.state ≠ .ready := hr
    by_cases hw : Who.opener = w
    · subst hw
      rw [setConn_self, hg.out, Tcp.rawOf_append, h.raw hr', (ho rfl).2.2.resolve_right hr']
      rfl
    · rw [setConn_other _ hw]
      exact h.raw hr'
  · intro c hc
    rcases h.answered c hc with h1 | h1 | h1 | h1
    · exact Or.inl h1
    · exact Or.inr (Or.inl h1)
    · obtain ⟨l', hg', -⟩ := hgr (.joinee c)
      exact Or.inr (Or.inr (Or.inl (answered_grows hg' h1)))
    · exact Or.inr (Or.inr (Or.inr h1))
  · intro hl
    obtain ⟨h1, h2, h3, h4⟩ := h.popped hl
    obtain ⟨lo, hgo, -⟩ := hgr .opener
    refine ⟨h1, h2, hgo.closing h3, fun c hc => ?_⟩
    obtain ⟨l', hg', -⟩ := hgr (.joinee c)
    exact hg'.closing (h4 c hc)

/-- a change that writes nothing -/
theorem Kept.setConn_nil (h : Kept hands s) {w : Who} {k : Tcp} (hg : (s.conns w).Grows [] k) :
    Kept hands (s.setConn w k) := by
  have ho := hg.out
  rw [List.append_nil] at ho
  refine h.setConn hg (fun _ _ _ hp => absurd hp List.not_mem_nil) ?_
  rintro rfl
  rw [ho]
  refine ⟨h.verdict, h.silent.imp_left fun h1 => ?_, Or.inl rfl⟩
  rcases h1 with h1 | h1
  · exact Or.inl (by rw [ho]; exact h1)
  · exact Or.inr (hg.gone h1).1

theorem Kept.close (h : Kept hands s) (w : Who) : Kept hands (s.close w) :=
  h.setConn_nil (Tcp.grows_close _)

theorem Kept.write_eof (h : Kept hands s) (w : Who) : Kept hands (s.write_eof w) :=
  h.setConn_nil (Tcp.grows_write_eof _)

/-! ## coroutines -/

/-- other coroutines, which hold the same claims and have as much `T_STOK` to send -/
theorem Kept.coros (h : Kept hands s) {l : List Coro}
    (hh : l.flatMap Coro.held = s.coros.flatMap Coro.held)
    (hs : l.countP Coro.isStok = s.coros.countP Coro.isStok)
    (hp : ∀ t ∈ l, t.Fits s.state) : Kept hands { s with coros := l } := by
  have hw : ({ s with coros := l } : Stream).waiting = s.waiting := by
    simp only [waiting, hh]
  refine ⟨h.wf, h.granted, h.fresh, h.verdict, ?_, ?_, h.raw, hp, ?_, ?_, ?_, ?_⟩
  · show _ ∨ _ ∧ l.countP Coro.isStok = 0
    rw [hs]
    exact h.silent
  · show l.countP Coro.isStok ≤ _
    rw [hs]
    exact h.stok
  · rw [hw]
    exact h.answered
  · rw [hw]
    exact h.explicit
  · rw [hw]
    exact h.claimed
  · rw [hw]
    exact h.popped

/-- a coroutine that holds no claim and does not send `T_STOK` to a joinee -/
theorem Kept.spawn (h : Kept hands s) {t : Coro} (hh : t.held = []) (hs : t.isStok = false)
    (hp : t.Fits s.state) : Kept hands (s.spawn t) := by
  refine h.coros ?_ ?_ ?_
  · simp [hh]
  · simp [List.countP_append, hs]
  · intro u hu
    rcases List.mem_append.mp hu with hu | hu
    · exact h.fits u hu
    · rw [List.mem_singleton.mp hu]
      exact hp

/-- what is cancelled ends, goes on, or learns of it at its next step -/
theorem cancel_cases (t : Coro) :
    t.cancel = none ∧ t.held = [] ∧ t.isStok = false ∨ t.cancel = some t ∨
      ∃ c a b x, t = .pipe true (.running c a b x) ∧
        t.cancel = some (.pipe false (.running c a b true)) := by
  cases t with
  | pipe task pc =>
    cases task <;> cases pc <;>
      first
      | exact .inl ⟨rfl, rfl, rfl⟩
      | exact .inr (.inl rfl)
      | exact .inr (.inr ⟨_, _, _, _, rfl, rfl⟩)
  | failing task =>
    cases task with
    | true => exact .inl ⟨rfl, rfl, rfl⟩
    | false => exact .inr (.inl rfl)
  | timeout => exact .inl ⟨rfl, rfl, rfl⟩
  | _ => exact .inr (.inl rfl)

/-- `Coro.cancel` touches neither claims nor `T_STOK` -/
theorem cancel_spec (t : Coro) :
    (t.cancel).toList.flatMap Coro.held = t.held ∧
      (t.cancel).toList.countP Coro.isStok = [t].countP Coro.isStok ∧
      ∀ u ∈ t.cancel, ∀ st, t.Fits st → u.Fits st := by
  rcases cancel_cases t with ⟨hc, hh, hs⟩ | hc | ⟨c, a, b, x, rfl, hc⟩
  · rw [hc, hh, List.countP_singleton, hs]
    exact ⟨rfl, rfl, fun u hu => by cases hu⟩
  · rw [hc]
    exact ⟨List.flatMap_singleton Coro.held t, rfl, fun u hu st h => Option.some.inj hu ▸ h⟩
  · rw [hc]
    exact ⟨rfl, rfl, fun u hu st h => Option.some.inj hu ▸ h⟩

theorem held_cancel (l : List Coro) :
    (l.filterMap Coro.cancel).flatMap Coro.held = l.flatMap Coro.held := by
  induction l with
  | nil => rfl
  | cons t l ih =>
    have ht := (cancel_spec t).1
    rw [List.flatMap_cons, ← ih, ← ht]
    cases hc : t.cancel with
    | none => simp [hc]
    | some u => simp [hc]

theorem isStok_cancel (l : List Coro) :
    (l.filterMap Coro.cancel).countP Coro.isStok = l.countP Coro.isStok := by
  induction l with
  | nil => rfl
  | cons t l ih =>
    have ht := (cancel_spec t).2.1
    rw [← List.singleton_append, List.countP_append, ← ht, ← ih]
    cases hc : t.cancel with
    | none => simp [hc]
    | some u => simp [hc, List.countP_cons, Nat.add_comm]

theorem Kept.cancel (h : Kept hands s) :
    Kept hands { s with coros := s.coros.filterMap Coro.cancel } := by
  refine h.coros (held_cancel _) (isStok_cancel _) fun u hu => ?_
  obtain ⟨t, ht, hc⟩ := List.mem_filterMap.mp hu
  exact (cancel_spec t).2.2 u hc _ (h.fits t ht)

/-- the claims of a coroutine that goes on are in hand -/
theorem Kept.without (h : Kept [] s) {i : Nat} {t : Coro} (ht : s.coros[i]? = some t)
    (hl : s.listed = false → t.held = []) : Kept t.held (s.without i) := by
  have hp := coros_perm ht
  have hheld : ∀ c, c ∈ s.waiting ↔ c ∈ t.held ∨ c ∈ (s.without i).waiting := by
    intro c
    have h1 := (hp.flatMap_right Coro.held).mem_iff (a := c)
    simp only [List.flatMap_cons, List.mem_append] at h1
    simp only [waiting, List.mem_append, h1]
    exact or_left_comm
  have hnil : s.waiting = [] → (s.without i).waiting = [] := by
    intro hw
    rw [List.eq_nil_iff_forall_not_mem] at hw ⊢
    exact fun c hc => hw c ((hheld c).mpr (Or.inr hc))
  have hcount := hp.countP_eq Coro.isStok
  rw [← List.singleton_append, List.countP_append] at hcount
  refine ⟨h.wf, h.granted, h.fresh, h.verdict, ?_, ?_, h.raw, ?_, ?_, ?_, ?_, ?_⟩
  · refine h.silent.imp_right fun ⟨h1, h2⟩ => ⟨h1, ?_⟩
    show (s.without i).coros.countP _ = 0
    omega
  · refine le_trans ?_ h.stok
    show (s.without i).coros.countP _ ≤ _
    omega
  · exact fun u hu => h.fits u (hp.mem_iff.mpr (List.mem_cons_of_mem _ hu))
  · intro c hc
    rcases h.answered c hc with h1 | h1 | h1
    · exact absurd h1 List.not_mem_nil
    · rcases (hheld c).mp h1 with h2 | h2
      · exact Or.inl h2
      · exact Or.inr (Or.inl h2)
    · exact Or.inr (Or.inr h1)
  · exact fun hi => hnil (h.explicit hi)
  · exact fun hi => hnil (h.claimed hi)
  · intro hi
    obtain ⟨-, h2, h3⟩ := h.popped hi
    exact ⟨hl hi, hnil h2, h3⟩

/-! ## the record goes -/

theorem Kept.closeEnds (h : Kept hands s) : Kept hands s.closeEnds := by
  unfold Stream.closeEnds
  split
  · exact h.close .opener
  · exact (h.close .opener).close _

theorem Kept.pop (h : Kept [] s) (hw : s.waiting = []) : Kept [] s.pop := by
  unfold Stream.pop
  split
  · have hk := h.closeEnds.cancel
    rw [closeEnds_eq] at hk
    have hkw : s.claims.map Prod.fst ++ (s.coros.filterMap Coro.cancel).flatMap Coro.held = [] := by
      rw [held_cancel]
      exact hw
    rw [closeEnds_eq]
    refine ⟨hk.wf, hk.granted, hk.fresh, hk.verdict, hk.silent, hk.stok, hk.raw, hk.fits,
      hk.answered, hk.explicit, hk.claimed, fun _ => ⟨rfl, hkw, ?_, fun c hc => ?_⟩⟩
    · show (s.closeEnds.conns .opener).closing = true
      rw [closeEnds_opener]
      rfl
    · show (s.closeEnds.conns (.joinee c)).closing = true
      rw [closeEnds_joiner (s := s) hc]
      rfl
  · exact h

/-- a record that is open and listed may still get a refusal out to its opener -/
theorem Kept.fail (h : Kept [] s) (hw : s.waiting = []) (task : Bool) (r : Reason) :
    Kept [] (s.fail task r) := by
  unfold Stream.fail
  split
  · rename_i hc
    obtain ⟨hcl, hst⟩ : (s.conns .opener).closing = false ∧ s.state ≠ .ready := by simpa using hc
    have hnil : verdicts (s.conns .opener).out = [] := by
      rcases h.silent with (h1 | h1) | h1
      · exact h1
      · exact absurd (Tcp.gone_iff.mp h1).1 (by simp [hcl])
      · exact absurd h1.1 hst
    have hp : (s.conns .opener).paused = false := by
      rw [Bool.eq_false_iff]
      exact fun hp => (h.wf .opener).backlog ((h.wf .opener).paused hp) (h.raw hst)
    refine send_cases ?_ ?_
    · intro k hk
      rcases Tcp.grows_send hk with ⟨hg, -⟩ | ⟨-, hg⟩
      · exact (h.setConn_nil hg).spawn rfl rfl trivial
      · rcases hg rfl with hx | hx
        · exact absurd hx (by simp [hcl])
        · exact absurd hx (by simp [hp])
    · intro k x hk hx
      rcases Tcp.grows_send hk with ⟨hg, -⟩ | ⟨hg, -⟩
      · exact (h.setConn_nil hg).pop hw
      · -- the refusal is out, and closing the connection makes sure that nothing follows it
        have hl : s.listed = true := by
          rw [← Bool.not_eq_false]
          exact fun hl => by rw [(h.popped hl).2.2.1] at hcl; exact absurd hcl (by decide)
        have hraw : rawOf k.out = [] := by
          rw [hg.out, Tcp.rawOf_append, h.raw hst]
          rfl
        have hv : verdicts k.out = [s.stfail r] := by
          rw [hg.out, verdicts_append, hnil]
          rfl
        have hgone : k.close.gone = true := by
          refine Tcp.gone_iff.mpr ⟨rfl, ?_⟩
          rw [Bool.eq_false_iff]
          exact fun hb => (hg.wf (h.wf .opener)).backlog hb hraw
        have hg' : (s.conns .opener).Grows [s.stfail r] k.close :=
          ⟨hg.out, fun _ => rfl, fun h => absurd (hg.gone h).2 (by simp), hg.wEof,
            fun h => ⟨(hg.wf h).paused, (hg.wf h).backlog⟩⟩
        show Kept [] (s.setConn .opener k).pop
        rw [pop_setConn_opener hl]
        refine Kept.pop (h.setConn hg' (fun _ h => nomatch h) fun _ => ?_) hw
        exact ⟨by show (verdicts k.out).length ≤ 1; rw [hv]; rfl, Or.inl (Or.inr hgone),
          Or.inl rfl⟩
  · exact h.pop hw

/-! ## hands -/

/-- a claim that has its answer is out of hand -/
theorem Kept.settle {c : Nat} (h : Kept (c :: hands) s) (hc : (s.conns (.joinee c)).Answered) :
    Kept hands s := by
  refine ⟨h.wf, h.granted, h.fresh, h.verdict, h.silent, h.stok, h.raw, h.fits, ?_, h.explicit,
    h.claimed, fun hl => absurd (h.popped hl).1 (by simp)⟩
  intro c' hc'
  rcases h.answered c' hc' with h1 | h1
  · rcases List.mem_cons.mp h1 with rfl | h1
    · exact Or.inr (Or.inr (Or.inl hc))
    · exact Or.inl h1
  · exact Or.inr h1

theorem Kept.mono {hands' : List Nat} (h : Kept hands s) (hl : s.listed = true)
    (hs : ∀ c ∈ hands, c ∈ hands') : Kept hands' s :=
  ⟨h.wf, h.granted, h.fresh, h.verdict, h.silent, h.stok, h.raw, h.fits,
    fun c hc => (h.answered c hc).imp_left (hs c), h.explicit, h.claimed,
    fun hf => absurd (hl.symm.trans hf) (by decide)⟩

/-- an answer that is under way: it is out, or the transport is done for -/
theorem answered_send {k k' : Tcp} {o : Piece} (hk : k.send o = (k', .waits))
    (ho : o.isVerdict = true) : k'.Answered := by
  rcases Tcp.grows_send hk with ⟨-, -, hg, -⟩ | ⟨hg, -⟩
  · exact Or.inr (Tcp.gone_iff.mp (hg rfl)).1
  · exact Or.inl ⟨o, by rw [hg.out]; exact List.mem_append_right _ List.mem_cons_self, ho⟩

/-- a refusal that a joinee is sent -/
theorem Kept.setConn_stfail (h : Kept hands s) {c : Nat} {r : Reason} {k : Tcp} {x : Sent}
    (hk : (s.conns (.joinee c)).send (s.stfail r) = (k, x)) : Kept hands (s.setConn (.joinee c) k) := by
  rcases Tcp.grows_send hk with ⟨hg, -⟩ | ⟨hg, -⟩
  · exact h.setConn_nil hg
  · refine h.setConn hg (fun c' _ p hp => ?_) (fun h => nomatch h)
    obtain ⟨he, -⟩ := Piece.frame.inj (List.mem_singleton.mp hp)
    exact absurd he (by decide)

/-- a joinee is refused, and the coroutine suspends or closes the connection -/
theorem Kept.send_stfail {c : Nat} (h : Kept (c :: hands) s) {r : Reason}
    {waits : Stream → Stream} {fin : Sent → Stream → Stream} {Q : Stream → Prop}
    (hw : ∀ k, Kept hands (s.setConn (.joinee c) k) → Q (waits (s.setConn (.joinee c) k)))
    (hf : ∀ k x, Kept hands ((s.setConn (.joinee c) k).close (.joinee c)) →
      Q (fin x (s.setConn (.joinee c) k))) : Q (s.send (.joinee c) (s.stfail r) waits fin) := by
  refine send_cases (fun k hk => hw k ?_) fun k x hk _ => hf k x ?_
  · refine (h.setConn_stfail hk).settle ?_
    rw [setConn_self]
    exact answered_send hk rfl
  · refine ((h.setConn_stfail hk).close _).settle ?_
    unfold Stream.close
    rw [setConn_self]
    exact Or.inr rfl

/-! ## granting -/

/-- the opener is told, and may hear of it no more -/
theorem Kept.confirm (h : Kept [] s) (hs : (s.conns .opener).Silent)
    (hc : s.coros.countP Coro.isStok = 0) (hst : s.state ≠ .opened) (c : Nat) :
    Kept [] (s.confirm c) := by
  have hw := h.claimed hst
  have h1 : Kept [] { s with state := .ready } :=
    ⟨h.wf, h.granted, nofun, h.verdict, Or.inr ⟨rfl, hc⟩, by show s.coros.countP _ ≤ 1; omega,
      fun hr => absurd rfl hr, fun t _ => t.fits_ready, h.answered, h.explicit, fun _ => hw, h.popped⟩
  have hset : ∀ k x, (s.conns .opener).send s.stok = (k, x) →
      Kept [] ({ s with state := .ready }.setConn .opener k) := by
    intro k x hk
    rcases Tcp.grows_send hk with ⟨hg, -⟩ | ⟨hg, -⟩
    · exact h1.setConn_nil hg
    · refine h1.setConn hg (fun _ h => nomatch h) fun _ => ⟨?_, Or.inr ⟨rfl, hc⟩, Or.inr rfl⟩
      rcases hs with hs | hs
      · rw [hg.out, verdicts_append, hs]
        rfl
      · exact absurd (hg.gone hs).2 (by simp)
  unfold Stream.confirm
  refine send_cases (fun k hk => (hset k _ hk).spawn rfl rfl nofun) fun k x hk _ => ?_
  split
  · exact (hset k _ hk).spawn rfl rfl nofun
  · exact (hset k _ hk).fail hw false .NO_ROUTE

theorem Kept.spawn_stok (h : Kept [] s) (hs : (s.conns .opener).Silent)
    (hc : s.coros.countP Coro.isStok = 0) (hst : s.state ≠ .opened) (c : Nat) :
    Kept [] (s.spawn (.stokJoiner c)) := by
  have hw : (s.spawn (.stokJoiner c)).waiting = s.waiting := by simp [waiting, Coro.held]
  refine ⟨h.wf, h.granted, h.fresh, h.verdict, Or.inl hs, ?_, h.raw, ?_, ?_, ?_, ?_, ?_⟩
  · show (s.coros ++ [Coro.stokJoiner c]).countP _ ≤ if s.state = .opened then 0 else 1
    rw [if_neg hst, List.countP_append, hc]
    rfl
  · intro t ht
    rcases List.mem_append.mp ht with ht | ht
    · exact h.fits t ht
    · rw [List.mem_singleton.mp ht]
      exact hst
  · rw [hw]
    exact h.answered
  · rw [hw]
    exact h.explicit
  · rw [hw]
    exact h.claimed
  · rw [hw]
    exact h.popped

theorem Kept.claim {c : Nat} (h : Kept [c] s) (hl : s.listed = true) (ho : s.state = .opened)
    (hw : s.waiting = []) (node : Nat) : Kept [] (s.claim c node) := by
  have hj := h.fresh ho
  have hs : (s.conns .opener).Silent :=
    h.silent.resolve_right fun hr => absurd (ho.symm.trans hr.1) (by decide)
  have hc : s.coros.countP Coro.isStok = 0 := by
    have h1 := h.stok
    rw [if_pos ho] at h1
    omega
  have h1 : Kept [] { s with
      joiner := some c
      state := .joined
      dest_node := if s.dest_node = 0 then node else s.dest_node } := by
    refine ⟨h.wf, ?_, nofun, h.verdict, Or.inl hs, by show s.coros.countP _ ≤ 1; omega, ?_, ?_, ?_,
      h.explicit, fun _ => hw, fun hf => absurd (hl.symm.trans hf) (by decide)⟩
    · exact fun c' hg => absurd (h.granted c' hg) (by simp [hj])
    · exact fun _ => h.raw (by rw [ho]; decide)
    · exact fun t ht => Coro.Fits.joined (ho ▸ h.fits t ht)
    · intro c' hc'
      rcases h.answered c' hc' with h2 | h2 | h2 | h2
      · exact Or.inr (Or.inr (Or.inr (congrArg some (List.mem_singleton.mp h2).symm)))
      · exact Or.inr (Or.inl h2)
      · exact Or.inr (Or.inr (Or.inl h2))
      · exact absurd h2 (by simp [hj])
  -- what comes after `write_eof`, with or without it
  have key : ∀ u : Stream, Kept [] u → u.joiner = some c → u.state = .joined →
      (u.conns .opener).Silent → u.coros.countP Coro.isStok = 0 →
      Kept [] (u.send (.joinee c) u.stok (fun s => s.spawn (.stokJoiner c)) fun r s =>
        if r = .ok then s.confirm c else s.fail false .NO_ROUTE) := by
    intro u hu huj hus hu1 hu2
    have hst : u.state ≠ .opened := by rw [hus]; decide
    have hset : ∀ k x, (u.conns (.joinee c)).send u.stok = (k, x) →
        Kept [] (u.setConn (.joinee c) k) := by
      intro k x hk
      rcases Tcp.grows_send hk with ⟨hg, -⟩ | ⟨hg, -⟩
      · exact hu.setConn_nil hg
      · refine hu.setConn hg (fun c' he _ _ => ?_) (fun h => nomatch h)
        rw [← Who.joinee.inj he]
        exact huj
    have hs' : ∀ k, ((u.setConn (.joinee c) k).conns .opener).Silent := by
      intro k
      rw [setConn_other _ (by simp)]
      exact hu1
    refine send_cases (fun k hk => (hset k _ hk).spawn_stok (hs' k) hu2 hst c) fun k x hk _ => ?_
    split
    · exact (hset k _ hk).confirm (hs' k) hu2 hst c
    · exact (hset k _ hk).fail ((hset k _ hk).claimed hst) false .NO_ROUTE
  unfold Stream.claim
  dsimp only
  split
  · refine key _ (Kept.write_eof (s := { s with
      joiner := some c
      state := .joined
      dest_node := if s.dest_node = 0 then node else s.dest_node
      shut_from := false }) ?_ _) rfl rfl ?_ hc
    · exact ⟨h1.wf, h1.granted, h1.fresh, h1.verdict, h1.silent, h1.stok, h1.raw, h1.fits,
        h1.answered, h1.explicit, h1.claimed, h1.popped⟩
    · unfold Stream.write_eof
      rw [setConn_other _ (by simp)]
      exact hs
  · exact key _ h1 rfl rfl hs hc

theorem Kept.refuse {c : Nat} (h : Kept [] (s.close (.joinee c))) (hw : s.waiting = []) :
    Kept [] (s.refuse c) :=
  h.fail hw false .BAD_ID

theorem Kept._grant_claim {c : Nat} (h : Kept [c] s) (hl : s.listed = true)
    (ho : s.state = .opened) (hw : s.waiting = []) (node : Nat) :
    Kept [] (s._grant_claim c node) := by
  unfold Stream._grant_claim
  split
  · exact h.send_stfail (fun k hk => hk.spawn rfl rfl trivial) fun k x hk => hk.refuse hw
  · exact h.claim hl ho hw node

/-- claims in hand are waiting again, parked or with a coroutine -/
theorem Kept.park (h : Kept hands s) {m : List StClaim} {l : List Coro} {g : Bool}
    (hl : s.listed = true) (ho : s.state = .opened) (hi : s.implicit = true)
    (hh : ∀ c, c ∈ hands ∨ c ∈ s.waiting →
      c ∈ m.map Prod.fst ++ l.flatMap Coro.held)
    (hs : l.countP Coro.isStok = s.coros.countP Coro.isStok)
    (hp : ∀ t ∈ l, t.Fits s.state) :
    Kept [] { s with claims := m, grant_task := g, coros := l } := by
  have hst := h.stok
  refine ⟨h.wf, h.granted, h.fresh, h.verdict, h.silent.imp_right fun h1 => ⟨h1.1, hs.trans h1.2⟩,
    ?_, h.raw, hp, ?_, fun hf => absurd (hi.symm.trans hf) (by decide), fun hf => absurd ho hf,
    fun hf => absurd (hl.symm.trans hf) (by decide)⟩
  · show l.countP _ ≤ _
    rw [hs]
    exact hst
  · intro c hc
    rcases h.answered c hc with h1 | h1 | h1
    · exact Or.inr (Or.inl (hh c (Or.inl h1)))
    · exact Or.inr (Or.inl (hh c (Or.inr h1)))
    · exact Or.inr (Or.inr h1)

/-- the round deals with the losers one by one; the claims in hand stay with it if it suspends -/
theorem Kept.busyRound (win : StClaim) (rest : List StClaim) (s : Stream)
    (h : Kept (win.1 :: rest.map Prod.fst) s) (hl : s.listed = true) (ho : s.state = .opened)
    (hi : s.implicit = true) (hw : s.waiting = []) : Kept [] (s.busyRound win rest) := by
  induction rest generalizing s with
  | nil => exact h._grant_claim hl ho hw win.2
  | cons l rest ih =>
    have hp : Kept (l.1 :: win.1 :: rest.map Prod.fst) s :=
      h.mono hl fun c hc => by
        simp only [List.map_cons, List.mem_cons] at hc ⊢
        exact or_left_comm.mp hc
    unfold Stream.busyRound
    refine hp.send_stfail (fun k hk => ?_) fun k x hk => ih _ hk hl ho hi hw
    refine hk.park (m := s.claims) (g := s.grant_task) hl ho hi ?_ ?_ ?_
    · intro c hc
      have hn : s.waiting = [] := hw
      have hc' : c ∈ win.1 :: rest.map Prod.fst := by
        rcases hc with hc | hc
        · exact hc
        · rw [show (s.setConn (.joinee l.1) k).waiting = s.waiting from rfl, hn] at hc
          exact absurd hc List.not_mem_nil
      simp only [setConn_coros, List.flatMap_append, List.mem_append, List.flatMap_cons,
        List.flatMap_nil, List.append_nil, Coro.held]
      exact Or.inr (Or.inr (List.mem_cons_of_mem _ hc'))
    · simp [List.countP_append, Coro.isStok]
    · intro t ht
      rcases List.mem_append.mp ht with ht | ht
      · exact h.fits t ht
      · rw [List.mem_singleton.mp ht]
        exact trivial

theorem Kept._implicit_grant (h : Kept [] s) (hb : s.coros.flatMap Coro.held = []) :
    Kept [] s._implicit_grant := by
  unfold Stream._implicit_grant
  split
  · exact h
  · rename_i hx
    obtain ⟨hl, ho⟩ : s.listed = true ∧ s.state = .opened := by simpa using hx
    have hperm : (s.ranked s.claims).Perm s.claims := List.perm_insertionSort ..
    have hw : ({ s with claims := [], grant_task := false } : Stream).waiting = [] := hb
    have h1 : Kept (s.claims.map Prod.fst) { s with claims := [], grant_task := false } := by
      refine ⟨h.wf, h.granted, h.fresh, h.verdict, h.silent, h.stok, h.raw, h.fits, ?_,
        fun _ => hw, fun _ => hw, fun hf => absurd (hl.symm.trans hf) (by decide)⟩
      intro c hc
      rcases h.answered c hc with h2 | h2 | h2
      · exact absurd h2 List.not_mem_nil
      · rw [waiting, hb, List.append_nil] at h2
        exact Or.inl h2
      · exact Or.inr (Or.inr h2)
    dsimp only
    split
    · rename_i hr
      rw [hr] at hperm
      rw [← hperm.nil_eq] at h1
      exact h1
    · rename_i win losers hr
      rw [hr] at hperm
      have hi : s.implicit = true := by
        rw [← Bool.not_eq_false]
        intro hi
        have hn := (List.append_eq_nil_iff.mp (h.explicit hi)).1
        rw [List.map_eq_nil_iff.mp hn] at hperm
        exact absurd hperm.eq_nil (by simp)
      refine Kept.busyRound win losers _ (h1.mono hl fun c hc => ?_) hl ho hi hw
      exact (hperm.map Prod.fst).mem_iff.mpr hc

theorem Kept.join (h : Kept [] s) (hl : s.listed = true) (c node : Nat) :
    Kept [] (s.join c node) := by
  have h1 : Kept [c] { s with joined := c :: s.joined } := by
    refine ⟨h.wf, h.granted, h.fresh, h.verdict, h.silent, h.stok, h.raw, h.fits, ?_, h.explicit,
      h.claimed, fun hf => absurd (hl.symm.trans hf) (by decide)⟩
    intro c' hc
    rcases List.mem_cons.mp hc with rfl | hc
    · exact Or.inl List.mem_cons_self
    · rcases h.answered c' hc with h2 | h2
      · exact absurd h2 List.not_mem_nil
      · exact Or.inr h2
  unfold Stream.join
  dsimp only
  split
  · exact h1.send_stfail (fun k hk => hk.spawn rfl rfl trivial) fun k x hk => hk
  · rename_i ho
    have ho' : s.state = .opened := not_not.mp ho
    split
    · rename_i hi
      have hh : ∀ c', c' ∈ [c] ∨ c' ∈ s.waiting →
          c' ∈ (s.claims ++ [(c, node)]).map Prod.fst ++ s.coros.flatMap Coro.held := by
        intro c' hc
        simp only [waiting, List.mem_append, List.map_append, List.map_cons, List.map_nil] at hc ⊢
        exact or_assoc.mpr (or_left_comm.mp hc)
      split
      · exact h1.park hl ho' hi hh rfl h.fits
      · refine h1.park hl ho' hi (fun c' hc => ?_) ?_ fun t ht => ?_
        · simp only [List.flatMap_append, List.flatMap_cons, List.flatMap_nil, Coro.held,
            List.append_nil]
          exact hh c' hc
        · simp [List.countP_append, Coro.isStok]
        · rcases List.mem_append.mp ht with ht | ht
          · exact h.fits t ht
          · rw [List.mem_singleton.mp ht]
            exact trivial
    · rename_i hi
      exact h1._grant_claim hl ho' (h.explicit (Bool.eq_false_iff.mpr hi)) node

/-! ## the pipe -/

/-- raw bytes, once the stream is ready -/
theorem Kept.setConn_raw (h : Kept hands s) (hr : s.state = .ready) {w : Who} {d : Bytes} {k : Tcp}
    {x : Sent} (hk : (s.conns w).send (.raw d) = (k, x)) : Kept hands (s.setConn w k) := by
  rcases Tcp.grows_send hk with ⟨hg, -⟩ | ⟨hg, -⟩
  · exact h.setConn_nil hg
  · refine h.setConn hg (fun c _ p hp => nomatch List.mem_singleton.mp hp) ?_
    rintro rfl
    have hv : verdicts k.out = verdicts (s.conns .opener).out := by
      rw [hg.out, verdicts_append]
      exact List.append_nil _
    refine ⟨by rw [hv]; exact h.verdict, h.silent.imp_left fun h1 => ?_, Or.inr hr⟩
    rcases h1 with h1 | h1
    · exact Or.inl (hv.trans h1)
    · exact Or.inr (hg.gone h1).1

/-- a pump leaves the coroutines alone, and writes raw bytes -/
theorem Kept.pump (h : Kept hands s) (hr : s.state = .ready) {pc : PumpPc} {r w : Who}
    {x : Stream × PumpPc} (hx : s.pump pc r w = some x) :
    Kept hands x.1 ∧ x.1.coros = s.coros ∧ x.1.state = s.state := by
  unfold Stream.pump at hx
  cases pc with
  | ended => exact absurd hx (by simp)
  | drain =>
    obtain ⟨y, -, rfl⟩ := Option.map_eq_some_iff.mp hx
    exact ⟨h, rfl, rfl⟩
  | read =>
    dsimp only at hx
    split at hx
    · rw [← Option.some.inj hx]
      exact ⟨h, rfl, rfl⟩
    split at hx
    · obtain ⟨-, hx⟩ := Option.ite_none_right_eq_some.mp hx
      rw [← Option.some.inj hx]
      exact ⟨h, rfl, rfl⟩
    · rw [← Option.some.inj hx]
      exact ⟨(h.setConn_nil (Tcp.grows_inb _ _)).setConn_raw hr rfl, rfl, rfl⟩

theorem held_set {l : List Coro} {i : Nat} {t t' : Coro} (ht : l[i]? = some t)
    (hh : t'.held = t.held) : (l.set i t').flatMap Coro.held = l.flatMap Coro.held := by
  obtain ⟨hi, rfl⟩ := List.getElem?_eq_some_iff.mp ht
  rw [List.flatMap_def, List.flatMap_def, List.map_set, hh, ← List.getElem_map Coro.held,
    List.set_getElem_self]
  simpa using hi

theorem isStok_set {l : List Coro} {i : Nat} {t t' : Coro} (ht : l[i]? = some t)
    (hh : t'.isStok = t.isStok) : (l.set i t').countP Coro.isStok = l.countP Coro.isStok := by
  obtain ⟨hi, rfl⟩ := List.getElem?_eq_some_iff.mp ht
  rw [(List.set_perm_cons_eraseIdx hi t').countP_eq,
    ← (List.getElem_cons_eraseIdx_perm hi).countP_eq, List.countP_cons, List.countP_cons, hh]

theorem Kept.pumpStep (h : Kept [] s) {i : Nat} {back : Bool} {s' : Stream}
    (hs : s.pumpStep i back = some s') : Kept [] s' := by
  have key : ∀ {x : Stream × PumpPc} {t t' : Coro}, s.coros[i]? = some t → t.held = [] →
      t.isStok = false → t'.held = [] → t'.isStok = false → s.state = .ready →
      Kept [] x.1 ∧ x.1.coros = s.coros ∧ x.1.state = s.state →
      Kept [] { x.1 with coros := x.1.coros.set i t' } := by
    intro x t t' ht h1 h2 h3 h4 hr ⟨hx, hc, hst⟩
    rw [← hc] at ht
    exact hx.coros (held_set ht (h3.trans h1.symm)) (isStok_set ht (h4.trans h2.symm))
      fun t _ => by rw [hst, hr]; exact t.fits_ready
  unfold Stream.pumpStep at hs
  split at hs
  · rename_i task c a b cancelled ht
    have hr : s.state = .ready := h.fits _ (List.mem_of_getElem? ht)
    split at hs
    · obtain ⟨x, hx, rfl⟩ := Option.map_eq_some_iff.mp hs
      exact key ht rfl rfl rfl rfl hr (h.pump hr hx)
    · obtain ⟨x, hx, rfl⟩ := Option.map_eq_some_iff.mp hs
      exact key ht rfl rfl rfl rfl hr (h.pump hr hx)
  · exact absurd hs (by simp)

/-! ## steps -/

theorem Kept.stshut (h : Kept [] s) (node : Nat) : Kept [] (s.stshut node) := by
  unfold Stream.stshut
  split
  · exact h
  split
  · split
    · exact ⟨h.wf, h.granted, h.fresh, h.verdict, h.silent, h.stok, h.raw, h.fits, h.answered,
        h.explicit, h.claimed, h.popped⟩
    · exact h.write_eof _
  split
  · exact h.write_eof _
  · exact h

theorem Kept.handshake (h : Kept [] s) (hw : s.waiting = []) (c : Nat) (mtype : UInt8)
    (payload : Bytes) : Kept [] (s.handshake c mtype payload) := by
  unfold Stream.handshake
  split
  · exact h.cancel.spawn rfl rfl trivial
  split
  · split
    · split
      · exact h.fail hw _ _
      · exact h
    · exact h
  · exact h.close _

theorem Kept.readFrame (h : Kept [] s) (hw : s.waiting = []) {c : Nat} {s' : Stream}
    (hs : s.readFrame c = some s') : Kept [] s' := by
  unfold Stream.readFrame at hs
  dsimp only at hs
  split at hs
  · rw [← Option.some.inj hs]
    exact h.fail hw _ _
  · rw [← Option.some.inj hs]
    exact h
  split at hs
  · rw [← Option.some.inj hs]
    exact (h.setConn_nil (Tcp.grows_inb _ _)).handshake hw _ _ _
  · rw [← Option.some.inj hs]
    exact h.fail hw _ _
  · obtain ⟨-, hs⟩ := Option.ite_none_right_eq_some.mp hs
    rw [← Option.some.inj hs]
    exact h.fail hw _ _

/-- every coroutine that goes on keeps the invariant -/
theorem Kept.wake (h : Kept [] s) {i : Nat} {t : Coro} {s' : Stream} (ht : s.coros[i]? = some t)
    (hok : s.Undisturbed (.wake i)) (hs : (s.without i).resume t = some s') : Kept [] s' := by
  have hheld : s.waiting = [] → t.held = [] ∧ (s.without i).waiting = [] := by
    intro hw
    have hp := (coros_perm ht).flatMap_right Coro.held
    rw [(List.append_eq_nil_iff.mp hw).2, List.flatMap_cons] at hp
    obtain ⟨h1, h2⟩ := List.append_eq_nil_iff.mp hp.nil_eq.symm
    exact ⟨h1, List.append_eq_nil_iff.mpr ⟨(List.append_eq_nil_iff.mp hw).1, h2⟩⟩
  have hu := h.without ht fun hl => (hheld (h.popped hl).2.1).1
  have hfit := h.fits t (List.mem_of_getElem? ht)
  have hlate : s.state ≠ .opened → (s.without i).waiting = [] := fun hst => (hheld (h.claimed hst)).2
  simp only [Undisturbed, ht] at hok
  cases t with
  | timeout =>
    have hw := (hheld hok).2
    simp only [resume] at hs
    split at hs
    · rw [← Option.some.inj hs]
      exact hu.fail hw _ _
    · rw [← Option.some.inj hs]
      exact hu
  | failing task =>
    rw [← Option.some.inj hs]
    exact hu.pop (hheld hok).2
  | grant =>
    rw [← Option.some.inj hs]
    have hp := (coros_perm ht).flatMap_right Coro.held
    rw [hok, List.flatMap_cons] at hp
    exact hu._implicit_grant (List.append_eq_nil_iff.mp hp.nil_eq.symm).2
  | busy cur rest win =>
    obtain ⟨y, -, rfl⟩ := Option.map_eq_some_iff.mp hs
    obtain ⟨hl, ho, hw⟩ := hok
    have hi : s.implicit = true := by
      rw [← Bool.not_eq_false]
      exact fun hi => absurd (hheld (h.explicit hi)).1 (by simp [Coro.held])
    refine Kept.busyRound win rest _ ?_ hl ho hi hw
    refine (hu.close (.joinee cur.1)).settle (Or.inr ?_)
    simp [Stream.close, Tcp.close]
  | refused c =>
    obtain ⟨y, -, rfl⟩ := Option.map_eq_some_iff.mp hs
    exact hu.close _
  | badId c =>
    obtain ⟨y, -, rfl⟩ := Option.map_eq_some_iff.mp hs
    exact (hu.close _).refuse (hheld hok).2
  | stokJoiner c =>
    obtain ⟨y, -, rfl⟩ := Option.map_eq_some_iff.mp hs
    have hst : s.state ≠ .opened := hfit
    -- nobody else has a `T_STOK` to send, and the opener has not heard of this one
    have hcount := (coros_perm ht).countP_eq Coro.isStok
    rw [List.countP_cons, if_pos (show (Coro.stokJoiner c).isStok = true from rfl)] at hcount
    have hone := h.stok
    rw [if_neg hst] at hone
    have hsil := h.silent.resolve_right fun hr => by omega
    split
    · exact hu.confirm hsil (by omega) hst c
    · exact hu.fail (hlate hst) _ _
  | stokOpener c =>
    obtain ⟨y, -, rfl⟩ := Option.map_eq_some_iff.mp hs
    split
    · exact hu.spawn rfl rfl hfit
    · exact hu.fail (hlate hfit) _ _
  | early c =>
    rw [← Option.some.inj hs]
    exact hu.spawn rfl rfl hfit
  | reading c => exact hu.readFrame (hlate hfit) hs
  | pipe task pc =>
    cases pc with
    | starting =>
      simp only [resume] at hs
      split at hs
      · rename_i hx
        have hr : s.state = .ready := by simpa using (Bool.and_eq_true_iff.mp hx).2
        split at hs
        · rw [← Option.some.inj hs]
          exact hu.spawn rfl rfl hr
        · rw [← Option.some.inj hs]
          refine hu.spawn rfl rfl ?_
          show s.state ≠ .opened
          rw [hr]
          decide
      · rw [← Option.some.inj hs]
        exact hu
    | running c a b cancelled =>
      obtain ⟨-, hs⟩ := Option.ite_none_right_eq_some.mp hs
      rw [← Option.some.inj hs]
      refine hu.spawn rfl rfl ?_
      show s.state ≠ .opened
      rw [show s.state = .ready from hfit]
      decide
    | ending =>
      rw [← Option.some.inj hs]
      exact hu.pop (hlate hfit)

theorem kept_step {l : Label} {s' : Stream} (h : Kept [] s) (hok : s.Undisturbed l)
    (hs : s.step l = some s') : Kept [] s' := by
  cases l with
  | stjoin c payload =>
    obtain ⟨hl, -, node, -, -, rfl⟩ := join_of_handle hs
    exact h.join hl c node
  | wake i =>
    obtain ⟨t, ht, hs⟩ := Option.bind_eq_some_iff.mp hs
    exact h.wake ht hok hs
  | expire i =>
    simp only [step] at hs
    split at hs
    · rename_i c ht
      rw [← Option.some.inj hs]
      have hst : s.state ≠ .opened := h.fits _ (List.mem_of_getElem? ht)
      have hu := h.without ht fun _ => rfl
      exact hu.fail (hu.claimed hst) _ _
    · exact absurd hs (by simp)
  | pump i back => exact h.pumpStep hs
  | stshut node =>
    rw [← Option.some.inj hs]
    exact h.stshut node
  | net w e =>
    obtain ⟨k, hk, rfl⟩ := Option.map_eq_some_iff.mp hs
    exact h.setConn_nil (Tcp.grows_net hk)
  | hostClaim node v =>
    rw [← Option.some.inj hs]
    exact ⟨h.wf, h.granted, h.fresh, h.verdict, h.silent, h.stok, h.raw, h.fits, h.answered,
      h.explicit, h.claimed, h.popped⟩
  | popped =>
    rw [← Option.some.inj hs]
    exact h.pop hok
  | strayGrant =>
    rw [← Option.some.inj hs]
    exact h._implicit_grant hok
  | strayPipe =>
    rw [← Option.some.inj hs]
    exact h.spawn rfl rfl trivial

/-- **Claim protocol.**  When nobody waits as the record goes, and no BUSY round meets another
grant, one joinee at most is told `T_STOK`, the opener hears one verdict, and every joinee has its
answer once the record is gone. -/
theorem fair_run {sid o d : Nat} {t : Stream} {tr : List (Stream × Label)}
    (h : Path step (opened sid o d) tr t) (hok : ∀ x ∈ tr, x.1.Undisturbed x.2) :
    ∀ u ∈ visited tr t, u.Fair :=
  h.all_of_ok (kept_opened sid o d) (fun _ h => h.fair) (fun _ _ _ h => kept_step h) hok

/-- two joinees answer an unaddressed dial; the one with the fresher host claim gets the stream -/
def twoClaims : List Label :=
  [.stjoin 0 [0, 0, 0, 8, 0, 0, 0, 9], .stjoin 1 [0, 0, 0, 6, 0, 0, 0, 9], .hostClaim 6 5, .wake 1,
   .wake 1, .net (.joinee 1) (.arrive (frame T_STJOINED [0, 0, 0, 9])), .wake 1, .wake 0,
   .net .opener (.arrive [1, 2]), .pump 0 false, .net .opener .fin, .pump 0 false, .wake 0, .wake 0]

theorem fair_twoClaims : ∃ t, run step (opened 9 7 0) twoClaims = some t ∧
    (t.listed = false ∧ (t.conns (.joinee 1)).out = [t.stok, .raw [1, 2]] ∧
      (t.conns (.joinee 0)).out = [t.stfail .BUSY]) ∧
    ∀ u ∈ visited (trace step (opened 9 7 0) twoClaims) t, u.Fair := by
  have hsome : (run step (opened 9 7 0) twoClaims).isSome = true := by decide
  obtain ⟨t, ht⟩ := Option.isSome_iff_exists.mp hsome
  have hok : ∀ x ∈ trace step (opened 9 7 0) twoClaims, x.1.Undisturbed x.2 := by decide
  have hend : ∀ u ∈ run step (opened 9 7 0) twoClaims,
      u.listed = false ∧ (u.conns (.joinee 1)).out = [u.stok, .raw [1, 2]] ∧
        (u.conns (.joinee 0)).out = [u.stfail .BUSY] := by
    decide
  exact ⟨t, ht, hend t ht, fair_run (path_run ht) hok⟩

/-- the budget of the opener ends in the grace window of a claim -/
def lateClaim : List Label := [.stjoin 0 [0, 0, 0, 8, 0, 0, 0, 9], .wake 0]

/-- the record is gone, and the joinee hears nothing and stays connected -/
theorem lateClaim_unanswered : ∃ t, run step (opened 9 7 0) lateClaim = some t ∧ ¬ t.Fair := by
  have hsome : (run step (opened 9 7 0) lateClaim).isSome = true := by decide
  obtain ⟨t, ht⟩ := Option.isSome_iff_exists.mp hsome
  have hend : ∀ u ∈ run step (opened 9 7 0) lateClaim,
      u.listed = false ∧ 0 ∈ u.joined ∧ ¬ (u.conns (.joinee 0)).Answered := by
    decide
  obtain ⟨h1, h2, h3⟩ := hend t ht
  exact ⟨t, ht, fun h => h3 (h.answered h1 0 h2)⟩

end Stream

end ShadowLan
