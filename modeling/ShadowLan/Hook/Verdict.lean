import ShadowLan.Hook.StRecv

/-!
# The opener's wait for its verdict

After `DT_STOPEN` the stream thread calls `dt_st_recv_frame` until it returns 0, or -1 with an
`errno` that is not `EAGAIN`.  Each call has the whole handshake budget, and a header of its own.

* `VerdictWait`        the call of the moment, how many there were, and what earlier ones had read;
* `VerdictWait.step`   a step of the call; one that ends it with `EAGAIN` begins the next;
* `InTouch`            no call is made and no wait begun again after the budget, and no byte that was
                       read is lost;
* `Prompt`             no `select` comes back after the budget, and no length is refused while `errno`
                       says `EAGAIN`;
* `overtime`           how many steps are taken after the budget;
* `verdict_iff`        the wait stays in touch exactly when all steps are prompt; after the budget it
                       takes few steps then.

That a `select` comes back too late is bad in three ways.  In the header the test of the clock ends the
call with `EAGAIN`, which the loop retries; in the body the budget began anew with the length; and
after `EINTR` no test is made.

The Linux build: on Windows the loop tests the `errno` of the C runtime, which no `recv` writes.
-/

namespace ShadowLan

/-- the handshake budget, in milliseconds -/
def DT_ST_TIMEOUT_MS : Nat := 10000

/-- a `select` that the wait goes on after, or that the budget ends -/
def FrameEv.comesBack : FrameEv → Bool
  | .select .fires | .select .intr => true
  | _ => false

/-- the thread does nothing -/
def FrameEv.passes : FrameEv → Bool
  | .tick _ => true
  | _ => false

structure VerdictWait where
  call : FrameCall
  /-- how many calls were made -/
  calls : Nat
  /-- when the wait began, and when it last went round: a call was made, or a `select` came back -/
  began : Nat
  round : Nat
  /-- what the calls before this one had read -/
  lost : Bytes
  deriving DecidableEq

namespace VerdictWait

def start (inp : Bytes) (now : Nat) (errno : FrameErrno) : VerdictWait :=
  ⟨.start inp now errno, 1, now, now, []⟩

/-- the loop's test, when the step `e` of the call has led to `c` -/
def after (q : VerdictWait) (e : FrameEv) (c : FrameCall) : VerdictWait :=
  if c.pc = .ret none ∧ c.errno = .again then
    ⟨.start c.inp c.now .again, q.calls + 1, q.began, c.now, q.lost ++ (c.hdr ++ c.p)⟩
  else { q with call := c, round := if e.comesBack then c.now else q.round }

def step (q : VerdictWait) (e : FrameEv) : Option VerdictWait :=
  (q.call.step DT_ST_TIMEOUT_MS RP_SIZE e).map (q.after e)

/-- when the budget of the handshake is over -/
def deadline (q : VerdictWait) : Nat := q.began + DT_ST_TIMEOUT_MS

/-- the wait last went round within the budget, and no call has taken bytes away from the last one -/
def InTouch (q : VerdictWait) : Prop := q.round ≤ q.deadline ∧ q.lost = []

/-- a `select` comes back within the budget, and no length is refused while `errno` is `EAGAIN` -/
def Prompt (q : VerdictWait) (e : FrameEv) : Prop :=
  (e.comesBack = true → q.call.now ≤ q.deadline) ∧
    (q.call.refuses RP_SIZE e = true → q.call.errno ≠ .again)

instance (q : VerdictWait) (e : FrameEv) : Decidable (q.Prompt e) := by
  unfold Prompt
  infer_instance

/-- the steps of the loop when the budget is over -/
def overtime (tr : List (VerdictWait × FrameEv)) : Nat :=
  tr.countP fun x => decide (x.1.deadline < x.1.call.now) && !x.2.passes

end VerdictWait

/-! ## which calls the loop retries -/

namespace FrameCall
variable {u u' : FrameCall} {tmo pcap : Nat}

/-- a call that waits has seen a `recv` that would block -/
def Blocked (u : FrameCall) : Prop := u.waits → u.errno = .again

theorem header_failed_iff : (u.header pcap).pc = .ret none ↔
    4 ≤ u.hdr.length ∧ fits pcap u.ml = false := by
  refine ⟨fun h => ⟨(header_failed h).1, (header_failed h).2.1⟩, fun h => ?_⟩
  unfold FrameCall.header
  have hlt : ¬ u.hdr.length < 4 := Nat.not_lt.mpr h.1
  have hf : ¬ fits pcap u.ml = true := Bool.eq_false_iff.mp h.2
  rw [if_neg hlt, if_neg hf]
  rfl

theorem header_errno : (u.header pcap).errno = u.errno := by
  unfold FrameCall.header
  split
  · rfl
  · split <;> rfl

theorem header_pc : ¬ (u.header pcap).waits := by
  unfold FrameCall.header
  rintro (h | h)
  · split at h
    · cases h
    · split at h <;> cases h
  · split at h
    · cases h
    · split at h <;> cases h

theorem content_pc : ¬ u.content.waits := by
  unfold FrameCall.content
  rintro (h | h) <;> split at h <;> cases h

/-- the same call, later or with another `errno`, is not timed out by what breaks it -/
theorem timesOut_of_breaks {e : FrameEv} (h : e.breaks = true) : u.timesOut tmo e = false := by
  cases e with
  | select a =>
    cases a with
    | fires => cases h
    | intr | err => rfl
  | recv | tick => rfl

theorem refuses_of_breaks {e : FrameEv} (h : e.breaks = true) : u.refuses pcap e = false := by
  cases e with
  | recv a =>
    cases a with
    | got k => cases h
    | eof | again | err => rfl
  | select | tick => rfl

theorem refuses_body {k : Nat} (hpc : u.pc = .body) : u.refuses pcap (.recv (.got k)) = false := by
  show (u.pc == .hdr && _ && _) = false
  rw [hpc]
  rfl

/-- **which calls the loop takes for timed out**: those that the budget ends, and those that refuse a
length after a `recv` that would have blocked -/
theorem Turn.retried_iff {e : FrameEv} (ht : Turn tmo pcap u e u') (hb : u.Blocked)
    (hu : u.pc ≠ .ret none) : (u'.pc = .ret none ∧ u'.errno = .again) ↔
      u.timesOut tmo e = true ∨ u.refuses pcap e = true ∧ u.errno = .again := by
  cases ht with
  | tick ms =>
    refine iff_of_false (fun h => hu h.1) ?_
    rintro (h | ⟨h, -⟩) <;> cases h
  | header k hpc hk =>
    rw [header_failed_iff, header_errno]
    have hr : u.refuses pcap (.recv (.got k)) = true ↔ 4 ≤ (u.hdr ++ u.inp.take k).length ∧
        fits pcap (dtGet32 (u.hdr ++ u.inp.take k) 0) = false := by
      show (u.pc == .hdr && decide (4 ≤ (u.hdr ++ u.inp.take k).length) &&
        !fits pcap (dtGet32 (u.hdr ++ u.inp.take k) 0)) = true ↔ _
      rw [hpc, Bool.and_eq_true, Bool.and_eq_true, decide_eq_true_iff, Bool.not_eq_true',
        and_iff_right (beq_self_eq_true FramePc.hdr)]
    rw [hr]
    exact ⟨Or.inr, fun h => h.resolve_left fun h => by cases h⟩
  | content k hpc hk =>
    rw [refuses_body hpc]
    refine iff_of_false (fun h => content_not_failed h.1) ?_
    rintro (h | ⟨h, -⟩) <;> cases h
  | wait a pc hpc ha =>
    refine iff_of_false ?_ ?_
    · rcases hpc with ⟨-, rfl⟩ | ⟨-, rfl⟩ <;> exact fun h => FramePc.noConfusion h.1
    · rcases ha with rfl | rfl <;> rintro (h | ⟨h, -⟩) <;> cases h
  | back a errno hpc ha hl =>
    refine iff_of_false ?_ ?_
    · rcases hpc with hpc | hpc <;> rw [hpc] <;> exact fun h => FramePc.noConfusion h.1
    · cases a with
      | fires =>
        rintro (h | ⟨h, -⟩)
        · have hlate : u.late tmo = true := h
          rw [hl rfl] at hlate
          cases hlate
        · cases h
      | intr => rintro (h | ⟨h, -⟩) <;> cases h
      | err => exact absurd rfl ha
  | broken e errno hpc he hno =>
    rw [timesOut_of_breaks he, refuses_of_breaks he]
    refine iff_of_false (fun h => hno h.2) ?_
    rintro (h | ⟨h, -⟩) <;> cases h
  | late errno hpc hl hno =>
    refine iff_of_true ⟨rfl, ?_⟩ (Or.inl hl)
    rcases hno with rfl | ⟨-, rfl⟩
    · rfl
    · exact hb hpc

theorem Turn.blocked {e : FrameEv} (ht : Turn tmo pcap u e u') (hb : u.Blocked) : u'.Blocked := by
  cases ht with
  | tick ms => exact hb
  | header k hpc hk => exact fun h => absurd h header_pc
  | content k hpc hk => exact fun h => absurd h content_pc
  | wait a pc hpc ha => exact fun _ => rfl
  | back a errno hpc =>
    rintro (h | h) <;> rcases hpc with hpc | hpc <;> rw [hpc] at h <;> cases h
  | broken e errno hpc | late errno hpc => rintro (h | h) <;> cases h

/-- the clock of a call: neither its own nor that of its budget goes back -/
theorem Turn.clock {e : FrameEv} {t : Nat} (ht : Turn tmo pcap u e u') (h : t ≤ u.t0 ∧ t ≤ u.now) :
    t ≤ u'.t0 ∧ t ≤ u'.now := by
  cases ht with
  | tick ms => exact ⟨h.1, Nat.le_trans h.2 (Nat.le_add_right _ _)⟩
  | header k hpc hk =>
    unfold FrameCall.header
    split
    · exact h
    · split
      · exact ⟨h.2, h.2⟩
      · exact h
  | content k hpc hk =>
    unfold FrameCall.content
    split <;> exact h
  | wait | back | broken | late => exact h

/-- a call is timed out by a `select` that comes back too late -/
theorem timesOut_iff {e : FrameEv} : u.timesOut tmo e = true ↔
    e = .select .fires ∧ tmo < u.now - u.t0 := by
  refine ⟨fun h => ?_, ?_⟩
  · cases e with
    | select a =>
      cases a with
      | fires => exact ⟨rfl, of_decide_eq_true h⟩
      | intr | err => cases h
    | recv | tick => cases h
  · rintro ⟨rfl, h⟩
    exact decide_eq_true h

theorem comesBack_iff {e : FrameEv} : e.comesBack = true ↔ e = .select .fires ∨ e = .select .intr := by
  refine ⟨fun h => ?_, ?_⟩
  · cases e with
    | select a =>
      cases a with
      | fires => exact Or.inl rfl
      | intr => exact Or.inr rfl
      | err => cases h
    | recv | tick => cases h
  · rintro (rfl | rfl) <;> rfl

theorem Turn.select_now {a : SelAns} (ht : Turn tmo pcap u (.select a) u') : u'.now = u.now := by
  cases ht with
  | back | broken | late => rfl

theorem header_hdr : (u.header pcap).hdr = u.hdr := by
  unfold FrameCall.header
  split
  · rfl
  · split <;> rfl

/-- a length that was refused has been read -/
theorem Turn.read {e : FrameEv} (ht : Turn tmo pcap u e u') (h : u.refuses pcap e = true) :
    u'.hdr ≠ [] := by
  cases ht with
  | header k hpc hk =>
    have hr : (u.pc == .hdr && decide (4 ≤ (u.hdr ++ u.inp.take k).length) &&
        !fits pcap (dtGet32 (u.hdr ++ u.inp.take k) 0)) = true := h
    rw [Bool.and_eq_true, Bool.and_eq_true, decide_eq_true_iff] at hr
    rw [header_hdr]
    intro hnil
    have hle : 4 ≤ (u.hdr ++ u.inp.take k).length := hr.1.2
    have hz : (u.hdr ++ u.inp.take k).length = 0 := congrArg List.length hnil
    omega
  | content k hpc =>
    rw [refuses_body hpc] at h
    cases h
  | broken e errno hpc he =>
    rw [refuses_of_breaks he] at h
    cases h
  | wait a pc hpc ha => rcases ha with rfl | rfl <;> cases h
  | tick | back | late => cases h

/-- the clock does not go back -/
theorem Turn.now_le {e : FrameEv} (ht : Turn tmo pcap u e u') : u.now ≤ u'.now := by
  cases ht with
  | tick ms => exact Nat.le_add_right _ _
  | header k hpc hk =>
    unfold FrameCall.header
    split
    · exact Nat.le_refl _
    · split <;> exact Nat.le_refl _
  | content k hpc hk =>
    unfold FrameCall.content
    split <;> exact Nat.le_refl _
  | wait | back | broken | late => exact Nat.le_refl _

/-! ## how long a call goes on -/

/-- how many steps a call can take before a `select` comes back -/
def work (u : FrameCall) : Nat :=
  match u.pc with
  | .hdr => RP_SIZE + 2 + (4 - u.hdr.length)
  | .body => u.ml - u.p.length + 1
  | .hdrWait | .bodyWait => 1
  | .ret _ => 0

theorem work_le (h : u.Stored RP_SIZE) : u.work ≤ RP_SIZE + 6 := by
  unfold Stored at h
  unfold work
  cases hpc : u.pc with
  | hdr => exact Nat.add_le_add_left (Nat.sub_le 4 _) (RP_SIZE + 2)
  | body =>
    rw [hpc] at h
    have hml := (fits_iff.mp h.2.1).2.2
    show u.ml - u.p.length + 1 ≤ RP_SIZE + 6
    omega
  | hdrWait | bodyWait => exact Nat.le_add_left 1 (RP_SIZE + 5)
  | ret r => exact Nat.zero_le _

theorem work_header {n : Nat} (hn : n < 4) (hlt : n < u.hdr.length) :
    (u.header RP_SIZE).work < RP_SIZE + 2 + (4 - n) := by
  unfold FrameCall.header
  by_cases h4 : u.hdr.length < 4
  · rw [if_pos h4]
    show RP_SIZE + 2 + (4 - u.hdr.length) < _
    omega
  · rw [if_neg h4]
    by_cases hf : fits RP_SIZE u.ml = true
    · rw [if_pos hf]
      have hml := (fits_iff.mp hf).2.2
      show u.ml - u.p.length + 1 < _
      omega
    · rw [if_neg hf]
      show 0 < _
      omega

/-- every such step leaves less to do -/
theorem Turn.work_lt {e : FrameEv} (ht : Turn tmo RP_SIZE u e u') (h : u.Stored RP_SIZE)
    (hpass : e.passes = false) (hback : e.comesBack = false) : u'.work < u.work := by
  unfold Stored at h
  cases ht with
  | tick ms => cases hpass
  | header k hpc hk hgot =>
    rw [hpc] at h
    have hw : u.work = RP_SIZE + 2 + (4 - u.hdr.length) := by
      unfold work
      rw [hpc]
    rw [hw]
    refine work_header h.1 ?_
    show u.hdr.length < (u.hdr ++ u.inp.take k).length
    rw [List.length_append, List.length_take]
    omega
  | content k hpc hk hgot =>
    rw [hpc] at h
    have hw : u.work = u.ml - u.p.length + 1 := by
      unfold work
      rw [hpc]
    have hlen : (u.p ++ u.inp.take k).length = u.p.length + k := by
      rw [List.length_append, List.length_take, Nat.min_eq_left hgot.2]
    rw [hw]
    unfold FrameCall.content
    split
    · show u.ml - (u.p ++ u.inp.take k).length + 1 < _
      omega
    · exact Nat.succ_pos _
  | wait a pc hpc ha =>
    rcases hpc with ⟨hpc, rfl⟩ | ⟨hpc, rfl⟩ <;> rw [hpc] at h <;> unfold work <;> rw [hpc]
    · exact Nat.lt_add_right _ (show 1 < RP_SIZE + 2 by decide)
    · have hlt : u.p.length < u.ml := h.2.2
      show 1 < u.ml - u.p.length + 1
      omega
  | back a errno hpc ha =>
    cases a with
    | fires | intr => cases hback
    | err => exact absurd rfl ha
  | broken e errno hpc =>
    show 0 < u.work
    unfold work
    cases hr : u.pc with
    | hdr => exact Nat.add_pos_left (by decide) _
    | body => exact Nat.succ_pos _
    | hdrWait | bodyWait => exact Nat.one_pos
    | ret r => exact absurd hr (hpc r)
  | late => cases hback

end FrameCall

/-! ## the wait -/

namespace VerdictWait
variable {q q' : VerdictWait}

/-- the first call, in time -/
structure First (inp : Bytes) (q : VerdictWait) : Prop where
  calls : q.calls = 1
  round : q.round ≤ q.deadline
  lost : q.lost = []
  clock : q.began ≤ q.call.t0 ∧ q.began ≤ q.call.now
  blocked : q.call.Blocked
  sound : q.call.Sound RP_SIZE inp

variable {inp : Bytes}

/-- a call that goes on has not returned -/
theorem reading_of_step {e : FrameEv} {c : FrameCall} {tmo pcap : Nat}
    (h : q.call.step tmo pcap e = some c) : q.call.pc ≠ .ret none := by
  intro hpc
  unfold FrameCall.step at h
  rw [hpc] at h
  cases h

/-- the budget of a call runs from the beginning of the wait, or from later -/
theorem First.late (h : q.First inp) {e : FrameEv}
    (hl : q.call.timesOut DT_ST_TIMEOUT_MS e = true) :
    e = .select .fires ∧ q.deadline < q.call.now := by
  obtain ⟨he, hlt⟩ := FrameCall.timesOut_iff.mp hl
  have h0 := h.clock.1
  exact ⟨he, show q.began + DT_ST_TIMEOUT_MS < q.call.now by omega⟩

/-- the step, and whether the loop retries after it -/
theorem First.step {e : FrameEv} (h : q.First inp) (hs : q.step e = some q') :
    (q.Prompt e ∧ q'.First inp) ∨ (¬ q.Prompt e ∧ ¬ q'.InTouch) := by
  obtain ⟨c, hc, rfl⟩ := Option.map_eq_some_iff.mp hs
  have ht := FrameCall.turn_of_step hc
  have hiff := ht.retried_iff h.blocked (reading_of_step hc)
  have hnow : e.comesBack = true → c.now = q.call.now := by
    intro hb
    rcases FrameCall.comesBack_iff.mp hb with rfl | rfl <;> exact ht.select_now
  unfold after
  by_cases hr : c.pc = .ret none ∧ c.errno = .again
  · -- the loop makes another call
    rw [if_pos hr]
    refine Or.inr ⟨fun hp => ?_, fun hin => ?_⟩
    · rcases hiff.mp hr with hl | ⟨hf, hag⟩
      · obtain ⟨rfl, hlt⟩ := h.late hl
        exact Nat.not_le.mpr hlt (hp.1 rfl)
      · exact hp.2 hf hag
    · have hin1 : c.now ≤ q.deadline := hin.1
      have hin2 : q.lost ++ (c.hdr ++ c.p) = [] := hin.2
      rcases hiff.mp hr with hl | ⟨hf, -⟩
      · obtain ⟨rfl, hlt⟩ := h.late hl
        rw [hnow rfl] at hin1
        exact Nat.not_le.mpr hlt hin1
      · exact ht.read hf (List.append_eq_nil_iff.mp (List.append_eq_nil_iff.mp hin2).2).1
  · rw [if_neg hr]
    have hkept : q.call.refuses RP_SIZE e = true → q.call.errno ≠ .again :=
      fun hf hag => hr (hiff.mpr (Or.inr ⟨hf, hag⟩))
    by_cases hb : e.comesBack = true ∧ q.deadline < q.call.now
    · -- the wait goes on, and the budget is over
      refine Or.inr ⟨fun hp => Nat.not_le.mpr hb.2 (hp.1 hb.1), fun hin => ?_⟩
      have hin1 : (if e.comesBack = true then c.now else q.round) ≤ q.deadline := hin.1
      rw [if_pos hb.1, hnow hb.1] at hin1
      exact Nat.not_le.mpr hb.2 hin1
    · have hin : e.comesBack = true → q.call.now ≤ q.deadline :=
        fun he => Nat.not_lt.mp fun hlt => hb ⟨he, hlt⟩
      refine Or.inl ⟨⟨hin, hkept⟩, h.calls, ?_, h.lost, ht.clock h.clock, ht.blocked h.blocked,
        h.sound.turn ht⟩
      show (if e.comesBack = true then c.now else q.round) ≤ q.deadline
      split
      · next he => exact hnow he ▸ hin he
      · exact h.round

/-- in a run of prompt steps: what was done after the budget, and what is left to do -/
structure Closing (inp : Bytes) (tr : List (VerdictWait × FrameEv)) (q : VerdictWait) : Prop where
  first : q.First inp
  none : q.call.now ≤ q.deadline → overtime tr = 0
  few : overtime tr + q.call.work ≤ RP_SIZE + 6

theorem overtime_snoc {tr : List (VerdictWait × FrameEv)} {e : FrameEv} :
    overtime (tr ++ [(q, e)]) =
      overtime tr + if q.deadline < q.call.now ∧ e.passes = false then 1 else 0 := by
  unfold overtime
  rw [List.countP_append, List.countP_singleton]
  simp only [Bool.and_eq_true, decide_eq_true_iff, Bool.not_eq_true']

/-- time that passes leaves the work as it is -/
theorem work_passes {e : FrameEv} {c : FrameCall}
    (ht : FrameCall.Turn DT_ST_TIMEOUT_MS RP_SIZE q.call e c) (hpass : e.passes = true) :
    c.work = q.call.work := by
  cases ht with
  | tick ms => rfl
  | broken e errno hpc he =>
    cases e with
    | tick ms => cases he
    | recv | select => cases hpass
  | header | content | wait | back | late => cases hpass

theorem Closing.step {tr : List (VerdictWait × FrameEv)} {e : FrameEv} (h : q.Closing inp tr)
    (hp : q.Prompt e) (hs : q.step e = some q') : q'.Closing inp (tr ++ [(q, e)]) := by
  have hfirst : q'.First inp := by
    rcases h.first.step hs with ⟨-, h'⟩ | ⟨hno, -⟩
    · exact h'
    · exact absurd hp hno
  obtain ⟨c, hc, rfl⟩ := Option.map_eq_some_iff.mp hs
  have ht := FrameCall.turn_of_step hc
  -- the loop has made no other call
  have hcall : (q.after e c).call = c ∧ (q.after e c).deadline = q.deadline := by
    have hone := hfirst.calls
    unfold after at hone ⊢
    split at hone
    · next hr =>
      have hcalls : q.calls + 1 = 1 := hone
      rw [h.first.calls] at hcalls
      cases hcalls
    · next hr =>
      rw [if_neg hr]
      exact ⟨rfl, rfl⟩
  have hnow := ht.now_le
  have hstored : c.Stored RP_SIZE := (h.first.sound.turn ht).stored
  have hnone := h.none
  have hfew := h.few
  refine ⟨hfirst, ?_, ?_⟩ <;> rw [hcall.1, overtime_snoc]
  · rw [hcall.2]
    intro hle
    rw [if_neg (fun hlt => by omega), h.none (Nat.le_trans hnow hle)]
  · cases hpass : e.passes with
    | true =>
      rw [if_neg (fun hlt => Bool.noConfusion hlt.2), work_passes ht hpass]
      exact hfew
    | false =>
      by_cases hlt : q.deadline < q.call.now
      · have hback : e.comesBack = false :=
          Bool.eq_false_iff.mpr fun hb => Nat.not_le.mpr hlt (hp.1 hb)
        have hless := ht.work_lt h.first.sound.stored hpass hback
        rw [if_pos ⟨hlt, rfl⟩]
        omega
      · rw [if_neg (fun hover => hlt hover.1), h.none (Nat.not_lt.mp hlt), Nat.zero_add]
        exact FrameCall.work_le hstored

end VerdictWait

end ShadowLan
