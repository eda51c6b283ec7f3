import ShadowLan.Relay.Streams

/-!
# A join that is refused

`handle_stream_join` refuses a stream that is claimed with `STF_BUSY`, `_implicit_grant` the losers
of an unaddressed stream alike, and `_grant_claim` a node that is not the destination with
`STF_BAD_ID`.  The first two leave the stream to the others.  The third goes on to `_stream_fail`:
the opener hears `STF_BAD_ID` as well, and the record is gone.

* `Refusal`       where a joinee is refused;
* `Within`        the streams that a step goes through, refusal by refusal;
* `Spared`        the record, the opener's connection and what waits for the stream are as before,
                  and every other claim fares as it would have;
* `spared_iff`    a refusal spares the stream unless it gets to `_stream_fail` while that is listed;
* `step_within`   nothing else in a step sends `T_STFAIL` to a joinee.
-/

namespace ShadowLan

def Piece.isRefusal : Piece → Bool
  | .frame t _ => t == T_STFAIL
  | .raw _ => false

/-- the `T_STFAIL`s among what was written -/
def refusals (out : List Piece) : List Piece := out.filter Piece.isRefusal

/-- where the joinee of a connection is refused -/
inductive Refusal where
  /-- `handle_stream_join` -/
  | join (c node : Nat)
  /-- a pass of the loop in `_implicit_grant` -/
  | loser (l : StClaim) (rest : List StClaim) (win : StClaim)
  /-- `_grant_claim`, called by `_implicit_grant` -/
  | winner (c node : Nat)
  /-- the `tcp_send` of an `STF_BUSY` comes back -/
  | busySent (c : Nat)
  /-- that of an `STF_BAD_ID` -/
  | badIdSent (c : Nat)

def Refusal.conn : Refusal → Nat
  | .join c _ | .winner c _ | .busySent c | .badIdSent c => c
  | .loser l _ _ => l.1

namespace Stream

/-- `s` and `t` differ in connection `c` and the coroutines alone -/
def Like (c : Nat) (s t : Stream) : Prop :=
  ∃ k l j, t = { s with conns := k, coros := l, joined := j } ∧
    (∀ w, w ≠ .joinee c → k w = s.conns w) ∧ ∀ c', c' ≠ c → (c' ∈ j ↔ c' ∈ s.joined)

/-- what a refusal of connection `c` should leave of the stream -/
structure Spared (c : Nat) (s t : Stream) : Prop where
  record : t = { s with conns := t.conns, coros := t.coros, joined := t.joined }
  opener : t.conns .opener = s.conns .opener
  coros : s.coros <+: t.coros
  /-- any other connection claims it as before -/
  claims : ∀ c' payload, c' ≠ c →
    Option.Rel (Like c) (s.handle_stream_join c' payload) (t.handle_stream_join c' payload)

/-- `node` may not have the stream -/
def Stranger (s : Stream) (node : Nat) : Prop := s.dest_node ≠ 0 ∧ node ≠ s.dest_node

/-- the `tcp_send` of an `STF_BAD_ID` does not come back at once -/
def Stuck (s : Stream) (c : Nat) : Prop := ((s.conns (.joinee c)).send (s.stfail .BAD_ID)).2 = .waits

end Stream

namespace Refusal

/-- the relay gets there with `s`, and refuses -/
def Due (s : Stream) : Refusal → Prop
  | .join c node => s.listed = true ∧ c ∉ s.joined ∧
      (s.state ≠ .opened ∨ s.implicit = false ∧ s.Stranger node)
  | .winner _ node => s.Stranger node
  | _ => True

/-- the stream when the refusal is through, or suspended in its `tcp_send` -/
def run (s : Stream) : Refusal → Stream
  | .join c node => s.join c node
  | .loser l rest win =>
    s.send (.joinee l.1) (s.stfail .BUSY) (fun s => s.spawn (.busy l rest win))
      fun _ s => s.close (.joinee l.1)
  | .winner c node => s._grant_claim c node
  | .busySent c => s.close (.joinee c)
  | .badIdSent c => s.refuse c

/-- the condition: it does not come to `_stream_fail` while the record is there -/
def Spares (s : Stream) : Refusal → Prop
  | .join c _ => s.state ≠ .opened ∨ s.Stuck c
  | .winner c _ => s.listed = false ∨ s.Stuck c
  | .badIdSent _ => s.listed = false
  | _ => True

end Refusal

namespace Stream

/-- the streams that a step of `s` goes through while it refuses -/
inductive Within (s : Stream) : Stream → Prop
  | start : Within s s
  /-- a coroutine goes on -/
  | woken (i : Nat) : Within s (s.without i)
  /-- `_implicit_grant` takes the claims -/
  | taken {u : Stream} (h : Within s u) : Within s { u with claims := [], grant_task := false }
  | refused {u : Stream} (h : Within s u) {r : Refusal} (hr : r.Due u) : Within s (r.run u)

variable {s t : Stream} {c : Nat}

/-! ## streams that differ in one connection -/

theorem Like.setConn (h : Like c s t) (w : Who) (k : Tcp) :
    Like c (s.setConn w k) (t.setConn w k) := by
  obtain ⟨k', l, j, rfl, hk, hj⟩ := h
  refine ⟨Function.update k' w k, l, j, rfl, fun w' hw => ?_, hj⟩
  by_cases he : w' = w
  · subst he
    rw [Function.update_self, setConn_self]
  · rw [Function.update_of_ne he, setConn_other _ he, hk w' hw]

theorem Like.spawn (h : Like c s t) (x : Coro) : Like c (s.spawn x) (t.spawn x) := by
  obtain ⟨k, l, j, rfl, hk, hj⟩ := h
  exact ⟨k, l ++ [x], j, rfl, hk, hj⟩

theorem Like.close (h : Like c s t) (w : Who) : Like c (s.close w) (t.close w) := by
  by_cases hw : w = .joinee c
  · subst hw
    obtain ⟨k, l, j, rfl, hk, hj⟩ := h
    refine ⟨Function.update k (.joinee c) (k (.joinee c)).close, l, j, rfl, fun w' hw => ?_, hj⟩
    rw [Function.update_of_ne hw, Stream.close, setConn_other _ hw, hk w' hw]
  · have hc : t.conns w = s.conns w := by
      obtain ⟨k, l, j, rfl, hk, -⟩ := h
      exact hk w hw
    unfold Stream.close
    rw [hc]
    exact h.setConn w _

/-- the send comes out alike -/
theorem Like.send (h : Like c s t) {w : Who} (hw : w ≠ .joinee c) (o : Piece)
    {waits : Stream → Stream} {fin : Sent → Stream → Stream}
    (hwait : ∀ u v, Like c u v → Like c (waits u) (waits v))
    (hfin : ∀ x u v, Like c u v → Like c (fin x u) (fin x v)) :
    Like c (s.send w o waits fin) (t.send w o waits fin) := by
  have hc : t.conns w = s.conns w := by
    obtain ⟨k, l, j, rfl, hk, -⟩ := h
    exact hk w hw
  unfold Stream.send
  rw [hc]
  rcases (s.conns w).send o with ⟨k, r⟩
  cases r with
  | waits => exact hwait _ _ (h.setConn w k)
  | ok => exact hfin _ _ _ (h.setConn w k)
  | raised => exact hfin _ _ _ (h.setConn w k)

theorem Like.closeEnds (h : Like c s t) : Like c s.closeEnds t.closeEnds := by
  have hj : t.joiner = s.joiner := by
    obtain ⟨k, l, j, rfl, -⟩ := h
    rfl
  unfold Stream.closeEnds
  rw [hj]
  split
  · exact h.close .opener
  · exact (h.close .opener).close _

theorem Like.pop (h : Like c s t) : Like c s.pop t.pop := by
  have hl : t.listed = s.listed := by
    obtain ⟨k, l, j, rfl, -⟩ := h
    rfl
  unfold Stream.pop
  rw [hl]
  split
  · obtain ⟨k, l, j, he, hk, hj⟩ := h.closeEnds
    rw [he]
    exact ⟨k, _, j, rfl, hk, hj⟩
  · exact h

theorem Like.fail (h : Like c s t) (task : Bool) (r : Reason) :
    Like c (s.fail task r) (t.fail task r) := by
  have hc : t.conns .opener = s.conns .opener ∧ t.state = s.state ∧ t.stfail r = s.stfail r := by
    obtain ⟨k, l, j, rfl, hk, -⟩ := h
    exact ⟨hk .opener (by simp), rfl, rfl⟩
  unfold Stream.fail
  rw [hc.1, hc.2.1, hc.2.2]
  split
  · exact h.send (by simp) _ (fun u v hu => hu.spawn _) fun x u v hu => hu.pop
  · exact h.pop

/-! ## claims fare alike -/

theorem Like.confirm (h : Like c s t) (c' : Nat) : Like c (s.confirm c') (t.confirm c') := by
  obtain ⟨k, l, j, rfl, hk, hj⟩ := h
  have h1 : Like c { s with state := .ready }
      { s with conns := k, coros := l, joined := j, state := .ready } := ⟨k, l, j, rfl, hk, hj⟩
  have hw : Who.opener ≠ .joinee c := nofun
  unfold Stream.confirm
  dsimp only
  refine h1.send hw _ (fun u v hu => hu.spawn _) fun x u v hu => ?_
  split
  · exact hu.spawn _
  · exact hu.fail false .NO_ROUTE

theorem Like.claim (h : Like c s t) {c' : Nat} (hc : c' ≠ c) (node : Nat) :
    Like c (s.claim c' node) (t.claim c' node) := by
  have hw : Who.joinee c' ≠ .joinee c := fun he => hc (Who.joinee.inj he)
  have hstok : ∀ {u v : Stream}, Like c u v →
      Like c (u.send (.joinee c') u.stok (fun s => s.spawn (.stokJoiner c')) fun r s =>
          if r = .ok then s.confirm c' else s.fail false .NO_ROUTE)
        (v.send (.joinee c') v.stok (fun s => s.spawn (.stokJoiner c')) fun r s =>
          if r = .ok then s.confirm c' else s.fail false .NO_ROUTE) := by
    intro u v hu
    have ho : v.stok = u.stok := by
      obtain ⟨k, l, j, rfl, -⟩ := hu
      rfl
    rw [ho]
    refine hu.send hw _ (fun u v hu => hu.spawn _) fun x u v hu => ?_
    split
    · exact hu.confirm c'
    · exact hu.fail false .NO_ROUTE
  obtain ⟨k, l, j, rfl, hk, hj⟩ := h
  unfold Stream.claim
  dsimp only
  split
  · have h1 : Like c
        { s with
          joiner := some c', state := .joined, shut_from := false
          dest_node := if s.dest_node = 0 then node else s.dest_node }
        { s with
          joiner := some c', state := .joined, shut_from := false
          dest_node := if s.dest_node = 0 then node else s.dest_node
          conns := k, coros := l, joined := j } := ⟨k, l, j, rfl, hk, hj⟩
    have hk' : k (.joinee c') = s.conns (.joinee c') := hk _ hw
    refine hstok ?_
    have h2 := h1.setConn (.joinee c') (s.conns (.joinee c')).write_eof
    unfold write_eof
    dsimp only
    rw [hk']
    exact h2
  · exact hstok ⟨k, l, j, rfl, hk, hj⟩

theorem Like._grant_claim (h : Like c s t) {c' : Nat} (hc : c' ≠ c) (node : Nat) :
    Like c (s._grant_claim c' node) (t._grant_claim c' node) := by
  have hw : Who.joinee c' ≠ .joinee c := fun he => hc (Who.joinee.inj he)
  have hf : t.dest_node = s.dest_node ∧ t.stfail .BAD_ID = s.stfail .BAD_ID := by
    obtain ⟨k, l, j, rfl, -⟩ := h
    exact ⟨rfl, rfl⟩
  unfold Stream._grant_claim
  rw [hf.1, hf.2]
  split
  · exact h.send hw _ (fun u v hu => hu.spawn _) fun x u v hu => (hu.close _).fail false .BAD_ID
  · exact h.claim hc node

theorem Like.join (h : Like c s t) {c' : Nat} (hc : c' ≠ c) (node : Nat) :
    Like c (s.join c' node) (t.join c' node) := by
  have hw : Who.joinee c' ≠ .joinee c := fun he => hc (Who.joinee.inj he)
  obtain ⟨k, l, j, rfl, hk, hj⟩ := h
  have hj' : ∀ d, d ≠ c → (d ∈ c' :: j ↔ d ∈ c' :: s.joined) := fun d hd => by
    rw [List.mem_cons, List.mem_cons, hj d hd]
  have h1 : Like c { s with joined := c' :: s.joined }
      { s with conns := k, coros := l, joined := c' :: j } := ⟨k, l, c' :: j, rfl, hk, hj'⟩
  unfold Stream.join
  dsimp only
  split
  · exact h1.send hw _ (fun u v hu => hu.spawn _) fun x u v hu => hu.close _
  split
  · split
    · exact ⟨k, l, c' :: j, rfl, hk, hj'⟩
    · exact ⟨k, l ++ [.grant], c' :: j, rfl, hk, hj'⟩
  · exact h1._grant_claim hc node

theorem Like.handle_stream_join (h : Like c s t) {c' : Nat} (hc : c' ≠ c) (payload : Bytes) :
    Option.Rel (Like c) (s.handle_stream_join c' payload) (t.handle_stream_join c' payload) := by
  have hf : t.listed = s.listed ∧ t.sid = s.sid ∧ t.joined.contains c' = s.joined.contains c' := by
    obtain ⟨k, l, j, rfl, -, hj⟩ := h
    exact ⟨rfl, rfl, by simp [hj c' hc]⟩
  unfold Stream.handle_stream_join
  rw [hf.1, hf.2.1, hf.2.2]
  split
  · exact .none
  split
  · exact .none
  · exact .some (h.join hc _)

/-! ## refusals that leave the stream alone -/

/-- the joinee's connection and more coroutines are all that changes -/
structure Apart (c : Nat) (s t : Stream) : Prop where
  like : Like c s t
  coros : s.coros <+: t.coros

theorem Apart.spared (h : Apart c s t) : Spared c s t where
  record := by
    obtain ⟨k, l, j, rfl, -⟩ := h.like
    rfl
  opener := by
    obtain ⟨k, l, j, rfl, hk, -⟩ := h.like
    exact hk .opener nofun
  coros := h.coros
  claims c' payload hc := h.like.handle_stream_join hc payload

theorem apart_setConn (s : Stream) (c : Nat) (k : Tcp) : Apart c s (s.setConn (.joinee c) k) :=
  ⟨⟨_, s.coros, s.joined, rfl, fun _ hw => Function.update_of_ne hw .., fun _ _ => Iff.rfl⟩,
    List.prefix_rfl⟩

theorem Like.trans {u : Stream} (h : Like c s t) (h' : Like c t u) : Like c s u := by
  obtain ⟨k, l, j, rfl, hk, hj⟩ := h
  obtain ⟨k', l', j', rfl, hk', hj'⟩ := h'
  exact ⟨k', l', j', rfl, fun w hw => (hk' w hw).trans (hk w hw), fun d hd =>
    (hj' d hd).trans (hj d hd)⟩

theorem Apart.trans {u : Stream} (h : Apart c s t) (h' : Apart c t u) : Apart c s u :=
  ⟨h.like.trans h'.like, h.coros.trans h'.coros⟩

theorem apart_close (s : Stream) (c : Nat) : Apart c s (s.close (.joinee c)) :=
  apart_setConn s c _

theorem apart_spawn (c : Nat) (s : Stream) (x : Coro) : Apart c s (s.spawn x) :=
  ⟨⟨s.conns, s.coros ++ [x], s.joined, rfl, fun _ _ => rfl, fun _ _ => Iff.rfl⟩,
    List.prefix_append _ _⟩

/-- `STF_BUSY` to a joinee -/
theorem apart_busy (s : Stream) (c : Nat) (x : Coro) :
    Apart c s (s.send (.joinee c) (s.stfail .BUSY) (fun s => s.spawn x)
      fun _ s => s.close (.joinee c)) :=
  send_cases (Q := Apart c s) (fun k _ => (apart_setConn s c k).trans (apart_spawn c _ x))
    fun k _ _ _ => (apart_setConn s c k).trans (apart_close _ c)

theorem apart_joined (s : Stream) (c : Nat) : Apart c s { s with joined := c :: s.joined } :=
  ⟨⟨s.conns, s.coros, _, rfl, fun _ _ => rfl, fun d hd => by simp [hd]⟩, List.prefix_rfl⟩

theorem apart_join {node : Nat} (h : s.state ≠ .opened) : Apart c s (s.join c node) := by
  unfold Stream.join
  dsimp only
  rw [if_pos h]
  exact (apart_joined s c).trans (apart_busy _ c (.refused c))

/-! ## refusals that fail the stream -/

/-- a record that is gone has closed its opener -/
def Dropped (s : Stream) : Prop := s.listed = false → (s.conns .opener).closing = true

theorem joinee_opener (s : Stream) (c : Nat) (k : Tcp) :
    (s.setConn (.joinee c) k).conns .opener = s.conns .opener :=
  setConn_other _ (show Who.opener ≠ .joinee c from nofun) k

theorem pop_listed (s : Stream) : s.pop.listed = false := by
  unfold pop
  split
  · rfl
  · rename_i h
    exact Bool.eq_false_iff.mpr h

/-- `_stream_fail` tells the opener, or takes the record out -/
theorem fail_changes (s : Stream) (task : Bool) (r : Reason) : (s.fail task r).listed = false ∨
    (s.fail task r).conns .opener ≠ s.conns .opener := by
  unfold fail
  split
  · rename_i hx
    have hc : (s.conns .opener).closing = false := by simpa using (Bool.and_eq_true_iff.mp hx).1
    refine send_cases (Q := fun t => t.listed = false ∨ t.conns .opener ≠ s.conns .opener)
      (fun k hk => Or.inr fun he => ?_) fun k x _ _ => Or.inl (pop_listed _)
    have he' : k = s.conns .opener := (setConn_self s .opener k).symm.trans he
    rcases Tcp.grows_send hk with ⟨-, -, hg, -⟩ | ⟨hg, -⟩
    · have hgone := (Tcp.gone_iff.mp (hg rfl)).1
      rw [he', hc] at hgone
      exact absurd hgone (by decide)
    · have hout := hg.out
      rw [he'] at hout
      exact absurd hout.symm (by simp)
  · exact Or.inl (pop_listed _)

theorem refuse_not_spared {v : Stream} (hl : s.listed = true)
    (ho : v.conns .opener = s.conns .opener) : ¬ Spared c s (v.refuse c) := by
  intro hs
  have hl' : (v.refuse c).listed = true := by
    rw [hs.record]
    exact hl
  have hc : (v.close (.joinee c)).conns .opener = v.conns .opener := joinee_opener v c _
  rcases fail_changes (v.close (.joinee c)) false .BAD_ID with hf | hf
  · exact absurd (hl'.symm.trans hf) (by decide)
  · exact hf ((hs.opener.trans ho.symm).trans hc.symm)

/-- there is no stream left to fail -/
theorem refuse_dropped (h : s.Dropped) (hl : s.listed = false) :
    s.refuse c = s.close (.joinee c) := by
  have hc : ((s.close (.joinee c)).conns .opener).closing = true := by
    rw [Stream.close, joinee_opener]
    exact h hl
  have hl' : (s.close (.joinee c)).listed = false := hl
  unfold refuse fail pop
  rw [hc, hl']
  rfl

theorem grant_stranger {node : Nat} (h : s.Stranger node) : s._grant_claim c node =
    s.send (.joinee c) (s.stfail .BAD_ID) (fun s => s.spawn (.badId c)) fun _ s => s.refuse c :=
  if_pos h

theorem stranger_stuck {node : Nat} (h : s.Stranger node) (hs : s.Stuck c) :
    Apart c s (s._grant_claim c node) := by
  rw [grant_stranger h]
  unfold send
  unfold Stuck at hs
  rcases hk : (s.conns (.joinee c)).send (s.stfail .BAD_ID) with ⟨k, r⟩
  rw [hk] at hs
  have hr : r = .waits := hs
  subst hr
  exact (apart_setConn s c k).trans (apart_spawn c _ _)

theorem stranger_refused {node : Nat} (h : s.Stranger node) (hs : ¬ s.Stuck c) :
    ∃ k, s._grant_claim c node = (s.setConn (.joinee c) k).refuse c := by
  rw [grant_stranger h]
  unfold send
  unfold Stuck at hs
  rcases hk : (s.conns (.joinee c)).send (s.stfail .BAD_ID) with ⟨k, r⟩
  rw [hk] at hs
  cases r with
  | waits => exact absurd rfl hs
  | ok => exact ⟨k, rfl⟩
  | raised => exact ⟨k, rfl⟩

/-- the refusal of a stranger spares the stream as long as it is stuck, or if that is gone -/
theorem stranger_spared_iff {node : Nat} (hd : s.Dropped) (h : s.Stranger node) :
    Spared c s (s._grant_claim c node) ↔ s.listed = false ∨ s.Stuck c := by
  by_cases hs : s.Stuck c
  · exact iff_of_true (stranger_stuck h hs).spared (Or.inr hs)
  obtain ⟨k, hk⟩ := stranger_refused h hs
  rw [hk, or_iff_left hs]
  cases hl : s.listed with
  | true => exact iff_of_false (refuse_not_spared hl (joinee_opener s c k)) (by decide)
  | false =>
    have hd' : (s.setConn (.joinee c) k).Dropped := fun hf => by
      rw [joinee_opener]
      exact hd hf
    rw [refuse_dropped hd' hl]
    exact iff_of_true ((apart_setConn s c k).trans (apart_close _ c)).spared rfl

/-! ## steps that refuse nobody -/

/-- a record that goes closes its opener, and of the joinees only those of `C` hear `T_STFAIL` -/
structure Onward (C : List Nat) (s t : Stream) : Prop where
  closing : (s.conns .opener).closing = true → (t.conns .opener).closing = true
  listed : t.listed = s.listed ∨ (t.conns .opener).closing = true
  mute : ∀ c, c ∉ C → refusals (t.conns (.joinee c)).out = refusals (s.conns (.joinee c)).out

variable {C : List Nat} {u : Stream}

theorem Onward.trans (h : Onward C s t) (h' : Onward C t u) : Onward C s u where
  closing hc := h'.closing (h.closing hc)
  listed := by
    rcases h'.listed with he | he
    · rcases h.listed with hl | hl
      · exact Or.inl (he.trans hl)
      · exact Or.inr (h'.closing hl)
    · exact Or.inr he
  mute c hc := (h'.mute c hc).trans (h.mute c hc)

/-- what else there is in the record does not matter -/
theorem onward_of (hc : t.conns = s.conns) (hl : t.listed = s.listed) : Onward C s t where
  closing h := by rw [hc]; exact h
  listed := Or.inl hl
  mute c _ := by rw [hc]

theorem onward_refl (s : Stream) : Onward C s s := onward_of rfl rfl

theorem onward_setConn {w : Who} {l : List Piece} {k : Tcp} (hg : (s.conns w).Grows l k)
    (hl : refusals l = [] ∨ w = .opener ∨ ∃ c ∈ C, w = .joinee c) : Onward C s (s.setConn w k) where
  closing h := by
    by_cases hw : Who.opener = w
    · subst hw
      rw [setConn_self]
      exact hg.closing h
    · rw [setConn_other _ hw]
      exact h
  listed := Or.inl rfl
  mute c hc := by
    by_cases hw : Who.joinee c = w
    · subst hw
      rcases hl with hl | hl | ⟨d, hd, he⟩
      · rw [setConn_self, hg.out]
        unfold refusals at hl ⊢
        rw [List.filter_append, hl, List.append_nil]
      · exact absurd hl (by simp)
      · exact absurd (Who.joinee.inj he ▸ hd) hc
    · rw [setConn_other _ hw]

theorem onward_nil {w : Who} {k : Tcp} (hg : (s.conns w).Grows [] k) : Onward C s (s.setConn w k) :=
  onward_setConn hg (Or.inl rfl)

theorem onward_close (s : Stream) (w : Who) : Onward C s (s.close w) :=
  onward_nil (Tcp.grows_close _)

theorem onward_write_eof (s : Stream) (w : Who) : Onward C s (s.write_eof w) :=
  onward_nil (Tcp.grows_write_eof _)

theorem onward_spawn (s : Stream) (x : Coro) : Onward C s (s.spawn x) := onward_of rfl rfl

theorem onward_sent {w : Who} {o : Piece} {k : Tcp} {r : Sent} (hk : (s.conns w).send o = (k, r))
    (ho : o.isRefusal = true → w = .opener ∨ ∃ c ∈ C, w = .joinee c) :
    Onward C s (s.setConn w k) := by
  rcases Tcp.grows_send hk with ⟨hg, -⟩ | ⟨hg, -⟩
  · exact onward_nil hg
  · refine onward_setConn hg ?_
    cases hx : o.isRefusal with
    | true => exact Or.inr (ho hx)
    | false => exact Or.inl (by simp [refusals, hx])

theorem onward_send {w : Who} {o : Piece} {waits : Stream → Stream} {fin : Sent → Stream → Stream}
    (ho : o.isRefusal = true → w = .opener ∨ ∃ c ∈ C, w = .joinee c)
    (hw : ∀ u, Onward C u (waits u)) (hf : ∀ x u, Onward C u (fin x u)) :
    Onward C s (s.send w o waits fin) :=
  send_cases (Q := Onward C s) (fun _ hk => (onward_sent hk ho).trans (hw _))
    fun _ x hk _ => (onward_sent hk ho).trans (hf x _)

theorem onward_closeEnds (s : Stream) : Onward C s s.closeEnds := by
  unfold closeEnds
  split
  · exact onward_close s .opener
  · exact (onward_close s .opener).trans (onward_close _ _)

theorem onward_pop (s : Stream) : Onward C s s.pop := by
  unfold pop
  split
  · have hc := onward_closeEnds (C := C) s
    refine ⟨hc.closing, Or.inr ?_, hc.mute⟩
    show (s.closeEnds.conns .opener).closing = true
    rw [closeEnds_opener]
    rfl
  · exact onward_refl s

theorem onward_fail (s : Stream) (task : Bool) (r : Reason) : Onward C s (s.fail task r) := by
  unfold fail
  split
  · exact onward_send (fun _ => Or.inl rfl) (fun u => onward_spawn u _) fun _ u => onward_pop u
  · exact onward_pop s

theorem onward_refuse (s : Stream) (c : Nat) : Onward C s (s.refuse c) :=
  (onward_close s _).trans (onward_fail _ false .BAD_ID)

theorem onward_confirm (s : Stream) (c : Nat) : Onward C s (s.confirm c) := by
  have hset : Onward C s { s with state := .ready } := onward_of rfl rfl
  unfold confirm
  dsimp only
  refine hset.trans (onward_send (fun _ => Or.inl rfl) (fun u => onward_spawn u _) fun x u => ?_)
  split
  · exact onward_spawn u _
  · exact onward_fail u _ _

theorem stok_not_refusal (s : Stream) : s.stok.isRefusal = false := rfl

theorem onward_claim (s : Stream) (c node : Nat) : Onward C s (s.claim c node) := by
  have hstok : ∀ v u : Stream, Onward C v u → Onward C v (u.send (.joinee c) u.stok
      (fun s => s.spawn (.stokJoiner c)) fun r s =>
        if r = .ok then s.confirm c else s.fail false .NO_ROUTE) := fun v u hu => by
    refine hu.trans (onward_send ?_ (fun u => onward_spawn u _) fun x u => ?_)
    · rw [stok_not_refusal]
      exact fun h => absurd h (by decide)
    split
    · exact onward_confirm u c
    · exact onward_fail u _ _
  have hset : ∀ b, Onward C s { s with
      joiner := some c, state := .joined, shut_from := b,
      dest_node := if s.dest_node = 0 then node else s.dest_node } := fun b => onward_of rfl rfl
  unfold claim
  dsimp only
  split
  · exact hstok _ _ ((hset false).trans (onward_write_eof _ _))
  · exact hstok _ _ (hset s.shut_from)

/-! ## refusals -/

theorem onward_grant_stranger {node : Nat} (h : s.Stranger node) :
    Onward [c] s (s._grant_claim c node) := by
  rw [grant_stranger h]
  exact onward_send (fun _ => Or.inr ⟨c, List.mem_cons_self, rfl⟩) (fun u => onward_spawn u _)
    fun x u => onward_refuse u c

theorem onward_busy (s : Stream) (c : Nat) (x : Coro) : Onward [c] s
    (s.send (.joinee c) (s.stfail .BUSY) (fun s => s.spawn x) fun _ s => s.close (.joinee c)) :=
  onward_send (fun _ => Or.inr ⟨c, List.mem_cons_self, rfl⟩) (fun u => onward_spawn u _)
    fun _ u => onward_close u _

theorem join_claimed {node : Nat} (h : s.state ≠ .opened) : s.join c node =
    ({ s with joined := c :: s.joined } : Stream).send (.joinee c) (s.stfail .BUSY)
      (fun s => s.spawn (.refused c)) fun _ s => s.close (.joinee c) := by
  unfold Stream.join
  dsimp only
  rw [if_pos h]
  rfl

theorem join_explicit {node : Nat} (h : s.state = .opened) (hi : s.implicit = false) :
    s.join c node = ({ s with joined := c :: s.joined } : Stream)._grant_claim c node := by
  unfold Stream.join
  dsimp only
  rw [if_neg (not_not.mpr h), if_neg (by rw [hi]; decide)]

theorem onward_refusal (r : Refusal) (h : r.Due s) : Onward [r.conn] s (r.run s) := by
  cases r with
  | join c node =>
    obtain ⟨-, -, hx⟩ := h
    have hj : Onward [c] s { s with joined := c :: s.joined } := onward_of rfl rfl
    show Onward [c] s (s.join c node)
    by_cases hs : s.state = .opened
    · obtain ⟨hi, hn⟩ := hx.resolve_left (not_not.mpr hs)
      rw [join_explicit hs hi]
      exact hj.trans (onward_grant_stranger hn)
    · rw [join_claimed hs]
      exact hj.trans (onward_busy _ c _)
  | loser l rest win => exact onward_busy s l.1 _
  | winner c node => exact onward_grant_stranger h
  | busySent c => exact onward_close s _
  | badIdSent c => exact onward_refuse s c

theorem Onward.dropped {C : List Nat} (h : Onward C s t) (hs : s.Dropped) : t.Dropped := by
  intro hl
  rcases h.listed with he | he
  · exact h.closing (hs (he.symm.trans hl))
  · exact he

/-- what a step goes through has closed its opener if the record is gone -/
theorem Within.dropped (h : Within s u) (hs : s.Dropped) : u.Dropped := by
  induction h with
  | start => exact hs
  | woken i => exact hs
  | taken _ ih => exact ih
  | refused _ hr ih => exact (onward_refusal _ hr).dropped ih

/-- whoever hears `T_STFAIL` meanwhile was refused -/
theorem Within.heard (h : Within s u) {c : Nat}
    (hc : refusals (u.conns (.joinee c)).out ≠ refusals (s.conns (.joinee c)).out) :
    ∃ v r, Within s v ∧ Refusal.Due v r ∧ r.conn = c := by
  induction h with
  | start => exact absurd rfl hc
  | woken i => exact absurd rfl hc
  | taken _ ih => exact ih hc
  | @refused v hv r hr ih =>
    by_cases he : r.conn = c
    · exact ⟨v, r, hv, hr, he⟩
    · have hm := (onward_refusal r hr).mute c fun hx => he (List.mem_singleton.mp hx).symm
      rw [hm] at hc
      exact ih hc

/-- **A refused join** leaves the record, the opener and whatever waits for the stream alone, except
where it comes to `_stream_fail` while the record is there. -/
theorem refusal_spared (hd : s.Dropped) (r : Refusal) (hr : r.Due s) :
    Spared r.conn s (r.run s) ↔ r.Spares s := by
  cases r with
  | join c node =>
    obtain ⟨hl, -, hx⟩ := hr
    show Spared c s (s.join c node) ↔ s.state ≠ .opened ∨ s.Stuck c
    by_cases hs : s.state = .opened
    · obtain ⟨hi, hn⟩ := hx.resolve_left (not_not.mpr hs)
      rw [join_explicit hs hi, or_iff_right (not_not.mpr hs)]
      have hn' : ({ s with joined := c :: s.joined } : Stream).Stranger node := hn
      by_cases hk : s.Stuck c
      · exact iff_of_true ((apart_joined s c).trans (stranger_stuck hn' hk)).spared hk
      · obtain ⟨k, he⟩ := stranger_refused hn' hk
        rw [he]
        exact iff_of_false (refuse_not_spared hl (joinee_opener _ c k)) hk
    · exact iff_of_true (apart_join hs).spared (Or.inl hs)
  | loser l rest win => exact iff_of_true (apart_busy s l.1 _).spared trivial
  | winner c node => exact stranger_spared_iff hd hr
  | busySent c => exact iff_of_true (apart_close s c).spared trivial
  | badIdSent c =>
    show Spared c s (s.refuse c) ↔ s.listed = false
    cases hl : s.listed with
    | true => exact iff_of_false (refuse_not_spared hl rfl) (by decide)
    | false =>
      rw [refuse_dropped hd hl]
      exact iff_of_true (apart_close s c).spared rfl

/-! ## steps, refusal by refusal -/

variable {u : Stream}

/-- the stream is one that the step goes through, but for things that refuse nobody -/
def Passes (s t : Stream) : Prop := ∃ u, Within s u ∧ Onward [] u t

theorem Within.passes (h : Within s u) : Passes s u := ⟨u, h, onward_refl u⟩

theorem Within.onward (h : Within s u) (ho : Onward [] u t) : Passes s t := ⟨u, h, ho⟩

theorem Within.grant (h : Within s u) (c node : Nat) : Passes s (u._grant_claim c node) := by
  by_cases hn : u.Stranger node
  · exact (h.refused (r := .winner c node) hn).passes
  · have hclaim : u._grant_claim c node = u.claim c node := if_neg hn
    rw [hclaim]
    exact h.onward (onward_claim u c node)

/-- the loop over the losers refuses one after the other -/
theorem Within.busyRound (h : Within s u) (win : StClaim) (losers : List StClaim) :
    Passes s (u.busyRound win losers) := by
  induction losers generalizing u with
  | nil => exact h.grant win.1 win.2
  | cons l rest ih =>
    have hl : Within s (u.send (.joinee l.1) (u.stfail .BUSY)
        (fun s => s.spawn (.busy l rest win)) fun _ s => s.close (.joinee l.1)) :=
      h.refused (r := .loser l rest win) trivial
    unfold Stream.busyRound send
    unfold send at hl
    generalize (u.conns (.joinee l.1)).send (u.stfail .BUSY) = x at hl ⊢
    obtain ⟨k, r⟩ := x
    cases r with
    | waits => exact hl.passes
    | ok => exact ih hl
    | raised => exact ih hl

theorem Within.implicit_grant (h : Within s u) : Passes s u._implicit_grant := by
  unfold _implicit_grant
  split
  · exact h.passes
  dsimp only
  split
  · exact h.taken.passes
  · exact h.taken.busyRound _ _

theorem Within.fail (h : Within s u) (task : Bool) (r : Reason) : Passes s (u.fail task r) :=
  h.onward (onward_fail u task r)

theorem Within.spawn (h : Within s u) (x : Coro) : Passes s (u.spawn x) :=
  h.onward (onward_spawn u x)

theorem onward_handshake (s : Stream) (c : Nat) (mtype : UInt8) (payload : Bytes) :
    Onward [] s (s.handshake c mtype payload) := by
  unfold handshake
  split
  · exact onward_of rfl rfl
  split
  · split
    · split
      · exact onward_fail s _ _
      · exact onward_of rfl rfl
    · exact onward_of rfl rfl
  · exact onward_close s _

theorem Within.readFrame (h : Within s u) {c : Nat} (hs : u.readFrame c = some t) : Passes s t := by
  unfold Stream.readFrame at hs
  dsimp only at hs
  split at hs
  · rw [← Option.some.inj hs]
    exact h.fail _ _
  · rw [← Option.some.inj hs]
    exact h.passes
  split at hs
  · rw [← Option.some.inj hs]
    exact h.onward ((onward_nil (Tcp.grows_inb _ _)).trans (onward_handshake _ _ _ _))
  · rw [← Option.some.inj hs]
    exact h.fail _ _
  · obtain ⟨-, hs⟩ := Option.ite_none_right_eq_some.mp hs
    rw [← Option.some.inj hs]
    exact h.fail _ _

/-- a coroutine goes on -/
theorem Within.resume (h : Within s u) {x : Coro} (hs : u.resume x = some t) : Passes s t := by
  cases x with
  | timeout =>
    simp only [Stream.resume] at hs
    split at hs
    · rw [← Option.some.inj hs]
      exact h.fail _ _
    · rw [← Option.some.inj hs]
      exact h.passes
  | failing task =>
    rw [← Option.some.inj hs]
    exact h.onward (onward_pop u)
  | grant =>
    rw [← Option.some.inj hs]
    exact h.implicit_grant
  | busy cur rest win =>
    obtain ⟨y, -, rfl⟩ := Option.map_eq_some_iff.mp hs
    exact (h.refused (r := .busySent cur.1) trivial).busyRound win rest
  | refused c =>
    obtain ⟨y, -, rfl⟩ := Option.map_eq_some_iff.mp hs
    exact (h.refused (r := .busySent c) trivial).passes
  | badId c =>
    obtain ⟨y, -, rfl⟩ := Option.map_eq_some_iff.mp hs
    exact (h.refused (r := .badIdSent c) trivial).passes
  | stokJoiner c =>
    obtain ⟨y, -, rfl⟩ := Option.map_eq_some_iff.mp hs
    split
    · exact h.onward (onward_confirm u c)
    · exact h.fail _ _
  | stokOpener c =>
    obtain ⟨y, -, rfl⟩ := Option.map_eq_some_iff.mp hs
    split
    · exact h.spawn _
    · exact h.fail _ _
  | early c =>
    rw [← Option.some.inj hs]
    exact h.spawn _
  | reading c => exact h.readFrame hs
  | pipe task pc =>
    cases pc with
    | starting =>
      simp only [Stream.resume] at hs
      split at hs
      · split at hs
        · rw [← Option.some.inj hs]
          exact h.spawn _
        · rw [← Option.some.inj hs]
          exact h.spawn _
      · rw [← Option.some.inj hs]
        exact h.passes
    | running c a b cancelled =>
      obtain ⟨-, hs⟩ := Option.ite_none_right_eq_some.mp hs
      rw [← Option.some.inj hs]
      exact h.spawn _
    | ending =>
      rw [← Option.some.inj hs]
      exact h.onward (onward_pop u)

theorem onward_pump {pc : PumpPc} {r w : Who} {x : Stream × PumpPc} (hx : s.pump pc r w = some x) :
    Onward [] s x.1 := by
  unfold pump at hx
  cases pc with
  | ended => exact absurd hx (by simp)
  | drain =>
    obtain ⟨y, -, rfl⟩ := Option.map_eq_some_iff.mp hx
    exact onward_refl s
  | read =>
    dsimp only at hx
    split at hx
    · rw [← Option.some.inj hx]
      exact onward_refl s
    split at hx
    · obtain ⟨-, hx⟩ := Option.ite_none_right_eq_some.mp hx
      rw [← Option.some.inj hx]
      exact onward_refl s
    · rw [← Option.some.inj hx]
      exact (onward_nil (Tcp.grows_inb _ _)).trans
        (onward_sent rfl fun h => absurd h Bool.false_ne_true)

theorem onward_pumpStep {i : Nat} {back : Bool} (hs : s.pumpStep i back = some t) :
    Onward [] s t := by
  unfold pumpStep at hs
  split at hs
  · split at hs
    · obtain ⟨x, hx, rfl⟩ := Option.map_eq_some_iff.mp hs
      exact (onward_pump hx).trans (onward_of rfl rfl)
    · obtain ⟨x, hx, rfl⟩ := Option.map_eq_some_iff.mp hs
      exact (onward_pump hx).trans (onward_of rfl rfl)
  · exact absurd hs (by simp)

theorem onward_stshut (s : Stream) (node : Nat) : Onward [] s (s.stshut node) := by
  unfold stshut
  split
  · exact onward_refl s
  split
  · split
    · exact onward_of rfl rfl
    · exact onward_write_eof s _
  split
  · exact onward_write_eof s _
  · exact onward_refl s

theorem passes_join {c : Nat} (hl : s.listed = true) (hc : c ∉ s.joined) (node : Nat) :
    Passes s (s.join c node) := by
  by_cases hs : s.state = .opened
  · have hj : Onward [] s { s with joined := c :: s.joined } := onward_of rfl rfl
    cases hi : s.implicit with
    | true =>
      unfold join
      dsimp only
      rw [if_neg (not_not.mpr hs), if_pos hi]
      refine Within.start.onward ?_
      split
      · exact onward_of rfl rfl
      · exact onward_of rfl rfl
    | false =>
      by_cases hn : s.Stranger node
      · exact (Within.start.refused (r := .join c node) ⟨hl, hc, Or.inr ⟨hi, hn⟩⟩).passes
      · have hclaim : ({ s with joined := c :: s.joined } : Stream)._grant_claim c node =
            ({ s with joined := c :: s.joined } : Stream).claim c node := if_neg hn
        rw [join_explicit hs hi, hclaim]
        exact Within.start.onward (hj.trans (onward_claim _ c node))
  · exact (Within.start.refused (r := .join c node) ⟨hl, hc, Or.inl hs⟩).passes

/-- a step is its refusals, and nothing else in it refuses anybody -/
theorem step_passes {l : Label} (hs : s.step l = some t) : Passes s t := by
  cases l with
  | stjoin c payload =>
    obtain ⟨hl, hc, node, -, -, rfl⟩ := join_of_handle hs
    exact passes_join hl hc node
  | wake i =>
    obtain ⟨x, -, hs⟩ := Option.bind_eq_some_iff.mp hs
    exact (Within.woken i).resume hs
  | expire i =>
    simp only [step] at hs
    split at hs
    · rw [← Option.some.inj hs]
      exact (Within.woken i).fail _ _
    · exact absurd hs (by simp)
  | pump i back => exact Within.start.onward (onward_pumpStep hs)
  | stshut node =>
    rw [← Option.some.inj hs]
    exact Within.start.onward (onward_stshut s node)
  | net w e =>
    obtain ⟨k, hk, rfl⟩ := Option.map_eq_some_iff.mp hs
    exact Within.start.onward (onward_nil (Tcp.grows_net hk))
  | hostClaim node v =>
    rw [← Option.some.inj hs]
    exact Within.start.onward (onward_of rfl rfl)
  | popped =>
    rw [← Option.some.inj hs]
    exact Within.start.onward (onward_pop s)
  | strayGrant =>
    rw [← Option.some.inj hs]
    exact Within.start.implicit_grant
  | strayPipe =>
    rw [← Option.some.inj hs]
    exact Within.start.spawn _

theorem step_dropped {l : Label} (h : s.Dropped) (hs : s.step l = some t) : t.Dropped := by
  obtain ⟨u, hu, ho⟩ := step_passes hs
  exact ho.dropped (hu.dropped h)

/-- who hears `T_STFAIL` in a step is refused in it -/
theorem heard_refusal {l : Label} (hs : s.step l = some t) {c : Nat}
    (hc : refusals (t.conns (.joinee c)).out ≠ refusals (s.conns (.joinee c)).out) :
    ∃ u r, Within s u ∧ Refusal.Due u r ∧ r.conn = c := by
  obtain ⟨u, hu, ho⟩ := step_passes hs
  rw [ho.mute c List.not_mem_nil] at hc
  exact hu.heard hc

theorem path_dropped {sid o d : Nat} {tr : List (Stream × Label)}
    (h : Path step (opened sid o d) tr s) : s.Dropped :=
  h.inv (I := Dropped) nofun fun _ _ _ hd hs => step_dropped hd hs

/-- **A refused join changes nothing** but the connection that it came on, exactly when the refusal
does not come to `_stream_fail` while the record is there; and whoever hears `T_STFAIL` in a step is
refused in one of these places. -/
theorem refused_iff {sid o d : Nat} {tr : List (Stream × Label)} {l : Label}
    (hs : Path step (opened sid o d) tr s) (hl : s.step l = some t) :
    (∀ c, refusals (t.conns (.joinee c)).out ≠ refusals (s.conns (.joinee c)).out →
      ∃ u r, Within s u ∧ Refusal.Due u r ∧ r.conn = c) ∧
    ∀ u, Within s u → ∀ r : Refusal, r.Due u → (Spared r.conn u (r.run u) ↔ r.Spares u) :=
  ⟨fun _ hc => heard_refusal hl hc,
    fun _ hu r hr => refusal_spared (hu.dropped (path_dropped hs)) r hr⟩

/-- the second claim of a dial to node 8 -/
theorem refused_twice : ∃ s t,
    run step (opened 9 7 8) [.stjoin 0 [0, 0, 0, 8, 0, 0, 0, 9]] = some s ∧
    s.step (.stjoin 1 [0, 0, 0, 8, 0, 0, 0, 9]) = some t ∧
    refusals (t.conns (.joinee 1)).out = [s.stfail .BUSY] ∧ Spared 1 s t := by
  have hrun : (run step (opened 9 7 8) [.stjoin 0 [0, 0, 0, 8, 0, 0, 0, 9]]).isSome = true := by
    decide
  obtain ⟨s, hs⟩ := Option.isSome_iff_exists.mp hrun
  have hend : ∀ s ∈ run step (opened 9 7 8) [.stjoin 0 [0, 0, 0, 8, 0, 0, 0, 9]],
      s.listed = true ∧ 1 ∉ s.joined ∧ s.state ≠ .opened ∧
        (s.step (.stjoin 1 [0, 0, 0, 8, 0, 0, 0, 9])).isSome = true ∧
        ∀ t ∈ s.step (.stjoin 1 [0, 0, 0, 8, 0, 0, 0, 9]),
          refusals (t.conns (.joinee 1)).out = [s.stfail .BUSY] := by
    decide
  obtain ⟨hl, hj, hst, hsome, hout⟩ := hend s hs
  obtain ⟨t, ht⟩ := Option.isSome_iff_exists.mp hsome
  have hjoin : s.handle_stream_join 1 [0, 0, 0, 8, 0, 0, 0, 9] = some t := ht
  obtain ⟨-, -, node, -, -, rfl⟩ := join_of_handle hjoin
  have hspared := ((refused_iff (path_run hs) ht).2 s .start (.join 1 node)
    ⟨hl, hj, Or.inl hst⟩).mpr (Or.inl hst)
  exact ⟨s, _, hs, ht, hout _ ht, hspared⟩

/-- node 3 answers a dial to node 8: the opener is refused, and node 8 finds no stream -/
theorem stranger_fails : ∃ t, (opened 9 7 8).step (.stjoin 0 [0, 0, 0, 3, 0, 0, 0, 9]) = some t ∧
    refusals (t.conns (.joinee 0)).out = [t.stfail .BAD_ID] ∧ t.listed = false ∧
    (t.conns .opener).out = [t.stfail .BAD_ID] ∧
    ((opened 9 7 8).step (.stjoin 1 [0, 0, 0, 8, 0, 0, 0, 9])).isSome = true ∧
    t.step (.stjoin 1 [0, 0, 0, 8, 0, 0, 0, 9]) = none ∧ ¬ Spared 0 (opened 9 7 8) t := by
  have hsome : ((opened 9 7 8).step (.stjoin 0 [0, 0, 0, 3, 0, 0, 0, 9])).isSome = true := by
    decide
  obtain ⟨t, ht⟩ := Option.isSome_iff_exists.mp hsome
  have hend : ∀ t ∈ (opened 9 7 8).step (.stjoin 0 [0, 0, 0, 3, 0, 0, 0, 9]),
      refusals (t.conns (.joinee 0)).out = [t.stfail .BAD_ID] ∧ t.listed = false ∧
      (t.conns .opener).out = [t.stfail .BAD_ID] ∧
      (t.step (.stjoin 1 [0, 0, 0, 8, 0, 0, 0, 9])).isNone = true := by
    decide
  obtain ⟨h1, h2, h3, h4⟩ := hend t ht
  have hright : ((opened 9 7 8).step (.stjoin 1 [0, 0, 0, 8, 0, 0, 0, 9])).isSome = true := by
    decide
  refine ⟨t, ht, h1, h2, h3, hright, Option.isNone_iff_eq_none.mp h4, fun hs => ?_⟩
  have hout := congrArg Tcp.out hs.opener
  rw [h3] at hout
  exact absurd hout (by simp [opened, Tcp.fresh])

end Stream

end ShadowLan
