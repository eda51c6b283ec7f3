import ShadowLan.Relay.Handshake

/-!
# The pipe is transparent

The two connections of a stream carry frames first and the game's bytes later.  On each of them
`T_STOK` is the last frame, and what follows is what the other end sent: the opener's bytes from the
start, the joinee's from behind its `T_STJOINED`.

* `Stream.Transparent`      the law;
* `Stream.Steady`           the condition on a step: no BUSY round goes on once the stream is
                            granted, and no pipe of another stream starts here;
* `Stream.transparent_run`  a run of such steps is transparent to the end.

A connection is `Plain` until it carries `T_STOK`, and `Opened` from then on.  The coroutine that
won the claim is the only one that reads the joinee's connection; `Phase` says how far it is.
-/

namespace ShadowLan

def Piece.isRaw : Piece → Prop
  | .frame _ _ => False
  | .raw _ => True

/-- a frame other than `T_STOK` -/
def Piece.isPlain : Piece → Prop
  | .frame t _ => t ≠ T_STOK
  | .raw _ => False

/-- what the joinee sent behind its `T_STJOINED` -/
def behindJoined (sent : Bytes) : Bytes :=
  match tcpRead sent with
  | .frame t _ rest => if t = T_STJOINED then rest else []
  | _ => []

namespace Stream

/-- the law of the pipe -/
structure Transparent (s : Stream) : Prop where
  opener : ∀ p pre post, (s.conns .opener).out = pre ++ Piece.frame T_STOK p :: post →
    (∀ o ∈ post, o.isRaw) ∧
      ∃ c, s.joiner = some c ∧ rawOf post <+: behindJoined (s.conns (.joinee c)).sent
  joinee : ∀ c p pre post, (s.conns (.joinee c)).out = pre ++ Piece.frame T_STOK p :: post →
    (∀ o ∈ post, o.isRaw) ∧ rawOf post <+: (s.conns .opener).sent

/-- the condition on a step -/
def Steady (s : Stream) : Label → Prop
  | .wake i => match s.coros[i]? with
    | some (.busy ..) => s.state = .opened
    | _ => True
  | .strayPipe => False
  | _ => True

instance (s : Stream) : (l : Label) → Decidable (s.Steady l)
  | .wake i => show Decidable (match s.coros[i]? with
      | some (.busy ..) => s.state = .opened
      | _ => True) from
    match s.coros[i]? with
    | none => instDecidableTrue
    | some t => match t with
      | .busy .. => inferInstanceAs (Decidable (s.state = .opened))
      | .timeout | .failing _ | .grant | .refused _ | .badId _ | .stokJoiner _ | .stokOpener _
      | .early _ | .reading _ | .pipe .. => instDecidableTrue
  | .strayPipe => instDecidableFalse
  | .stjoin .. | .expire _ | .pump .. | .stshut _ | .net .. | .hostClaim .. | .popped | .strayGrant =>
    instDecidableTrue

end Stream

/-! ## what was written -/

def Plain (out : List Piece) : Prop := ∀ o ∈ out, o.isPlain

def Opened (out : List Piece) : Prop :=
  ∃ pre p post, out = pre ++ Piece.frame T_STOK p :: post ∧ Plain pre ∧ ∀ o ∈ post, o.isRaw

theorem rawOf_plain {l : List Piece} (h : Plain l) : rawOf l = [] := by
  refine List.flatMap_eq_nil_iff.mpr fun o ho => ?_
  cases o with
  | frame t p => rfl
  | raw d => exact absurd (h _ ho) id

theorem Plain.append {l l' : List Piece} (h : Plain l) (h' : Plain l') : Plain (l ++ l') := by
  intro o ho
  rcases List.mem_append.mp ho with ho | ho
  · exact h o ho
  · exact h' o ho

theorem Plain.opened {l : List Piece} (h : Plain l) (p : Bytes) :
    Opened (l ++ [Piece.frame T_STOK p]) :=
  ⟨l, p, [], rfl, h, fun _ ho => absurd ho List.not_mem_nil⟩

theorem Opened.raw {l : List Piece} (h : Opened l) (d : Bytes) : Opened (l ++ [Piece.raw d]) := by
  obtain ⟨pre, p, post, rfl, h1, h2⟩ := h
  refine ⟨pre, p, post ++ [Piece.raw d], by simp, h1, fun o ho => ?_⟩
  rcases List.mem_append.mp ho with ho | ho
  · exact h2 o ho
  · rw [List.mem_singleton.mp ho]
    exact trivial

theorem Plain.no_stok {l pre post : List Piece} {p : Bytes} (h : Plain l)
    (hl : l = pre ++ Piece.frame T_STOK p :: post) : False := by
  have hm : Piece.frame T_STOK p ∈ l := by rw [hl]; simp
  exact absurd rfl (h _ hm)

/-- there is one `T_STOK`, and all raw bytes are behind it -/
theorem Opened.split {l pre post : List Piece} {p : Bytes} (h : Opened l)
    (hl : l = pre ++ Piece.frame T_STOK p :: post) : (∀ o ∈ post, o.isRaw) ∧ rawOf post = rawOf l := by
  obtain ⟨pre', p', post', he, h1, h2⟩ := h
  have hpre : pre.length = pre'.length := by
    rcases lt_trichotomy pre.length pre'.length with hlt | heq | hlt
    · -- the `T_STOK` of `pre ++ ..` would be one of the plain frames
      have hg : l[pre.length]? = some (.frame T_STOK p) := by rw [hl]; simp
      rw [he, List.getElem?_append_left hlt] at hg
      exact absurd rfl (h1 _ (List.mem_of_getElem? hg))
    · exact heq
    · have hg : l[pre.length]? = some (.frame T_STOK p) := by rw [hl]; simp
      rw [he, List.getElem?_append_right hlt.le] at hg
      obtain ⟨n, hn⟩ : ∃ n, pre.length - pre'.length = n + 1 := ⟨pre.length - pre'.length - 1, by omega⟩
      rw [hn, List.getElem?_cons_succ] at hg
      exact absurd (h2 _ (List.mem_of_getElem? hg)) id
  obtain ⟨rfl, htail⟩ := List.append_inj (hl.symm.trans he) hpre
  obtain ⟨-, rfl⟩ := List.cons.inj htail
  refine ⟨h2, ?_⟩
  rw [hl, Tcp.rawOf_append, rawOf_plain h1]
  rfl

/-! ## what was read -/

theorem behindJoined_append (b d : Bytes) : behindJoined b <+: behindJoined (b ++ d) := by
  unfold behindJoined
  cases h : tcpRead b with
  | frame t p rest =>
    rw [tcpRead_append h d]
    dsimp only
    split
    · exact List.prefix_append rest d
    · exact List.nil_prefix
  | bad => exact List.nil_prefix
  | more => exact List.nil_prefix

namespace Tcp

/-- `T_STOK` is out, or never will be -/
def Told (k : Tcp) : Prop := Opened k.out ∨ k.Stopped

/-- `Grows`, and `d` is what came in meanwhile; nothing was read -/
structure Fed (k : Tcp) (l : List Piece) (d : Bytes) (k' : Tcp) : Prop extends Grows k l k' where
  sent : k'.sent = k.sent ++ d
  inb : k'.inb = k.inb ++ d

theorem fed_close (k : Tcp) : Fed k [] [] k.close :=
  ⟨grows_close k, (List.append_nil _).symm, (List.append_nil _).symm⟩

theorem fed_write_eof (k : Tcp) : Fed k [] [] k.write_eof := by
  refine ⟨grows_write_eof k, ?_, ?_⟩ <;> unfold write_eof <;> split <;>
    exact (List.append_nil _).symm

theorem fed_net {k k' : Tcp} {e : Ev} (h : k.net e = some k') : ∃ d, Fed k [] d k' := by
  have hg := grows_net h
  cases e with
  | arrive d =>
    obtain ⟨-, h⟩ := Option.ite_none_left_eq_some.mp h
    rw [← Option.some.inj h] at hg ⊢
    exact ⟨d, hg, rfl, rfl⟩
  | fin =>
    obtain ⟨-, h⟩ := Option.ite_none_left_eq_some.mp h
    rw [← Option.some.inj h] at hg ⊢
    exact ⟨[], hg, (List.append_nil _).symm, (List.append_nil _).symm⟩
  | lost e =>
    obtain ⟨-, h⟩ := Option.ite_none_right_eq_some.mp h
    rw [← Option.some.inj h] at hg ⊢
    exact ⟨[], hg, (List.append_nil _).symm, (List.append_nil _).symm⟩
  | buffer b p =>
    obtain ⟨-, h⟩ := Option.ite_none_left_eq_some.mp h
    rw [← Option.some.inj h] at hg ⊢
    exact ⟨[], hg, (List.append_nil _).symm, (List.append_nil _).symm⟩
  | _ =>
    rw [← Option.some.inj h] at hg ⊢
    exact ⟨[], hg, (List.append_nil _).symm, (List.append_nil _).symm⟩

theorem send_reads (k : Tcp) (o : Piece) :
    (k.send o).1.sent = k.sent ∧ (k.send o).1.inb = k.inb := by
  unfold send
  split
  · exact ⟨rfl, rfl⟩
  split
  · exact ⟨rfl, rfl⟩
  split <;> exact ⟨rfl, rfl⟩

theorem fed_send {k k' : Tcp} {o : Piece} {r : Sent} (h : k.send o = (k', r)) :
    Fed k [] [] k' ∧ r ≠ .ok ∧ k'.Stopped ∨ Fed k [o] [] k' := by
  obtain ⟨h1, h2⟩ := send_reads k o
  rw [h] at h1 h2
  rcases grows_send h with ⟨hg, hr, -, hs⟩ | ⟨hg, -⟩
  · exact Or.inl ⟨⟨hg, h1.trans (List.append_nil _).symm, h2.trans (List.append_nil _).symm⟩, hr, hs⟩
  · exact Or.inr ⟨hg, h1.trans (List.append_nil _).symm, h2.trans (List.append_nil _).symm⟩

theorem Stopped.grows {k k' : Tcp} {l : List Piece} (h : k.Stopped) (hg : Grows k l k') :
    k'.Stopped ∧ l = [] := by
  rcases h with h | h
  · exact ⟨Or.inl (hg.gone h).1, (hg.gone h).2⟩
  · exact ⟨Or.inr (hg.wEof h).1, (hg.wEof h).2⟩

theorem Told.grows {k k' : Tcp} (h : k.Told) (hg : Grows k [] k') : k'.Told := by
  rcases h with h | h
  · refine Or.inl ?_
    rw [hg.out, List.append_nil]
    exact h
  · exact Or.inr (h.grows hg).1

theorem opened_of_grows {k k' : Tcp} {l : List Piece} (h : Opened k.out) (hg : Grows k l k')
    (hp : Plain k'.out) : False := by
  obtain ⟨pre, p, post, he, -⟩ := h
  rw [hg.out, he, List.append_assoc, List.cons_append] at hp
  exact hp.no_stok rfl

/-- of the bytes `x` that were taken for this connection all were written, or all until it stopped -/
def Carried (x : Bytes) (k : Tcp) : Prop := rawOf k.out = x ∨ k.Stopped ∧ rawOf k.out <+: x

theorem Carried.grows {x : Bytes} {k k' : Tcp} {l : List Piece} (h : Carried x k)
    (hg : Grows k l k') (hl : rawOf l = []) : Carried x k' := by
  have he : rawOf k'.out = rawOf k.out := by
    rw [hg.out, rawOf_append, hl, List.append_nil]
  rcases h with h | ⟨h1, h2⟩
  · exact Or.inl (he.trans h)
  · exact Or.inr ⟨(h1.grows hg).1, by rw [he]; exact h2⟩

theorem Carried.initial {x : Bytes} {k : Tcp} (h : Carried x k) : rawOf k.out <+: x := by
  rcases h with h | h
  · exact h ▸ List.prefix_rfl
  · exact h.2

/-- a chunk that a pump took and wrote, or lost because nothing is written any more -/
theorem Carried.send {x d : Bytes} {k k' : Tcp} {r : Sent} (h : Carried x k)
    (hk : k.send (.raw d) = (k', r)) : Carried (x ++ d) k' := by
  rcases grows_send hk with ⟨hg, -, -, hs⟩ | ⟨hg, -⟩
  · refine Or.inr ⟨hs, ?_⟩
    rw [hg.out, List.append_nil]
    exact h.initial.trans (List.prefix_append x d)
  · have he : rawOf k'.out = rawOf k.out ++ d := by
      rw [hg.out, rawOf_append]
      simp [rawOf, Piece.rawBytes]
    rcases h with h | ⟨h1, -⟩
    · exact Or.inl (by rw [he, h])
    · exact absurd (h1.grows hg).2 (by simp)

end Tcp

/-! ## the invariant -/

/-- the coroutines of the claim that won, one after the other -/
def Coro.isChain : Coro → Bool
  | .stokJoiner _ | .stokOpener _ | .early _ | .reading _ | .pipe _ _ => true
  | _ => false

/-- the joinee's connection is as it was at the claim -/
structure Unread (o j : Tcp) : Prop where
  inb : j.inb = j.sent
  out : rawOf o.out = []

/-- `T_STJOINED` has been read, and nothing behind it but what was carried to the opener -/
def Piping (o j : Tcp) : Prop :=
  ∃ p x, tcpRead j.sent = .frame T_STJOINED p (x ++ j.inb) ∧ Tcp.Carried x o

theorem Unread.fed {o o' j j' : Tcp} {l l' : List Piece} {d d' : Bytes} (h : Unread o j)
    (ho : o.Fed l d o') (hl : rawOf l = []) (hj : j.Fed l' d' j') : Unread o' j' where
  inb := by rw [hj.inb, hj.sent, h.inb]
  out := by rw [ho.out, Tcp.rawOf_append, h.out, hl]; rfl

theorem Piping.fed {o o' j j' : Tcp} {l l' : List Piece} {d d' : Bytes} (h : Piping o j)
    (ho : o.Fed l d o') (hl : rawOf l = []) (hj : j.Fed l' d' j') : Piping o' j' := by
  obtain ⟨p, x, h1, h2⟩ := h
  refine ⟨p, x, ?_, h2.grows ho.toGrows hl⟩
  rw [hj.sent, hj.inb, tcpRead_append h1, List.append_assoc]

namespace Stream

/-- the claim on `c` has been confirmed, and both ends were told -/
def Won (s : Stream) (c : Nat) (P : Tcp → Tcp → Prop) : Prop :=
  s.state = .ready ∧ s.joiner = some c ∧ (s.conns (.joinee c)).Told ∧ (s.conns .opener).Told ∧
    P (s.conns .opener) (s.conns (.joinee c))

/-- how far a coroutine of the claim that won can be -/
def Phase (s : Stream) : Coro → Prop
  | .stokJoiner c => s.state = .joined ∧ s.joiner = some c ∧ (s.conns (.joinee c)).Told ∧
      Unread (s.conns .opener) (s.conns (.joinee c))
  | .stokOpener c | .early c | .reading c => s.Won c Unread
  | .pipe _ .starting => ∃ c, s.Won c Piping
  | .pipe _ (.running c _ _ _) => s.Won c Piping
  | _ => True

/-- what a connection can carry -/
def Shape (s : Stream) (out : List Piece) : Who → Prop
  | .opener => Plain out ∨ s.state = .ready ∧ Opened out
  | .joinee c => Plain out ∨ s.joiner = some c ∧ Opened out

/-- what every steady step keeps -/
structure Clear (s : Stream) : Prop where
  fresh : s.state = .opened → s.joiner = none
  claimed : s.state ≠ .opened → ∃ c, s.joiner = some c
  joined : ∀ c, s.joiner = some c → c ∈ s.joined
  parked : ∀ x ∈ s.claims, x.1 ∈ s.joined
  held : ∀ t ∈ s.coros, ∀ c ∈ t.held, c ∈ s.joined
  chain : s.coros.countP Coro.isChain ≤ if s.state = .opened then 0 else 1
  phase : ∀ t ∈ s.coros, s.Phase t
  shape : ∀ w, s.Shape (s.conns w).out w
  unread : ∀ c, s.joiner ≠ some c → (s.conns (.joinee c)).inb = (s.conns (.joinee c)).sent
  there : ∃ x, (s.conns .opener).sent = x ++ (s.conns .opener).inb ∧ (s.joiner = none → x = []) ∧
    ∀ c, s.joiner = some c → Tcp.Carried x (s.conns (.joinee c))
  back : ∀ c, s.joiner = some c →
    rawOf (s.conns .opener).out <+: behindJoined (s.conns (.joinee c)).sent

variable {s : Stream}

theorem Clear.transparent (h : Clear s) : s.Transparent where
  opener p pre post he := by
    rcases h.shape .opener with hp | ⟨hr, hp⟩
    · exact (hp.no_stok he).elim
    · obtain ⟨h1, h2⟩ := hp.split he
      obtain ⟨c, hc⟩ := h.claimed (by rw [hr]; decide)
      exact ⟨h1, c, hc, by rw [h2]; exact h.back c hc⟩
  joinee c p pre post he := by
    rcases h.shape (.joinee c) with hp | ⟨hc, hp⟩
    · exact (hp.no_stok he).elim
    · obtain ⟨h1, h2⟩ := hp.split he
      obtain ⟨x, hx, -, ht⟩ := h.there
      refine ⟨h1, ?_⟩
      rw [h2, hx]
      exact (ht c hc).initial.trans (List.prefix_append x _)

theorem clear_opened (sid o d : Nat) : Clear (opened sid o d) where
  fresh _ := rfl
  claimed h := absurd rfl h
  joined c h := absurd h (by simp [opened])
  parked x hx := absurd hx List.not_mem_nil
  held t ht := by
    rw [List.mem_singleton.mp ht]
    exact fun c hc => absurd hc List.not_mem_nil
  chain := by simp [opened, Coro.isChain]
  phase t ht := by
    rw [List.mem_singleton.mp ht]
    exact trivial
  shape w := by
    cases w <;> exact Or.inl fun o ho => absurd ho List.not_mem_nil
  unread _ _ := rfl
  there := ⟨[], rfl, fun _ => rfl, fun c h => absurd h (by simp [opened])⟩
  back c h := absurd h (by simp [opened])

/-- the invariant is about these fields only, and the joinees that came are not forgotten -/
theorem Clear.congr (h : Clear s) {u : Stream} (hs : u.state = s.state) (hj : u.joiner = s.joiner)
    (hk : u.conns = s.conns) (hc : u.coros = s.coros) (hm : ∀ c ∈ s.joined, c ∈ u.joined)
    (hp : ∀ x ∈ u.claims, x.1 ∈ u.joined) : Clear u := by
  have hphase : ∀ t, u.Phase t = s.Phase t := by
    intro t
    cases t with
    | pipe task pc => cases pc <;> simp only [Phase, Won, hs, hj, hk]
    | _ => simp only [Phase, Won, hs, hj, hk]
  have hshape : ∀ out w, u.Shape out w = s.Shape out w := by
    intro out w
    cases w <;> simp only [Shape, hs, hj]
  refine ⟨?_, ?_, ?_, hp, ?_, ?_, ?_, ?_, ?_, ?_, ?_⟩
  · rw [hs, hj]
    exact h.fresh
  · rw [hs, hj]
    exact h.claimed
  · rw [hj]
    exact fun c hc => hm c (h.joined c hc)
  · rw [hc]
    exact fun t ht c hc => hm c (h.held t ht c hc)
  · rw [hc, hs]
    exact h.chain
  · rw [hc]
    exact fun t ht => (hphase t).mpr (h.phase t ht)
  · rw [hk]
    exact fun w => (hshape _ w).mpr (h.shape w)
  · rw [hj, hk]
    exact h.unread
  · rw [hj, hk]
    exact h.there
  · rw [hj, hk]
    exact h.back

/-- a connection changes, and no raw byte is written -/
theorem Clear.setConn (h : Clear s) {w : Who} {l : List Piece} {d : Bytes} {k : Tcp}
    (hf : (s.conns w).Fed l d k) (hl : rawOf l = []) (hs : s.Shape k.out w) :
    Clear (s.setConn w k) := by
  have hall : ∀ w', ∃ l' d', (s.conns w').Fed l' d' ((s.setConn w k).conns w') ∧ rawOf l' = [] ∧
      s.Shape ((s.setConn w k).conns w').out w' := by
    intro w'
    by_cases hw : w' = w
    · subst hw
      exact ⟨l, d, by rw [setConn_self]; exact hf, hl, by rw [setConn_self]; exact hs⟩
    · refine ⟨[], [], ?_, rfl, ?_⟩
      · rw [setConn_other _ hw]
        exact ⟨Tcp.grows_refl _, (List.append_nil _).symm, (List.append_nil _).symm⟩
      · rw [setConn_other _ hw]
        exact h.shape w'
  -- `T_STOK` does not get lost: what carried it before carries it still
  have htold : ∀ w', (s.conns w').Told → ((s.setConn w k).conns w').Told := by
    intro w' ht
    obtain ⟨l', d', hf', hl', hs'⟩ := hall w'
    rcases ht with ht | ht
    · refine Or.inl ?_
      have hno := fun hp => Tcp.opened_of_grows ht hf'.toGrows hp
      cases w' with
      | opener => exact (hs'.resolve_left hno).2
      | joinee c => exact (hs'.resolve_left hno).2
    · exact Or.inr (ht.grows hf'.toGrows).1
  obtain ⟨lo, dₒ, hfo, hlo, -⟩ := hall .opener
  have hunread : ∀ c, s.Won c Unread → (s.setConn w k).Won c Unread := by
    rintro c ⟨h1, h2, h3, h4, h5⟩
    obtain ⟨lj, dj, hfj, -⟩ := hall (.joinee c)
    exact ⟨h1, h2, htold _ h3, htold _ h4, h5.fed hfo hlo hfj⟩
  have hpiping : ∀ c, s.Won c Piping → (s.setConn w k).Won c Piping := by
    rintro c ⟨h1, h2, h3, h4, h5⟩
    obtain ⟨lj, dj, hfj, -⟩ := hall (.joinee c)
    exact ⟨h1, h2, htold _ h3, htold _ h4, h5.fed hfo hlo hfj⟩
  refine ⟨h.fresh, h.claimed, h.joined, h.parked, h.held, h.chain, ?_, ?_, ?_, ?_, ?_⟩
  · intro t ht
    have hp := h.phase t ht
    cases t with
    | stokJoiner c =>
      obtain ⟨lj, dj, hfj, -⟩ := hall (.joinee c)
      obtain ⟨h1, h2, h3, h4⟩ := hp
      exact ⟨h1, h2, htold _ h3, h4.fed hfo hlo hfj⟩
    | stokOpener c => exact hunread c hp
    | early c => exact hunread c hp
    | reading c => exact hunread c hp
    | pipe task pc =>
      cases pc with
      | starting =>
        obtain ⟨c, hp⟩ := hp
        exact ⟨c, hpiping c hp⟩
      | running c a b cancelled => exact hpiping c hp
      | ending => exact trivial
    | _ => exact trivial
  · intro w'
    obtain ⟨l', d', -, -, hs'⟩ := hall w'
    cases w' <;> exact hs'
  · intro c hc
    obtain ⟨lj, dj, hfj, -⟩ := hall (.joinee c)
    rw [hfj.inb, hfj.sent, h.unread c hc]
  · obtain ⟨x, h1, h2, h3⟩ := h.there
    refine ⟨x, by rw [hfo.sent, hfo.inb, h1, List.append_assoc], h2, fun c hc => ?_⟩
    obtain ⟨lj, dj, hfj, hlj, -⟩ := hall (.joinee c)
    exact (h3 c hc).grows hfj.toGrows hlj
  · intro c hc
    obtain ⟨lj, dj, hfj, -⟩ := hall (.joinee c)
    rw [hfo.out, Tcp.rawOf_append, hlo, List.append_nil, hfj.sent]
    exact (h.back c hc).trans (behindJoined_append _ _)

theorem Clear.setConn_nil (h : Clear s) {w : Who} {d : Bytes} {k : Tcp}
    (hf : (s.conns w).Fed [] d k) : Clear (s.setConn w k) := by
  refine h.setConn hf rfl ?_
  rw [hf.out, List.append_nil]
  exact h.shape w

theorem Clear.close (h : Clear s) (w : Who) : Clear (s.close w) :=
  h.setConn_nil (Tcp.fed_close _)

theorem Clear.write_eof (h : Clear s) (w : Who) : Clear (s.write_eof w) :=
  h.setConn_nil (Tcp.fed_write_eof _)

/-! ## coroutines -/

theorem Clear.coros (h : Clear s) {l : List Coro} (hh : ∀ t ∈ l, ∀ c ∈ t.held, c ∈ s.joined)
    (hc : l.countP Coro.isChain ≤ if s.state = .opened then 0 else 1)
    (hp : ∀ t ∈ l, s.Phase t) : Clear { s with coros := l } :=
  ⟨h.fresh, h.claimed, h.joined, h.parked, hh, hc, fun t ht => by
    have ht' := hp t ht
    cases t with
    | pipe task pc => cases pc <;> exact ht'
    | _ => exact ht', fun w => by
    have hs := h.shape w
    cases w <;> exact hs, h.unread, h.there, h.back⟩

theorem Clear.spawn (h : Clear s) {t : Coro} (hh : ∀ c ∈ t.held, c ∈ s.joined)
    (hc : (s.coros ++ [t]).countP Coro.isChain ≤ if s.state = .opened then 0 else 1)
    (hp : s.Phase t) : Clear (s.spawn t) := by
  refine h.coros (fun u hu => ?_) hc fun u hu => ?_
  · rcases List.mem_append.mp hu with hu | hu
    · exact h.held u hu
    · rw [List.mem_singleton.mp hu]
      exact hh
  · rcases List.mem_append.mp hu with hu | hu
    · exact h.phase u hu
    · rw [List.mem_singleton.mp hu]
      exact hp

/-- a coroutine that has nothing to do with the claim that won -/
theorem Clear.spawn_aside (h : Clear s) {t : Coro} (hh : ∀ c ∈ t.held, c ∈ s.joined)
    (hc : t.isChain = false) : Clear (s.spawn t) := by
  refine h.spawn hh ?_ ?_
  · rw [List.countP_append, List.countP_singleton, hc]
    exact h.chain
  · cases t <;> first | exact trivial | exact absurd hc (by simp [Coro.isChain])

/-- the next coroutine of the claim that won, the one before it having ended -/
theorem Clear.spawn_chain (h : Clear s) {t : Coro} (hh : t.held = [])
    (hn : s.coros.countP Coro.isChain = 0) (hs : s.state ≠ .opened) (hp : s.Phase t) :
    Clear (s.spawn t) := by
  refine h.spawn (fun c hc => absurd hc (by simp [hh])) ?_ hp
  rw [List.countP_append, hn, if_neg hs, Nat.zero_add]
  exact List.countP_le_length

theorem phase_cancel {t u : Coro} (hu : t.cancel = some u) (h : s.Phase t) : s.Phase u := by
  cases t with
  | pipe task pc =>
    cases task <;> cases pc <;> simp only [Coro.cancel, Option.some.injEq, reduceCtorEq] at hu <;>
      subst hu <;> exact h
  | failing task =>
    cases task <;> simp only [Coro.cancel, Option.some.injEq, reduceCtorEq] at hu
    subst hu
    exact h
  | timeout => exact absurd hu (by simp [Coro.cancel])
  | _ =>
    simp only [Coro.cancel, Option.some.injEq] at hu
    subst hu
    exact h

theorem isChain_cancel {t u : Coro} (hu : t.cancel = some u) :
    u.isChain = t.isChain ∧ u.held = t.held := by
  cases t with
  | pipe task pc =>
    cases task <;> cases pc <;> simp only [Coro.cancel, Option.some.injEq, reduceCtorEq] at hu <;>
      subst hu <;> exact ⟨rfl, rfl⟩
  | failing task =>
    cases task <;> simp only [Coro.cancel, Option.some.injEq, reduceCtorEq] at hu
    subst hu
    exact ⟨rfl, rfl⟩
  | timeout => exact absurd hu (by simp [Coro.cancel])
  | _ =>
    simp only [Coro.cancel, Option.some.injEq] at hu
    subst hu
    exact ⟨rfl, rfl⟩

theorem countP_cancel (l : List Coro) :
    (l.filterMap Coro.cancel).countP Coro.isChain ≤ l.countP Coro.isChain := by
  induction l with
  | nil => exact le_refl _
  | cons t l ih =>
    cases hc : t.cancel with
    | none =>
      rw [List.filterMap_cons_none hc, List.countP_cons]
      omega
    | some u =>
      rw [List.filterMap_cons_some hc, List.countP_cons, List.countP_cons, (isChain_cancel hc).1]
      omega

theorem Clear.cancel (h : Clear s) : Clear { s with coros := s.coros.filterMap Coro.cancel } := by
  refine h.coros (fun u hu => ?_) ((countP_cancel _).trans h.chain) fun u hu => ?_
  · obtain ⟨t, ht, hc⟩ := List.mem_filterMap.mp hu
    rw [(isChain_cancel hc).2]
    exact h.held t ht
  · obtain ⟨t, ht, hc⟩ := List.mem_filterMap.mp hu
    exact phase_cancel hc (h.phase t ht)

/-- a coroutine goes on: if it is of the claim that won, no other is -/
theorem Clear.without (h : Clear s) {i : Nat} {t : Coro} (ht : s.coros[i]? = some t) :
    Clear (s.without i) ∧ (t.isChain = true →
      (s.without i).coros.countP Coro.isChain = 0 ∧ s.state ≠ .opened) := by
  have hp := coros_perm ht
  have hcount := hp.countP_eq Coro.isChain
  rw [List.countP_cons] at hcount
  have hchain := h.chain
  have hle : (s.without i).coros.countP Coro.isChain ≤ if s.state = .opened then 0 else 1 := by
    omega
  refine ⟨h.coros (fun u hu => ?_) hle fun u hu => ?_, fun hc => ?_⟩
  · exact h.held u (hp.mem_iff.mpr (List.mem_cons_of_mem _ hu))
  · exact h.phase u (hp.mem_iff.mpr (List.mem_cons_of_mem _ hu))
  · rw [if_pos hc] at hcount
    split at hchain
    · omega
    · rename_i hs
      exact ⟨by omega, hs⟩

/-! ## the record goes -/

theorem Clear.closeEnds (h : Clear s) : Clear s.closeEnds := by
  unfold Stream.closeEnds
  split
  · exact h.close .opener
  · exact (h.close .opener).close _

theorem Clear.pop (h : Clear s) : Clear s.pop := by
  unfold Stream.pop
  split
  · have hk := h.closeEnds.cancel
    rw [closeEnds_eq] at hk ⊢
    exact hk.congr rfl rfl rfl rfl (fun _ hc => hc) hk.parked
  · exact h

theorem plain_stfail (r : Reason) : Plain [s.stfail r] := by
  intro o ho
  rw [List.mem_singleton.mp ho]
  show T_STFAIL ≠ T_STOK
  decide

/-- a refusal goes out only where no `T_STOK` is -/
theorem Clear.setConn_stfail (h : Clear s) {w : Who} {r : Reason} {k : Tcp} {x : Sent}
    (hk : (s.conns w).send (s.stfail r) = (k, x)) (hp : Plain (s.conns w).out) :
    Clear (s.setConn w k) := by
  rcases Tcp.fed_send hk with ⟨hf, -⟩ | hf
  · exact h.setConn_nil hf
  · refine h.setConn hf (rawOf_plain (plain_stfail r)) ?_
    have hp' : Plain k.out := by
      rw [hf.out]
      exact hp.append (plain_stfail r)
    cases w <;> exact Or.inl hp'

theorem Clear.fail (h : Clear s) (task : Bool) (r : Reason) : Clear (s.fail task r) := by
  unfold Stream.fail
  split
  · rename_i hc
    have hst : s.state ≠ .ready := by
      have hc' : (s.conns .opener).closing = false ∧ s.state ≠ .ready := by simpa using hc
      exact hc'.2
    have hp : Plain (s.conns .opener).out := (h.shape .opener).resolve_right fun hr => hst hr.1
    refine send_cases (fun k hk => ?_) fun k x hk _ => ?_
    · exact (h.setConn_stfail hk hp).spawn_aside (fun c hc => absurd hc List.not_mem_nil) rfl
    · exact (h.setConn_stfail hk hp).pop
  · exact h.pop

/-! ## granting -/

theorem phase_aside {t : Coro} (h : t.isChain = false) : s.Phase t := by
  cases t <;> first | exact trivial | exact absurd h (by simp [Coro.isChain])

theorem aside_of_none (h : s.coros.countP Coro.isChain = 0) (u : Stream) :
    ∀ t ∈ s.coros, u.Phase t := by
  intro t ht
  have hc := List.countP_eq_zero.mp h t ht
  exact phase_aside (Bool.eq_false_iff.mpr hc)

/-- `T_STOK` goes out on a connection that carried plain frames, or nothing goes out on it any more -/
theorem told_send {k k' : Tcp} {p : Bytes} {r : Sent} (hk : k.send (.frame T_STOK p) = (k', r))
    (hp : Plain k.out) : (∃ l, k.Fed l [] k' ∧ rawOf l = [] ∧ (Plain k'.out ∨ Opened k'.out)) ∧
      k'.Told := by
  rcases Tcp.fed_send hk with ⟨hf, -, hs⟩ | hf
  · refine ⟨⟨[], hf, rfl, Or.inl ?_⟩, Or.inr hs⟩
    rw [hf.out, List.append_nil]
    exact hp
  · have ho : Opened k'.out := by
      rw [hf.out]
      exact hp.opened p
    exact ⟨⟨_, hf, rfl, Or.inr ho⟩, Or.inl ho⟩

theorem Clear.confirm (h : Clear s) {c : Nat} (hn : s.coros.countP Coro.isChain = 0)
    (hp : s.Phase (.stokJoiner c)) : Clear (s.confirm c) := by
  obtain ⟨hst, hj, htj, hu⟩ := hp
  have hplain : Plain (s.conns .opener).out :=
    (h.shape .opener).resolve_right fun hr => absurd (hst.symm.trans hr.1) (by decide)
  have h1 : Clear { s with state := .ready } := by
    refine ⟨nofun, fun _ => ⟨c, hj⟩, h.joined, h.parked, h.held, ?_, aside_of_none hn _, ?_,
      h.unread, h.there, h.back⟩
    · show s.coros.countP _ ≤ 1
      omega
    · intro w
      cases w with
      | opener => exact Or.inl hplain
      | joinee c' => exact h.shape (.joinee c')
  have hset : ∀ k x, (s.conns .opener).send s.stok = (k, x) →
      Clear ({ s with state := .ready }.setConn .opener k) ∧
        ({ s with state := .ready }.setConn .opener k).Won c Unread := by
    intro k x hk
    obtain ⟨⟨l, hf, hl, hs⟩, ht⟩ := told_send hk hplain
    refine ⟨h1.setConn hf hl (hs.imp_right fun ho => ⟨rfl, ho⟩), rfl, hj, ?_, ?_, ?_⟩
    · rw [setConn_other _ (by simp)]
      exact htj
    · rw [setConn_self]
      exact ht
    · rw [setConn_self, setConn_other _ (by simp)]
      exact ⟨hu.inb, by rw [hf.out, Tcp.rawOf_append, hu.out, hl]; rfl⟩
  unfold Stream.confirm
  refine send_cases (fun k hk => ?_) fun k x hk _ => ?_
  · obtain ⟨hc, hw⟩ := hset k _ hk
    exact hc.spawn_chain rfl hn nofun hw
  · obtain ⟨hc, hw⟩ := hset k _ hk
    split
    · exact hc.spawn_chain rfl hn nofun hw
    · exact hc.fail _ _

theorem Clear.claim (h : Clear s) {c : Nat} (ho : s.state = .opened) (hm : c ∈ s.joined)
    (node : Nat) : Clear (s.claim c node) := by
  have hj := h.fresh ho
  have hn : s.coros.countP Coro.isChain = 0 := by
    have h1 := h.chain
    rw [if_pos ho] at h1
    omega
  have hplain : ∀ w, Plain (s.conns w).out := by
    intro w
    have hs := h.shape w
    cases w with
    | opener => exact hs.resolve_right fun hr => absurd (ho.symm.trans hr.1) (by decide)
    | joinee c' => exact hs.resolve_right fun hr => absurd hr.1 (by simp [hj])
  obtain ⟨x, hx, hx0, -⟩ := h.there
  have hx0' := hx0 hj
  have h1 : Clear { s with
      joiner := some c
      state := .joined
      dest_node := if s.dest_node = 0 then node else s.dest_node } := by
    refine ⟨nofun, fun _ => ⟨c, rfl⟩, ?_, h.parked, h.held, ?_, aside_of_none hn _, ?_, ?_, ?_, ?_⟩
    · intro c' hc'
      rw [← Option.some.inj hc']
      exact hm
    · show s.coros.countP _ ≤ 1
      omega
    · intro w
      cases w <;> exact Or.inl (hplain _)
    · exact fun c' _ => h.unread c' (by simp [hj])
    · exact ⟨x, hx, fun hf => absurd hf (by simp), fun c' _ =>
        Or.inl ((rawOf_plain (hplain _)).trans hx0'.symm)⟩
    · intro c' _
      rw [rawOf_plain (hplain .opener)]
      exact List.nil_prefix
  -- what comes after `write_eof`, with or without it
  have key : ∀ u : Stream, Clear u → u.joiner = some c → u.state = .joined →
      u.coros.countP Coro.isChain = 0 → Plain (u.conns (.joinee c)).out →
      Unread (u.conns .opener) (u.conns (.joinee c)) →
      Clear (u.send (.joinee c) u.stok (fun s => s.spawn (.stokJoiner c)) fun r s =>
        if r = .ok then s.confirm c else s.fail false .NO_ROUTE) := by
    intro u hu huj hus hun hup hur
    have hst : u.state ≠ .opened := by rw [hus]; decide
    have hset : ∀ k x, (u.conns (.joinee c)).send u.stok = (k, x) →
        Clear (u.setConn (.joinee c) k) ∧ (u.setConn (.joinee c) k).Phase (.stokJoiner c) := by
      intro k x hk
      obtain ⟨⟨l, hf, hl, hs⟩, ht⟩ := told_send hk hup
      refine ⟨hu.setConn hf hl (hs.imp_right fun ho => ⟨huj, ho⟩), hus, huj, ?_, ?_⟩
      · rw [setConn_self]
        exact ht
      · rw [setConn_self, setConn_other _ (by simp)]
        exact ⟨by rw [hf.inb, hf.sent, hur.inb], hur.out⟩
    refine send_cases (fun k hk => ?_) fun k x hk _ => ?_
    · obtain ⟨hc, hp⟩ := hset k _ hk
      exact hc.spawn_chain rfl hun hst hp
    · obtain ⟨hc, hp⟩ := hset k _ hk
      split
      · exact hc.confirm hun hp
      · exact hc.fail _ _
  have hur : Unread (s.conns .opener) (s.conns (.joinee c)) :=
    ⟨h.unread c (by simp [hj]), rawOf_plain (hplain _)⟩
  unfold Stream.claim
  dsimp only
  split
  · have h2 : Clear { s with
        joiner := some c
        state := .joined
        dest_node := if s.dest_node = 0 then node else s.dest_node
        shut_from := false } := h1.congr rfl rfl rfl rfl (fun _ hc => hc) h1.parked
    have hf := Tcp.fed_write_eof (s.conns (.joinee c))
    refine key _ (h2.write_eof _) rfl rfl hn ?_ ?_
    · unfold Stream.write_eof
      rw [setConn_self, hf.out, List.append_nil]
      exact hplain _
    · unfold Stream.write_eof
      rw [setConn_self, setConn_other _ (by simp)]
      exact ⟨by rw [hf.inb, hf.sent, hur.inb], hur.out⟩
  · exact key _ h1 rfl rfl hn (hplain _) hur

theorem Clear.plain_joinee (h : Clear s) {c : Nat} (hj : s.joiner ≠ some c) :
    Plain (s.conns (.joinee c)).out :=
  (h.shape (.joinee c)).resolve_right fun hr => hj hr.1

/-- a joinee that is not the joiner is refused, and the coroutine suspends or closes the connection -/
theorem Clear.send_stfail (h : Clear s) {c : Nat} {r : Reason} {waits : Stream → Stream}
    {fin : Sent → Stream → Stream} {Q : Stream → Prop} (hj : s.joiner ≠ some c)
    (hw : ∀ k, Clear (s.setConn (.joinee c) k) → Q (waits (s.setConn (.joinee c) k)))
    (hf : ∀ k x, Clear ((s.setConn (.joinee c) k).close (.joinee c)) →
      Q (fin x (s.setConn (.joinee c) k))) : Q (s.send (.joinee c) (s.stfail r) waits fin) := by
  have hp := h.plain_joinee hj
  exact send_cases (fun k hk => hw k (h.setConn_stfail hk hp)) fun k x hk _ =>
    hf k x ((h.setConn_stfail hk hp).close _)

theorem Clear._grant_claim (h : Clear s) {c : Nat} (ho : s.state = .opened) (hm : c ∈ s.joined)
    (node : Nat) : Clear (s._grant_claim c node) := by
  unfold Stream._grant_claim
  split
  · refine h.send_stfail (by simp [h.fresh ho]) (fun k hk => ?_) fun k x hk => ?_
    · exact hk.spawn_aside (fun c hc => absurd hc List.not_mem_nil) rfl
    · exact hk.fail _ _
  · exact h.claim ho hm node

theorem Clear.busyRound (win : StClaim) (rest : List StClaim) (s : Stream) (h : Clear s)
    (ho : s.state = .opened) (hw : win.1 ∈ s.joined) (hr : ∀ l ∈ rest, l.1 ∈ s.joined) :
    Clear (s.busyRound win rest) := by
  induction rest generalizing s with
  | nil => exact h._grant_claim ho hw win.2
  | cons l rest ih =>
    have hr' : ∀ x ∈ rest, x.1 ∈ s.joined := fun x hx => hr x (List.mem_cons_of_mem _ hx)
    unfold Stream.busyRound
    refine h.send_stfail (by simp [h.fresh ho]) (fun k hk => ?_) fun k x hk => ?_
    · refine hk.spawn_aside (fun c hc => ?_) rfl
      simp only [Coro.held, List.mem_cons, List.mem_map] at hc
      rcases hc with rfl | rfl | ⟨x, hx, rfl⟩
      · exact hr l List.mem_cons_self
      · exact hw
      · exact hr' x hx
    · exact ih _ hk ho hw hr'

theorem Clear._implicit_grant (h : Clear s) : Clear s._implicit_grant := by
  unfold Stream._implicit_grant
  split
  · exact h
  · rename_i hx
    have ho : s.state = .opened := by
      have hx' : s.listed = true ∧ s.state = .opened := by simpa using hx
      exact hx'.2
    have hperm : (s.ranked s.claims).Perm s.claims := List.perm_insertionSort ..
    have h1 : Clear { s with claims := [], grant_task := false } :=
      h.congr rfl rfl rfl rfl (fun _ hc => hc) fun x hx => absurd hx List.not_mem_nil
    dsimp only
    split
    · exact h1
    · rename_i win losers hr
      rw [hr] at hperm
      exact Clear.busyRound win losers _ h1 ho
        (h.parked win (hperm.mem_iff.mp List.mem_cons_self)) fun l hl =>
          h.parked l (hperm.mem_iff.mp (List.mem_cons_of_mem _ hl))

theorem Clear.join (h : Clear s) {c : Nat} (hc : c ∉ s.joined) (node : Nat) :
    Clear (s.join c node) := by
  have hj : s.joiner ≠ some c := fun hj => hc (h.joined c hj)
  have hm : ∀ c' ∈ s.joined, c' ∈ c :: s.joined := fun c' hc' => List.mem_cons_of_mem c hc'
  have h1 : Clear { s with joined := c :: s.joined } :=
    h.congr rfl rfl rfl rfl hm fun x hx => hm _ (h.parked x hx)
  have hp : ∀ x ∈ s.claims ++ [(c, node)], x.1 ∈ c :: s.joined := by
    intro x hx
    rcases List.mem_append.mp hx with hx | hx
    · exact hm _ (h.parked x hx)
    · rw [List.mem_singleton.mp hx]
      exact List.mem_cons_self
  unfold Stream.join
  dsimp only
  split
  · refine h1.send_stfail hj (fun k hk => ?_) fun k x hk => hk
    exact hk.spawn_aside (fun c hc => absurd hc List.not_mem_nil) rfl
  · rename_i ho
    split
    · split
      · exact h1.congr rfl rfl rfl rfl (fun _ hc => hc) hp
      · refine Clear.spawn_aside ?_ (fun c hc => absurd hc List.not_mem_nil) rfl
        exact h1.congr rfl rfl rfl rfl (fun _ hc => hc) hp
    · exact h1._grant_claim (not_not.mp ho) List.mem_cons_self node

/-! ## the pipe -/

/-- raw bytes behind `T_STOK`, or nothing -/
theorem shape_raw {w : Who} {d : Bytes} {k : Tcp} {x : Sent} (hk : (s.conns w).send (.raw d) = (k, x))
    (hs : s.Shape (s.conns w).out w) (ht : (s.conns w).Told) : s.Shape k.out w ∧ k.Told := by
  rcases Tcp.fed_send hk with ⟨hf, -, hstop⟩ | hf
  · refine ⟨?_, Or.inr hstop⟩
    rw [hf.out, List.append_nil]
    exact hs
  · rcases ht with ho | hstop
    · have ho' : Opened k.out := by
        rw [hf.out]
        exact ho.raw d
      refine ⟨?_, Or.inl ho'⟩
      have hno := fun hp => Tcp.opened_of_grows ho (Tcp.grows_refl (s.conns w)) hp
      cases w with
      | opener => exact Or.inr ⟨(hs.resolve_left hno).1, ho'⟩
      | joinee c => exact Or.inr ⟨(hs.resolve_left hno).1, ho'⟩
    · exact absurd (hstop.grows hf.toGrows).2 (by simp)

/-- both pumps, in one: the pipe took `n` bytes from `r` and wrote them on `w` -/
def carry (s : Stream) (n : Nat) (r w : Who) : Stream :=
  (s.setConn r { s.conns r with inb := (s.conns r).inb.drop n }).setConn w
    ((s.conns w).send (.raw ((s.conns r).inb.take n))).1

section
variable {r w : Who} {n : Nat} {c : Nat}

theorem carry_from (hne : w ≠ r) :
    (s.carry n r w).conns r = { s.conns r with inb := (s.conns r).inb.drop n } :=
  (setConn_other _ hne.symm _).trans (setConn_self ..)

theorem carry_to {k : Tcp} {x : Sent} (hk : (s.conns w).send (.raw ((s.conns r).inb.take n)) = (k, x)) :
    (s.carry n r w).conns w = k := by
  unfold carry
  rw [setConn_self, hk]

theorem carry_other {v : Who} (hr : v ≠ r) (hw : v ≠ w) :
    (s.carry n r w).conns v = s.conns v :=
  (setConn_other _ hw _).trans (setConn_other _ hr _)

/-- what the two directions have in common: the pipe is between the opener and the joiner -/
theorem Clear.carry (h : Clear s) (hj : s.joiner = some c) (hne : w ≠ r)
    (hr : r = .opener ∨ r = .joinee c) (hw : w = .opener ∨ w = .joinee c)
    (honly : ∀ t ∈ s.coros, t.isChain = true → ∀ u : Stream, u.Won c Piping → u.Phase t)
    (hwon : (s.carry n r w).Won c Piping)
    (hshape : s.Shape ((s.carry n r w).conns w).out w)
    (hthere : ∃ x, ((s.carry n r w).conns .opener).sent = x ++ ((s.carry n r w).conns .opener).inb ∧
      Tcp.Carried x ((s.carry n r w).conns (.joinee c)))
    (hback : rawOf ((s.carry n r w).conns .opener).out <+:
      behindJoined ((s.carry n r w).conns (.joinee c)).sent) : Clear (s.carry n r w) := by
  refine ⟨h.fresh, h.claimed, h.joined, h.parked, h.held, h.chain, ?_, ?_, ?_, ?_, ?_⟩
  · intro t ht
    by_cases hch : t.isChain = true
    · exact honly t ht hch _ hwon
    · exact phase_aside (Bool.eq_false_iff.mpr hch)
  · intro v
    by_cases hvw : v = w
    · subst hvw
      exact hshape
    · by_cases hvr : v = r
      · subst hvr
        rw [carry_from hne]
        exact h.shape v
      · rw [carry_other hvr hvw]
        exact h.shape v
  · intro c' hc'
    have hcc : c' ≠ c := fun he => hc' (by rw [he]; exact hj)
    have haway : ∀ v, v = .opener ∨ v = .joinee c → Who.joinee c' ≠ v := by
      rintro v (rfl | rfl)
      · exact nofun
      · exact fun he => hcc (Who.joinee.inj he)
    rw [carry_other (haway r hr) (haway w hw)]
    exact h.unread c' hc'
  · obtain ⟨x, h1, h2⟩ := hthere
    refine ⟨x, h1, fun hf => absurd (hj.symm.trans hf) (by simp), fun c' hc' => ?_⟩
    rw [← Option.some.inj (hj.symm.trans hc')]
    exact h2
  · intro c' hc'
    rw [← Option.some.inj (hj.symm.trans hc')]
    exact hback

end

theorem Clear.carry_there (h : Clear s) {c : Nat} (hw : s.Won c Piping)
    (honly : ∀ t ∈ s.coros, t.isChain = true → ∀ u : Stream, u.Won c Piping → u.Phase t) (n : Nat) :
    Clear (s.carry n .opener (.joinee c)) ∧ (s.carry n .opener (.joinee c)).Won c Piping := by
  obtain ⟨hr, hj, htj, hto, p, y, hy1, hy2⟩ := hw
  rcases hk : (s.conns (.joinee c)).send (.raw ((s.conns .opener).inb.take n)) with ⟨k, r⟩
  obtain ⟨hshape, htold⟩ := shape_raw hk (h.shape _) htj
  have hreads := Tcp.send_reads (s.conns (.joinee c)) (.raw ((s.conns .opener).inb.take n))
  rw [hk] at hreads
  have hne : Who.joinee c ≠ .opener := nofun
  have ho := carry_from (s := s) (n := n) hne
  have hc := carry_to hk
  have hwon : (s.carry n .opener (.joinee c)).Won c Piping := by
    refine ⟨hr, hj, ?_, ?_, p, y, ?_, ?_⟩
    · rw [hc]
      exact htold
    · rw [ho]
      exact hto.grows (Tcp.grows_inb _ _)
    · rw [hc, hreads.1, hreads.2]
      exact hy1
    · rw [ho]
      exact hy2.grows (Tcp.grows_inb _ _) rfl
  refine ⟨h.carry hj hne (Or.inl rfl) (Or.inr rfl) honly hwon ?_ ?_ ?_, hwon⟩
  · rw [hc]
    exact hshape
  · obtain ⟨x, h1, -, h3⟩ := h.there
    refine ⟨x ++ (s.conns .opener).inb.take n, ?_, ?_⟩
    · rw [ho, List.append_assoc, List.take_append_drop]
      exact h1
    · rw [hc]
      exact (h3 c hj).send hk
  · rw [ho, hc, hreads.1]
    exact h.back c hj

theorem Clear.carry_back (h : Clear s) {c : Nat} (hw : s.Won c Piping)
    (honly : ∀ t ∈ s.coros, t.isChain = true → ∀ u : Stream, u.Won c Piping → u.Phase t) (n : Nat) :
    Clear (s.carry n (.joinee c) .opener) ∧ (s.carry n (.joinee c) .opener).Won c Piping := by
  obtain ⟨hr, hj, htj, hto, p, y, hy1, hy2⟩ := hw
  rcases hk : (s.conns .opener).send (.raw ((s.conns (.joinee c)).inb.take n)) with ⟨k, r⟩
  obtain ⟨hshape, htold⟩ := shape_raw hk (h.shape _) hto
  have hreads := Tcp.send_reads (s.conns .opener) (.raw ((s.conns (.joinee c)).inb.take n))
  rw [hk] at hreads
  have hne : Who.opener ≠ .joinee c := nofun
  have hc := carry_from (s := s) (n := n) hne
  have ho := carry_to hk
  have hcar := hy2.send hk
  have hwon : (s.carry n (.joinee c) .opener).Won c Piping := by
    refine ⟨hr, hj, ?_, ?_, p, y ++ (s.conns (.joinee c)).inb.take n, ?_, ?_⟩
    · rw [hc]
      exact htj.grows (Tcp.grows_inb _ _)
    · rw [ho]
      exact htold
    · rw [hc, List.append_assoc, List.take_append_drop]
      exact hy1
    · rw [ho]
      exact hcar
  refine ⟨h.carry hj hne (Or.inr rfl) (Or.inl rfl) honly hwon ?_ ?_ ?_, hwon⟩
  · rw [ho]
    exact hshape
  · obtain ⟨x, h1, -, h3⟩ := h.there
    refine ⟨x, ?_, ?_⟩
    · rw [ho, hreads.1, hreads.2]
      exact h1
    · rw [hc]
      exact (h3 c hj).grows (Tcp.grows_inb _ _) rfl
  · rw [ho, hc]
    refine hcar.initial.trans ?_
    show _ <+: behindJoined (s.conns (.joinee c)).sent
    unfold behindJoined
    rw [hy1]
    dsimp only
    rw [if_pos rfl, List.prefix_append_right_inj]
    exact List.take_prefix _ _

/-- a pump that goes on carries a chunk, or does nothing to the connections -/
theorem pump_cases {pc : PumpPc} {r w : Who} (hrw : w ≠ r) {x : Stream × PumpPc}
    (hx : s.pump pc r w = some x) : x.1 = s ∨ x.1 = s.carry 65536 r w := by
  unfold Stream.pump at hx
  cases pc with
  | ended => exact absurd hx (by simp)
  | drain =>
    obtain ⟨y, -, rfl⟩ := Option.map_eq_some_iff.mp hx
    exact Or.inl rfl
  | read =>
    dsimp only at hx
    split at hx
    · rw [← Option.some.inj hx]
      exact Or.inl rfl
    split at hx
    · obtain ⟨-, hx⟩ := Option.ite_none_right_eq_some.mp hx
      rw [← Option.some.inj hx]
      exact Or.inl rfl
    · rw [← Option.some.inj hx]
      refine Or.inr ?_
      unfold carry
      rw [setConn_other _ hrw]

theorem Clear.pumpStep (h : Clear s) {i : Nat} {back : Bool} {s' : Stream}
    (hs : s.pumpStep i back = some s') : Clear s' := by
  unfold Stream.pumpStep at hs
  split at hs
  · rename_i task c a b cancelled ht
    have hw : s.Won c Piping := h.phase _ (List.mem_of_getElem? ht)
    obtain ⟨-, hz⟩ := h.without ht
    obtain ⟨hz, -⟩ := hz rfl
    -- the pipe is the only coroutine of the claim
    have honly : ∀ t ∈ s.coros, t.isChain = true → ∀ u : Stream, u.Won c Piping → u.Phase t := by
      intro t hm hch u hu
      rcases List.mem_cons.mp ((coros_perm ht).mem_iff.mp hm) with rfl | hm
      · exact hu
      · exact absurd hch (List.countP_eq_zero.mp hz t hm)
    have key : ∀ (x : Stream) (pc pc' : PumpPc), Clear x → x.Won c Piping → x.coros = s.coros →
        x.state = s.state → x.joined = s.joined →
        Clear { x with coros := x.coros.set i (.pipe task (.running c pc pc' cancelled)) } := by
      intro x pc pc' hx hxw hxc hxs hxj
      have hi := (List.getElem?_eq_some_iff.mp ht).1
      have hperm : (x.coros.set i (.pipe task (.running c pc pc' cancelled))).Perm
          (.pipe task (.running c pc pc' cancelled) :: (s.without i).coros) := by
        rw [hxc]
        exact List.set_perm_cons_eraseIdx hi _
      refine hx.coros (fun t hm => ?_) ?_ fun t hm => ?_
      · rcases List.mem_cons.mp (hperm.mem_iff.mp hm) with rfl | hm
        · exact fun c hc => absurd hc List.not_mem_nil
        · rw [hxj]
          exact h.held t ((coros_perm ht).mem_iff.mpr (List.mem_cons_of_mem _ hm))
      · rw [hperm.countP_eq, List.countP_cons, hz, hxs, hw.1]
        exact le_refl _
      · rcases List.mem_cons.mp (hperm.mem_iff.mp hm) with rfl | hm
        · exact hxw
        · exact aside_of_none hz x t hm
    split at hs
    · obtain ⟨x, hx, rfl⟩ := Option.map_eq_some_iff.mp hs
      rcases pump_cases (by simp) hx with hx | hx
      · rw [hx]
        exact key s a x.2 h hw rfl rfl rfl
      · obtain ⟨h1, h2⟩ := h.carry_back hw honly 65536
        rw [hx]
        exact key _ a x.2 h1 h2 rfl rfl rfl
    · obtain ⟨x, hx, rfl⟩ := Option.map_eq_some_iff.mp hs
      rcases pump_cases (by simp) hx with hx | hx
      · rw [hx]
        exact key s x.2 b h hw rfl rfl rfl
      · obtain ⟨h1, h2⟩ := h.carry_there hw honly 65536
        rw [hx]
        exact key _ x.2 b h1 h2 rfl rfl rfl
  · exact absurd hs (by simp)

/-! ## steps -/

theorem Clear.stshut (h : Clear s) (node : Nat) : Clear (s.stshut node) := by
  unfold Stream.stshut
  split
  · exact h
  split
  · split
    · exact h.congr rfl rfl rfl rfl (fun _ hc => hc) h.parked
    · exact h.write_eof _
  split
  · exact h.write_eof _
  · exact h

/-- `_grant_claim` reads the first frame of the joinee, and the pipe starts right behind it -/
theorem Clear.readFrame (h : Clear s) {c : Nat} (hn : s.coros.countP Coro.isChain = 0)
    (hw : s.Won c Unread) {s' : Stream} (hs : s.readFrame c = some s') : Clear s' := by
  obtain ⟨hr, hj, htj, hto, hu⟩ := hw
  unfold Stream.readFrame at hs
  dsimp only at hs
  split at hs
  · rw [← Option.some.inj hs]
    exact h.fail _ _
  · rw [← Option.some.inj hs]
    exact h
  split at hs
  · rename_i t p rest hread
    rw [← Option.some.inj hs]
    have hread' : tcpRead (s.conns (.joinee c)).sent = .frame t p rest := by
      rw [← hu.inb]
      exact hread
    have hne : ∀ w, w ≠ .joinee c →
        (s.setConn (.joinee c) { s.conns (.joinee c) with inb := rest }).conns w = s.conns w :=
      fun w hw => setConn_other _ hw _
    have hself : (s.setConn (.joinee c) { s.conns (.joinee c) with inb := rest }).conns
        (.joinee c) = { s.conns (.joinee c) with inb := rest } := setConn_self ..
    -- the bytes of the frame are gone from the buffer, and nobody else reads it
    have h1 : Clear (s.setConn (.joinee c) { s.conns (.joinee c) with inb := rest }) := by
      refine ⟨h.fresh, h.claimed, h.joined, h.parked, h.held, h.chain, aside_of_none hn _, ?_, ?_,
        ?_, ?_⟩
      · intro w
        by_cases hw : w = .joinee c
        · rw [hw, hself]
          exact h.shape (.joinee c)
        · rw [hne w hw]
          have hs := h.shape w
          cases w <;> exact hs
      · intro c' hc'
        have hcc : c' ≠ c := fun he => hc' (by rw [he]; exact hj)
        rw [hne _ (by simpa using hcc)]
        exact h.unread c' hc'
      · obtain ⟨x, h1, h2, h3⟩ := h.there
        refine ⟨x, by rw [hne _ (by simp)]; exact h1, h2, fun c' hc' => ?_⟩
        rw [← Option.some.inj (hj.symm.trans hc'), hself]
        exact (h3 c hj).grows (Tcp.grows_inb _ _) rfl
      · intro c' hc'
        rw [← Option.some.inj (hj.symm.trans hc'), hself, hne _ (by simp)]
        exact h.back c hj
    unfold Stream.handshake
    split
    · rename_i ht
      have hwon : (s.setConn (.joinee c) { s.conns (.joinee c) with inb := rest }).Won c Piping := by
        refine ⟨hr, hj, ?_, ?_, p, [], ?_, ?_⟩
        · rw [hself]
          exact htj.grows (Tcp.grows_inb _ _)
        · rw [hne _ (by simp)]
          exact hto
        · rw [hself]
          exact ht ▸ hread'
        · rw [hne _ (by simp)]
          exact Or.inl hu.out
      refine Clear.spawn_chain h1.cancel rfl ?_ (by show s.state ≠ .opened; rw [hr]; decide) ⟨c, hwon⟩
      exact Nat.le_zero.mp ((countP_cancel _).trans hn.le)
    split
    · split
      · split
        · exact h1.fail _ _
        · exact h1
      · exact h1
    · exact h1.close _
  · rw [← Option.some.inj hs]
    exact h.fail _ _
  · obtain ⟨-, hs⟩ := Option.ite_none_right_eq_some.mp hs
    rw [← Option.some.inj hs]
    exact h.fail _ _

theorem Clear.wake (h : Clear s) {i : Nat} {t : Coro} {s' : Stream} (ht : s.coros[i]? = some t)
    (hok : s.Steady (.wake i)) (hs : (s.without i).resume t = some s') : Clear s' := by
  obtain ⟨hu, hchain⟩ := h.without ht
  have hp : s.Phase t := h.phase t (List.mem_of_getElem? ht)
  simp only [Steady, ht] at hok
  cases t with
  | timeout =>
    simp only [resume] at hs
    split at hs
    · rw [← Option.some.inj hs]
      exact hu.fail _ _
    · rw [← Option.some.inj hs]
      exact hu
  | failing task =>
    rw [← Option.some.inj hs]
    exact hu.pop
  | grant =>
    rw [← Option.some.inj hs]
    exact hu._implicit_grant
  | busy cur rest win =>
    obtain ⟨y, -, rfl⟩ := Option.map_eq_some_iff.mp hs
    have hheld := h.held _ (List.mem_of_getElem? ht)
    refine Clear.busyRound win rest _ (hu.close _) hok ?_ fun l hl => ?_
    · exact hheld win.1 (List.mem_cons_of_mem _ List.mem_cons_self)
    · exact hheld l.1 (List.mem_cons_of_mem _ (List.mem_cons_of_mem _ (List.mem_map_of_mem hl)))
  | refused c =>
    obtain ⟨y, -, rfl⟩ := Option.map_eq_some_iff.mp hs
    exact hu.close _
  | badId c =>
    obtain ⟨y, -, rfl⟩ := Option.map_eq_some_iff.mp hs
    exact (hu.close _).fail _ _
  | stokJoiner c =>
    obtain ⟨y, -, rfl⟩ := Option.map_eq_some_iff.mp hs
    split
    · exact hu.confirm (hchain rfl).1 hp
    · exact hu.fail _ _
  | stokOpener c =>
    obtain ⟨y, -, rfl⟩ := Option.map_eq_some_iff.mp hs
    obtain ⟨hn, hst⟩ := hchain rfl
    split
    · exact hu.spawn_chain rfl hn hst hp
    · exact hu.fail _ _
  | early c =>
    rw [← Option.some.inj hs]
    obtain ⟨hn, hst⟩ := hchain rfl
    exact hu.spawn_chain rfl hn hst hp
  | reading c => exact hu.readFrame (hchain rfl).1 hp hs
  | pipe task pc =>
    obtain ⟨hn, hst⟩ := hchain rfl
    cases pc with
    | starting =>
      simp only [resume] at hs
      split at hs
      · split at hs
        · rename_i c hj
          rw [← Option.some.inj hs]
          obtain ⟨c', hw⟩ := hp
          rw [← Option.some.inj (hj.symm.trans hw.2.1)] at hw
          exact hu.spawn_chain rfl hn hst hw
        · rw [← Option.some.inj hs]
          exact hu.spawn_chain rfl hn hst trivial
      · rw [← Option.some.inj hs]
        exact hu
    | running c a b cancelled =>
      obtain ⟨-, hs⟩ := Option.ite_none_right_eq_some.mp hs
      rw [← Option.some.inj hs]
      exact hu.spawn_chain rfl hn hst trivial
    | ending =>
      rw [← Option.some.inj hs]
      exact hu.pop

theorem clear_step {l : Label} {s' : Stream} (h : Clear s) (hok : s.Steady l)
    (hs : s.step l = some s') : Clear s' := by
  cases l with
  | stjoin c payload =>
    obtain ⟨-, hc, node, -, -, rfl⟩ := join_of_handle hs
    exact h.join hc node
  | wake i =>
    obtain ⟨t, ht, hs⟩ := Option.bind_eq_some_iff.mp hs
    exact h.wake ht hok hs
  | expire i =>
    simp only [step] at hs
    split at hs
    · rename_i c ht
      rw [← Option.some.inj hs]
      exact (h.without ht).1.fail _ _
    · exact absurd hs (by simp)
  | pump i back => exact h.pumpStep hs
  | stshut node =>
    rw [← Option.some.inj hs]
    exact h.stshut node
  | net w e =>
    obtain ⟨k, hk, rfl⟩ := Option.map_eq_some_iff.mp hs
    obtain ⟨d, hf⟩ := Tcp.fed_net hk
    exact h.setConn_nil hf
  | hostClaim node v =>
    rw [← Option.some.inj hs]
    exact h.congr rfl rfl rfl rfl (fun _ hc => hc) h.parked
  | popped =>
    rw [← Option.some.inj hs]
    exact h.pop
  | strayGrant =>
    rw [← Option.some.inj hs]
    exact h._implicit_grant
  | strayPipe => exact absurd hok id

/-- **The pipe is transparent.**  Along every run in which no BUSY round goes on once the stream is
granted, each end gets `T_STOK` as its last frame, and behind it what the other end sent. -/
theorem transparent_run {sid o d : Nat} {t : Stream} {tr : List (Stream × Label)}
    (h : Path step (opened sid o d) tr t) (hok : ∀ x ∈ tr, x.1.Steady x.2) :
    ∀ u ∈ visited tr t, u.Transparent :=
  h.all_of_ok (clear_opened sid o d) (fun _ h => h.transparent) (fun _ _ _ h => clear_step h) hok

theorem transparent_twoClaims : ∃ t, run step (opened 9 7 0) twoClaims = some t ∧
    ∀ u ∈ visited (trace step (opened 9 7 0) twoClaims) t, u.Transparent := by
  have hsome : (run step (opened 9 7 0) twoClaims).isSome = true := by decide
  obtain ⟨t, ht⟩ := Option.isSome_iff_exists.mp hsome
  have hok : ∀ x ∈ trace step (opened 9 7 0) twoClaims, x.1.Steady x.2 := by decide
  exact ⟨t, ht, transparent_run (path_run ht) hok⟩

/-- five siblings of node 8 claim the stream, the four losers break off one after the other as they
are refused, and a sixth sibling is granted the stream meanwhile -/
def sixSiblings : List Label :=
  (List.range 5).map (fun c => Label.stjoin c [0, 0, 0, 8, 0, 0, 0, 9]) ++
    ([.net (.joinee 1) .die, .wake 1, .net (.joinee 2) .die, .wake 1,
      .stjoin 5 [0, 0, 0, 8, 0, 0, 0, 9], .net (.joinee 3) .die, .wake 1, .net (.joinee 4) .die,
      .wake 2, .wake 1, .wake 1] : List Label)

/-- the round goes on, and the opener is told once more, in the middle of the bytes of the game -/
theorem sixSiblings_twice : ∃ t, run step (opened 9 7 0) sixSiblings = some t ∧
    ¬ t.Transparent := by
  have hsome : (run step (opened 9 7 0) sixSiblings).isSome = true := by decide
  obtain ⟨t, ht⟩ := Option.isSome_iff_exists.mp hsome
  have hend : ∀ u ∈ run step (opened 9 7 0) sixSiblings,
      (u.conns .opener).out = [] ++ Piece.frame T_STOK [0, 0, 0, 9] :: [u.stok] := by
    decide
  exact ⟨t, ht, fun h => (h.opener _ _ _ (hend t ht)).1 t.stok List.mem_cons_self⟩

end Stream

end ShadowLan
