import ShadowLan.Relay.Transparent

/-!
# Half-close

An endpoint that has sent its last byte says so with `T_STSHUT` on its control link, while the bytes
ride its per-stream connection.  Nothing orders the two, and the relay ends the other endpoint's
side as soon as it sees the frame.

* `Duplex`          a stream and its two endpoints, with the bytes on their way to the relay;
* `Duplex.step`     endpoints, network and relay, in any order, with nobody failing;
* `Duplex.Intact`   what an endpoint was sent comes whole before its end of file, and the other
                    direction goes on;
* `Duplex.Behind`   the condition on a step: a `T_STSHUT` is processed behind the bytes;
* `intact_run`      a run of such steps is intact to the end.

What the relay has written on a connection reaches the endpoint in order, and the end of file after
it.  The endpoints keep reading, the handshake ends within its budget, the joinee is the node that
was asked and answers `T_STOK` with `T_STJOINED`; other joinees may come at any time.
-/

namespace ShadowLan

/-- the half-close of an endpoint: not yet, `T_STSHUT` on its way, processed by the relay -/
inductive Shut where
  | no
  | sent
  | done
  deriving DecidableEq

/-- `wrote` are the bytes of the game, `flight` what the relay has not got of the connection -/
structure Endpoint where
  wrote : Bytes
  flight : Bytes
  shut : Shut
  deriving DecidableEq

inductive Side where
  | opener
  | joinee
  deriving DecidableEq

structure Duplex where
  s : Stream
  o : Endpoint
  j : Endpoint
  /-- the joinee has sent `T_STJOINED` -/
  bridged : Bool

namespace Duplex

def opened (sid opener_node dest_node : Nat) : Duplex :=
  { s := Stream.opened sid opener_node dest_node, o := ⟨[], [], .no⟩, j := ⟨[], [], .no⟩,
    bridged := false }

variable (d : Duplex)

def ep : Side → Endpoint
  | .opener => d.o
  | .joinee => d.j

def setEp (x : Side) (e : Endpoint) : Duplex :=
  match x with
  | .opener => { d with o := e }
  | .joinee => { d with j := e }

def conn : Side → Option Who
  | .opener => some .opener
  | .joinee => d.s.joiner.map Who.joinee

/-- the node whose link carries the endpoint's `T_STSHUT` -/
def node : Side → Nat
  | .opener => d.s.opener_node
  | .joinee => d.s.dest_node

def stjoined : Bytes := frame T_STJOINED (encode_stsid d.s.sid)

/-- what the relay does by itself when nothing fails -/
def Healthy : Stream.Label → Bool
  | .stjoin _ payload => match decode_stjoin payload with
    | some (node, _) => node != 0 &&
        (d.s.state != .opened || d.s.dest_node == 0 || node == d.s.dest_node)
    | none => false
  | .wake i => match d.s.coros[i]? with
    | some .timeout => d.s.state == .ready
    | _ => true
  | .pump _ _ | .net _ (.buffer _ _) | .hostClaim _ _ => true
  | _ => false

inductive Act where
  | relay (l : Stream.Label)
  | write (x : Side) (b : Bytes)
  | bridge
  | shutdown (x : Side)
  | deliver (x : Side) (n : Nat)
  | stshut (x : Side)

def step : Act → Option Duplex
  | .relay l => if d.Healthy l then (d.s.step l).map fun s => { d with s } else none
  | .write x b =>
    let e := d.ep x
    if e.shut = .no ∧ (x = .opener ∨ d.bridged = true) then
      some (d.setEp x { e with wrote := e.wrote ++ b, flight := e.flight ++ b })
    else none
  | .bridge =>
    match d.s.joiner with
    | none => none
    | some c =>
      if d.bridged = false ∧ d.s.stok ∈ (d.s.conns (.joinee c)).out then
        some { d with bridged := true, j := { d.j with flight := d.stjoined } }
      else none
  | .shutdown x =>
    let e := d.ep x
    if e.shut = .no ∧ (x = .opener ∨ d.bridged = true) then
      some (d.setEp x { e with shut := .sent })
    else none
  | .deliver x n =>
    let e := d.ep x
    (d.conn x).bind fun w => (d.s.step (.net w (.arrive (e.flight.take n)))).map fun s =>
      { d with s }.setEp x { e with flight := e.flight.drop n }
  | .stshut x =>
    let e := d.ep x
    if e.shut = .sent then
      some ({ d with s := d.s.stshut (d.node x) }.setEp x { e with shut := .done })
    else none

/-- nothing is on its way, no coroutine and no pump can go on, and no transport is held up -/
structure AtRest : Prop where
  flight : ∀ x, (d.ep x).flight = []
  shut : ∀ x, (d.ep x).shut ≠ .sent
  wake : ∀ i, d.s.step (.wake i) = none
  pump : ∀ i back, d.s.step (.pump i back) = none
  paused : ∀ w, (d.s.conns w).paused = false

/-- what endpoint `x` sent, as the other end has it on connection `k`: in order, whole before the
end of file, which comes only after the half-close -/
structure Reaches (x : Endpoint) (k : Tcp) : Prop where
  order : rawOf k.out <+: x.wrote
  eof : k.wEof = true → rawOf k.out = x.wrote ∧ x.shut ≠ .no

structure Intact : Prop where
  /-- nothing was torn down: both directions go on -/
  listed : d.s.listed = true
  there : ∀ c, d.s.joiner = some c → Reaches d.o (d.s.conns (.joinee c))
  back : Reaches d.j (d.s.conns .opener)
  /-- and in the end everything is there, the end of file included -/
  rest : d.AtRest → d.bridged = true → ∃ c, d.s.joiner = some c ∧
    rawOf (d.s.conns (.joinee c)).out = d.o.wrote ∧
    rawOf (d.s.conns .opener).out = d.j.wrote ∧
    (d.o.shut ≠ .no → (d.s.conns (.joinee c)).wEof = true) ∧
    (d.j.shut ≠ .no → (d.s.conns .opener).wEof = true)

/-- the condition on a step -/
def Behind : Act → Prop
  | .stshut .opener => d.s.joiner ≠ none ∧ d.o.flight = [] ∧ (d.s.conns .opener).inb = []
  | .stshut .joinee => d.s.dest_node ≠ d.s.opener_node ∧
      (d.j.wrote = [] ∨
        d.j.flight = [] ∧ ∀ c ∈ d.s.joiner, (d.s.conns (.joinee c)).inb = [])
  | _ => True

instance (l : Act) : Decidable (d.Behind l) := by
  cases l with
  | stshut x => cases x <;> unfold Behind <;> infer_instance
  | _ => unfold Behind; infer_instance

end Duplex

/-! ## a stream on which nothing fails -/

namespace Tcp

structure Calm (k : Tcp) : Prop where
  closing : k.closing = false
  dead : k.dead = false
  lost : k.lost = false
  eof : k.eof = false
  exc : k.exc = none
  wf : k.Wf

/-- nothing but frames were written, and nothing came in -/
structure Idle (k : Tcp) : Prop extends Calm k where
  sent : k.sent = []
  wEof : k.wEof = false
  raw : rawOf k.out = []

theorem idle_fresh : Idle fresh := ⟨⟨rfl, rfl, rfl, rfl, rfl, ⟨nofun, nofun⟩⟩, rfl, rfl, rfl⟩

theorem Wf.paused_of_raw {k : Tcp} (h : k.Wf) (hr : rawOf k.out = []) : k.paused = false := by
  rw [Bool.eq_false_iff]
  exact fun hp => h.backlog (h.paused hp) hr

theorem Calm.gone {k : Tcp} (h : Calm k) : k.gone = false := by
  simp [Tcp.gone, h.closing]

/-- the piece is written; only back-pressure makes the send wait -/
theorem Calm.send {k : Tcp} (h : Calm k) (hw : k.wEof = false) (o : Piece) :
    k.send o = ({ k with out := k.out ++ [o] }, if k.paused then .waits else .ok) := by
  unfold Tcp.send
  simp [hw, h.gone, h.dead, h.exc, h.closing]

theorem Calm.write {k : Tcp} (h : Calm k) (o : Piece) : Calm { k with out := k.out ++ [o] } :=
  ⟨h.closing, h.dead, h.lost, h.eof, h.exc, ⟨h.wf.paused, fun hb => by
    rw [rawOf_append]
    exact List.append_ne_nil_of_left_ne_nil (h.wf.backlog hb) _⟩⟩

theorem Calm.carried {x : Bytes} {k : Tcp} (h : Calm k) (hw : k.wEof = false) (hc : Carried x k) :
    rawOf k.out = x := by
  rcases hc with hc | ⟨hs | hs, -⟩
  · exact hc
  · exact absurd (h.gone.symm.trans hs) (by decide)
  · exact absurd (hw.symm.trans hs) (by decide)

/-- what the relay's own steps leave of a connection: they take from the buffer, and they write raw
bytes only before the end of file -/
structure Still (k k' : Tcp) : Prop where
  sent : k'.sent = k.sent
  wEof : k'.wEof = k.wEof
  inb : k.inb = [] → k'.inb = []
  raw : k.wEof = true → rawOf k'.out = rawOf k.out

theorem still_refl (k : Tcp) : Still k k := ⟨rfl, rfl, fun h => h, fun _ => rfl⟩

theorem Still.trans {k k' k'' : Tcp} (h : Still k k') (h' : Still k' k'') : Still k k'' :=
  ⟨h'.sent.trans h.sent, h'.wEof.trans h.wEof, fun hi => h'.inb (h.inb hi), fun hw =>
    (h'.raw (h.wEof.trans hw)).trans (h.raw hw)⟩

theorem still_frame (k : Tcp) (t : UInt8) (p : Bytes) :
    Still k { k with out := k.out ++ [Piece.frame t p] } :=
  ⟨rfl, rfl, fun h => h, fun _ => by rw [rawOf_append]; exact List.append_nil _⟩

end Tcp

/-- the coroutines of such a stream -/
def Coro.Good : Coro → Prop
  | .timeout | .grant | .early _ | .reading _ | .pipe true .starting => True
  | .pipe true (.running _ a b false) => a ≠ .ended ∧ b ≠ .ended
  | _ => False

namespace Stream
open Tcp

/-- what the steps of such a stream keep; the claims of `hands` are being dealt with right now -/
structure Sound (hands : List Nat) (s : Stream) : Prop where
  listed : s.listed = true
  shut : s.shut_from = false
  ready : s.state ≠ .joined
  fresh : s.state = .opened → s.joiner = none
  opener : Calm (s.conns .opener)
  early : s.state = .opened → (s.conns .opener).wEof = false ∧ rawOf (s.conns .opener).out = []
  joiner : ∀ c, s.joiner = some c → Calm (s.conns (.joinee c)) ∧ c ∈ s.joined ∧ c ∉ hands ∧
    c ∉ s.claims.map Prod.fst
  spare : ∀ c, c ∈ hands ∨ c ∈ s.claims.map Prod.fst ∨ c ∉ s.joined →
    Idle (s.conns (.joinee c))
  joined : ∀ c, c ∈ hands ∨ c ∈ s.claims.map Prod.fst → c ∈ s.joined
  nodup : (hands ++ s.claims.map Prod.fst).Nodup
  nodes : ∀ x ∈ s.claims, x.2 ≠ 0 ∧ (s.state = .opened → s.dest_node = 0 ∨ x.2 = s.dest_node)
  dest : s.state ≠ .opened → s.dest_node ≠ 0
  good : ∀ t ∈ s.coros, t.Good
  alive : s.state ≠ .opened → ∃ t ∈ s.coros, t.isChain = true

/-- the relay's own steps, seen by the endpoints -/
structure Kin (s s' : Stream) : Prop where
  sid : s'.sid = s.sid
  conns : ∀ w, Still (s.conns w) (s'.conns w)
  keep : ∀ c, s.joiner = some c → s'.joiner = some c
  new : ∀ c, s'.joiner = some c → s.joiner = some c ∨
    s.joiner = none ∧ (s'.conns (.joinee c)).sent = [] ∧ (s'.conns (.joinee c)).wEof = false

variable {s : Stream} {hands : List Nat}

theorem kin_refl (s : Stream) : Kin s s :=
  ⟨rfl, fun _ => still_refl _, fun _ h => h, fun _ h => Or.inl h⟩

/-- steps that leave the joiner alone -/
theorem kin_of {u : Stream} (hs : u.sid = s.sid) (hj : u.joiner = s.joiner)
    (hk : ∀ w, Still (s.conns w) (u.conns w)) : Kin s u :=
  ⟨hs, hk, fun _ hc => hj.trans hc, fun _ hc => Or.inl (hj.symm.trans hc)⟩

theorem Kin.trans {u v : Stream} (h : Kin s u) (h' : Kin u v) : Kin s v where
  sid := h'.sid.trans h.sid
  conns w := (h.conns w).trans (h'.conns w)
  keep c hc := h'.keep c (h.keep c hc)
  new c hc := by
    rcases h'.new c hc with h1 | ⟨h1, h2, h3⟩
    · rcases h.new c h1 with h2 | ⟨h2, h3, h4⟩
      · exact Or.inl h2
      · exact Or.inr ⟨h2, (h'.conns _).sent.trans h3, (h'.conns _).wEof.trans h4⟩
    · refine Or.inr ⟨?_, h2, h3⟩
      rw [Option.eq_none_iff_forall_ne_some]
      exact fun c' hc' => absurd ((h.keep c' hc').symm.trans h1) (by simp)

theorem still_setConn {w : Who} {k : Tcp} (h : Still (s.conns w) k) (w' : Who) :
    Still (s.conns w') ((s.setConn w k).conns w') := by
  by_cases hw : w' = w
  · subst hw
    rw [setConn_self]
    exact h
  · rw [setConn_other _ hw]
    exact still_refl _

theorem sound_opened (sid o d : Nat) : Sound [] (opened sid o d) where
  listed := rfl
  shut := rfl
  ready := nofun
  fresh _ := rfl
  opener := idle_fresh.toCalm
  early _ := ⟨rfl, rfl⟩
  joiner c h := absurd h (by simp [opened])
  spare _ _ := idle_fresh
  joined c h := by
    rcases h with h | h <;> exact absurd h List.not_mem_nil
  nodup := List.nodup_nil
  nodes x h := absurd h List.not_mem_nil
  dest h := absurd rfl h
  good t h := by
    rw [List.mem_singleton.mp h]
    exact trivial
  alive h := absurd rfl h

/-- a send on a connection that is not held up -/
theorem send_ok {u : Stream} {w : Who} {k : Tcp} {o : Piece} {waits : Stream → Stream}
    {fin : Sent → Stream → Stream} (hk : u.conns w = k) (h : Calm k) (hw : k.wEof = false)
    (hp : k.paused = false) :
    u.send w o waits fin = fin .ok (u.setConn w { k with out := k.out ++ [o] }) := by
  have he : k.send o = ({ k with out := k.out ++ [o] }, .ok) := by
    rw [h.send hw o]
    simp [hp]
  unfold send
  rw [hk, he]

/-- other coroutines -/
theorem Sound.coros (h : Sound hands s) {l : List Coro} (hg : ∀ t ∈ l, t.Good)
    (ha : s.state ≠ .opened → ∃ t ∈ l, t.isChain = true) : Sound hands { s with coros := l } :=
  ⟨h.listed, h.shut, h.ready, h.fresh, h.opener, h.early, h.joiner, h.spare, h.joined, h.nodup,
    h.nodes, h.dest, hg, ha⟩

/-- a joinee that lost is of no more interest -/
theorem Sound.setConn_loser (h : Sound hands s) {c : Nat} (hc : c ∈ s.joined) (hh : c ∉ hands)
    (hm : c ∉ s.claims.map Prod.fst) (hj : s.joiner ≠ some c) (k : Tcp) :
    Sound hands (s.setConn (.joinee c) k) := by
  have hne : ∀ c', c' ≠ c → (s.setConn (.joinee c) k).conns (.joinee c') = s.conns (.joinee c') :=
    fun c' hc' => setConn_other _ (by simpa using hc') _
  have ho : (s.setConn (.joinee c) k).conns .opener = s.conns .opener := setConn_other _ (by simp) _
  refine ⟨h.listed, h.shut, h.ready, h.fresh, ?_, ?_, ?_, ?_, h.joined, h.nodup, h.nodes, h.dest,
    h.good, h.alive⟩
  · rw [ho]
    exact h.opener
  · rw [ho]
    exact h.early
  · intro c' hc'
    have hcc : c' ≠ c := fun he => hj (by rw [← he]; exact hc')
    rw [hne c' hcc]
    exact h.joiner c' hc'
  · intro c' hc'
    have hcc : c' ≠ c := by
      rintro rfl
      rcases hc' with h1 | h1 | h1
      · exact hh h1
      · exact hm h1
      · exact h1 hc
    rw [hne c' hcc]
    exact h.spare c' hc'

theorem confirm_eq {u : Stream} {k : Tcp} (hk : u.conns .opener = k) (h : Calm k)
    (hw : k.wEof = false) (hp : k.paused = false) (c : Nat) :
    u.confirm c = ({ u with state := .ready }.setConn .opener
      { k with out := k.out ++ [u.stok] }).spawn (.early c) := by
  unfold confirm
  dsimp only
  rw [send_ok (u := { u with state := .ready }) hk h hw hp, if_pos rfl]
  rfl

/-- the claim goes through at once: both ends are told, and the handshake goes on -/
theorem claim_eq (h : Sound hands s) {c : Nat} (hi : Idle (s.conns (.joinee c)))
    (ho : s.state = .opened) {node : Nat} {u : Stream} (hu : u = { s with
      joiner := some c
      state := .joined
      dest_node := if s.dest_node = 0 then node else s.dest_node }) :
    s.claim c node = ({ u.setConn (.joinee c)
        { s.conns (.joinee c) with out := (s.conns (.joinee c)).out ++ [s.stok] } with
      state := .ready }.setConn .opener
        { s.conns .opener with out := (s.conns .opener).out ++ [s.stok] }).spawn (.early c) := by
  obtain ⟨he, hr⟩ := h.early ho
  have h1 : s.claim c node = u.send (.joinee c) s.stok (fun s => s.spawn (.stokJoiner c))
      fun r s => if r = .ok then s.confirm c else s.fail false .NO_ROUTE := by
    unfold Stream.claim
    dsimp only
    rw [if_neg (by simp [h.shut]), hu]
    rfl
  have hc : u.conns (.joinee c) = s.conns (.joinee c) := by rw [hu]
  have hoc : ∀ k, (u.setConn (.joinee c) k).conns .opener = s.conns .opener := by
    intro k
    rw [setConn_other _ (by simp), hu]
  rw [h1, send_ok hc hi.toCalm hi.wEof (hi.wf.paused_of_raw hi.raw), if_pos rfl,
    confirm_eq (hoc _) h.opener he (h.opener.wf.paused_of_raw hr), hu]
  rfl

theorem Sound.claim {c : Nat} (h : Sound [c] s) (ho : s.state = .opened) {node : Nat}
    (hn : node ≠ 0) : Sound [] (s.claim c node) ∧ Kin s (s.claim c node) := by
  have hi := h.spare c (Or.inl List.mem_cons_self)
  have hj := h.fresh ho
  have hv : s.claim c node = _ := claim_eq h hi ho rfl
  have hvo : (s.claim c node).conns .opener =
      { s.conns .opener with out := (s.conns .opener).out ++ [s.stok] } := by
    rw [hv, spawn_conns]
    exact setConn_self ..
  have hvj : (s.claim c node).conns (.joinee c) =
      { s.conns (.joinee c) with out := (s.conns (.joinee c)).out ++ [s.stok] } := by
    rw [hv, spawn_conns, setConn_other _ (by simp)]
    exact setConn_self ..
  have hvn : ∀ c', c' ≠ c → (s.claim c node).conns (.joinee c') = s.conns (.joinee c') := by
    intro c' hc'
    rw [hv, spawn_conns, setConn_other _ (by simp)]
    exact setConn_other _ (by simpa using hc') _
  have hjoiner : (s.claim c node).joiner = some c := by rw [hv]; rfl
  have hclaims : (s.claim c node).claims = s.claims := by rw [hv]; rfl
  have hjoined : (s.claim c node).joined = s.joined := by rw [hv]; rfl
  have hstate : (s.claim c node).state = .ready := by rw [hv]; rfl
  have hcoros : (s.claim c node).coros = s.coros ++ [Coro.early c] := by rw [hv]; rfl
  have hdest : (s.claim c node).dest_node = if s.dest_node = 0 then node else s.dest_node := by
    rw [hv]
    rfl
  refine ⟨⟨by rw [hv]; exact h.listed, by rw [hv]; exact h.shut, ?_, ?_, ?_, ?_, ?_, ?_, ?_, ?_, ?_,
    ?_, ?_, ?_⟩, by rw [hv]; rfl, ?_, ?_, ?_⟩
  · rw [hstate]
    decide
  · rw [hstate]
    exact nofun
  · rw [hvo]
    exact h.opener.write _
  · rw [hstate]
    exact nofun
  · intro c' hc'
    obtain rfl := Option.some.inj (hjoiner.symm.trans hc')
    rw [hvj, hclaims, hjoined]
    exact ⟨hi.toCalm.write _, h.joined c (Or.inl List.mem_cons_self), List.not_mem_nil,
      (List.nodup_cons.mp h.nodup).1⟩
  · rw [hclaims, hjoined]
    intro c' hc'
    have hcc : c' ≠ c := by
      rintro rfl
      rcases hc' with h1 | h1 | h1
      · exact absurd h1 List.not_mem_nil
      · exact (List.nodup_cons.mp h.nodup).1 h1
      · exact h1 (h.joined c' (Or.inl List.mem_cons_self))
    rw [hvn c' hcc]
    exact h.spare c' (hc'.imp_left fun h1 => absurd h1 List.not_mem_nil)
  · rw [hclaims, hjoined]
    exact fun c' hc' => h.joined c' (hc'.imp_left fun h1 => absurd h1 List.not_mem_nil)
  · rw [hclaims]
    exact (List.nodup_cons.mp h.nodup).2
  · rw [hclaims, hstate]
    exact fun x hx => ⟨(h.nodes x hx).1, nofun⟩
  · intro _
    rw [hdest]
    split
    · exact hn
    · assumption
  · rw [hcoros]
    intro t ht
    rcases List.mem_append.mp ht with ht | ht
    · exact h.good t ht
    · rw [List.mem_singleton.mp ht]
      exact trivial
  · rw [hcoros]
    exact fun _ => ⟨_, List.mem_append_right _ List.mem_cons_self, rfl⟩
  · intro w
    cases w with
    | opener =>
      rw [hvo]
      exact still_frame _ _ _
    | joinee c' =>
      by_cases hc' : c' = c
      · rw [hc', hvj]
        exact still_frame _ _ _
      · rw [hvn c' hc']
        exact still_refl _
  · exact fun c' hc' => absurd hc' (by simp [hj])
  · intro c' hc'
    obtain rfl := Option.some.inj (hjoiner.symm.trans hc')
    rw [hvj]
    exact Or.inr ⟨hj, hi.sent, hi.wEof⟩

/-- the node that claims is the one that was asked -/
def Asked (s : Stream) (node : Nat) : Prop :=
  node ≠ 0 ∧ (s.dest_node = 0 ∨ node = s.dest_node)

theorem Sound._grant_claim {c : Nat} (h : Sound [c] s) (ho : s.state = .opened) {node : Nat}
    (hn : s.Asked node) : Sound [] (s._grant_claim c node) ∧ Kin s (s._grant_claim c node) := by
  unfold Stream._grant_claim
  rw [if_neg (fun hx => hn.2.elim hx.1 hx.2)]
  exact h.claim ho hn.1

/-- connections in hand are let go -/
theorem Sound.fewer {l l' : List Nat} (h : Sound l s) (hl : l'.Sublist l) : Sound l' s := by
  refine ⟨h.listed, h.shut, h.ready, h.fresh, h.opener, h.early, fun c hc => ?_,
    fun c hc => h.spare c (hc.imp_left fun hx => hl.subset hx),
    fun c hc => h.joined c (hc.imp_left fun hx => hl.subset hx),
    (hl.append_right _).nodup h.nodup, h.nodes, h.dest, h.good, h.alive⟩
  obtain ⟨h1, h2, h3, h4⟩ := h.joiner c hc
  exact ⟨h1, h2, fun hx => h3 (hl.subset hx), h4⟩

/-- a refusal goes out at once, and the connection is closed -/
def refused (s : Stream) (c : Nat) : Stream :=
  (s.setConn (.joinee c)
    { s.conns (.joinee c) with out := (s.conns (.joinee c)).out ++ [s.stfail .BUSY] }).close
    (.joinee c)

theorem Sound.refused (h : Sound hands s) {c : Nat} (hc : c ∈ s.joined) (hh : c ∉ hands)
    (hm : c ∉ s.claims.map Prod.fst) (hj : s.joiner ≠ some c) :
    Sound hands (s.refused c) ∧ Kin s (s.refused c) := by
  refine ⟨(h.setConn_loser hc hh hm hj _).setConn_loser hc hh hm hj _, kin_of rfl rfl fun w => ?_⟩
  refine (still_setConn (still_frame _ _ _) w).trans (still_setConn ?_ w)
  exact ⟨rfl, rfl, fun h => h, fun _ => rfl⟩

theorem Sound.busyRound (win : StClaim) (rest : List StClaim) (s : Stream)
    (h : Sound (win.1 :: rest.map Prod.fst) s) (ho : s.state = .opened) (hn : s.Asked win.2) :
    Sound [] (s.busyRound win rest) ∧ Kin s (s.busyRound win rest) := by
  induction rest generalizing s with
  | nil => exact h._grant_claim ho hn
  | cons l rest ih =>
    have hi := h.spare l.1 (Or.inl (by simp))
    have hperm : (l.1 :: win.1 :: (rest.map Prod.fst ++ s.claims.map Prod.fst)).Nodup :=
      (List.Perm.swap _ _ _).nodup_iff.mp h.nodup
    have hl := (List.nodup_cons.mp hperm).1
    have hj := h.fresh ho
    -- the loser is out of hand
    have h' : Sound (win.1 :: rest.map Prod.fst) s :=
      h.fewer ((List.sublist_cons_self l.1 _).cons_cons win.1)
    obtain ⟨h1, hk1⟩ := h'.refused (c := l.1) (h.joined l.1 (Or.inl (by simp)))
      (fun hm => hl (by rw [← List.cons_append]; exact List.mem_append_left _ hm))
      (fun hm => hl (List.mem_cons_of_mem _ (List.mem_append_right _ hm))) (by simp [hj])
    obtain ⟨h2, hk2⟩ := ih (s.refused l.1) h1 ho hn
    unfold Stream.busyRound
    rw [send_ok rfl hi.toCalm hi.wEof (hi.wf.paused_of_raw hi.raw)]
    exact ⟨h2, hk1.trans hk2⟩

theorem Sound._implicit_grant (h : Sound [] s) :
    Sound [] s._implicit_grant ∧ Kin s s._implicit_grant := by
  unfold Stream._implicit_grant
  split
  · exact ⟨h, kin_refl s⟩
  · rename_i hx
    have ho : s.state = .opened := by
      have hx' : s.listed = true ∧ s.state = .opened := by simpa using hx
      exact hx'.2
    have hperm : (s.ranked s.claims).Perm s.claims := List.perm_insertionSort ..
    have hj := h.fresh ho
    have h1 : Sound ((s.ranked s.claims).map Prod.fst)
        { s with claims := [], grant_task := false } := by
      have hm : ∀ c, c ∈ (s.ranked s.claims).map Prod.fst ↔ c ∈ s.claims.map Prod.fst :=
        fun c => (hperm.map Prod.fst).mem_iff
      have hnil : ∀ c, c ∈ (([] : List StClaim).map Prod.fst : List Nat) → False :=
        fun c hc => absurd hc List.not_mem_nil
      refine ⟨h.listed, h.shut, h.ready, h.fresh, h.opener, h.early,
        fun c hc => absurd hc (by simp [hj]), fun c hc => h.spare c ?_, fun c hc => h.joined c ?_,
        ?_, fun x hx => absurd hx List.not_mem_nil, h.dest, h.good, h.alive⟩
      · rcases hc with hc | hc | hc
        · exact Or.inr (Or.inl ((hm c).mp hc))
        · exact (hnil c hc).elim
        · exact Or.inr (Or.inr hc)
      · rcases hc with hc | hc
        · exact Or.inr ((hm c).mp hc)
        · exact (hnil c hc).elim
      · show (_ ++ []).Nodup
        rw [List.append_nil]
        exact (hperm.map Prod.fst).nodup_iff.mpr h.nodup
    have hk : Kin s { s with claims := [], grant_task := false } := kin_of rfl rfl fun _ => still_refl _
    dsimp only
    split
    · rename_i hr
      rw [hr] at h1
      exact ⟨h1, hk⟩
    · rename_i win losers hr
      rw [hr] at h1 hperm
      have hn := h.nodes win (hperm.mem_iff.mp List.mem_cons_self)
      obtain ⟨h2, hk2⟩ := Sound.busyRound win losers _ h1 ho ⟨hn.1, hn.2 ho⟩
      exact ⟨h2, hk.trans hk2⟩

/-- a connection that joins is known from now on, and in hand -/
theorem Sound.known (h : Sound [] s) {c : Nat} (hc : c ∉ s.joined) :
    Sound [c] { s with joined := c :: s.joined } := by
  have hm : c ∉ s.claims.map Prod.fst := fun hm => hc (h.joined c (Or.inr hm))
  refine ⟨h.listed, h.shut, h.ready, h.fresh, h.opener, h.early, fun c' hc' => ?_, fun c' hc' => ?_,
    fun c' hc' => ?_, List.nodup_cons.mpr ⟨hm, h.nodup⟩, h.nodes, h.dest, h.good, h.alive⟩
  · obtain ⟨h1, h2, -, h4⟩ := h.joiner c' hc'
    refine ⟨h1, List.mem_cons_of_mem c h2, fun hx => ?_, h4⟩
    apply hc
    rw [← List.mem_singleton.mp hx]
    exact h2
  · rcases hc' with h2 | h2 | h2
    · rw [List.mem_singleton.mp h2]
      exact h.spare c (Or.inr (Or.inr hc))
    · exact h.spare c' (Or.inr (Or.inl h2))
    · exact h.spare c' (Or.inr (Or.inr fun h3 => h2 (List.mem_cons_of_mem c h3)))
  · rcases hc' with h2 | h2
    · rw [List.mem_singleton.mp h2]
      exact List.mem_cons_self
    · exact List.mem_cons_of_mem c (h.joined c' (Or.inr h2))

/-- the claim of a connection in hand is parked until the grace window ends -/
theorem Sound.parked {c : Nat} (h : Sound [c] s) (ho : s.state = .opened) {node : Nat}
    (hn : node ≠ 0) (ha : s.Asked node) {g : Bool} {l : List Coro} (hl : ∀ t ∈ l, t.Good) :
    Sound [] { s with claims := s.claims ++ [(c, node)], grant_task := g, coros := l } := by
  have hmem : ∀ c', c' ∈ (s.claims ++ [(c, node)]).map Prod.fst ↔
      c' ∈ s.claims.map Prod.fst ∨ c' = c := by
    intro c'
    simp
  refine ⟨h.listed, h.shut, h.ready, h.fresh, h.opener, h.early,
    fun c' hc' => absurd hc' (by simp [h.fresh ho]), fun c' hc' => h.spare c' ?_,
    fun c' hc' => h.joined c' ?_, ?_, fun x hx => ?_, h.dest, hl, fun hf => absurd ho hf⟩
  · rcases hc' with hx | hx | hx
    · exact absurd hx List.not_mem_nil
    · rcases (hmem c').mp hx with hx | rfl
      · exact Or.inr (Or.inl hx)
      · exact Or.inl List.mem_cons_self
    · exact Or.inr (Or.inr hx)
  · rcases hc' with hx | hx
    · exact absurd hx List.not_mem_nil
    · rcases (hmem c').mp hx with hx | rfl
      · exact Or.inr hx
      · exact Or.inl List.mem_cons_self
  · obtain ⟨hm, hnd⟩ := List.nodup_cons.mp h.nodup
    show ((s.claims ++ [(c, node)]).map Prod.fst).Nodup
    rw [List.map_append, List.map_singleton]
    exact List.Nodup.append hnd (List.nodup_singleton c)
      (by simpa [List.disjoint_singleton] using hm)
  · rcases List.mem_append.mp hx with hx | hx
    · exact h.nodes x hx
    · rw [List.mem_singleton.mp hx]
      exact ⟨hn, fun _ => ha.2⟩

theorem Sound.join (h : Sound [] s) {c : Nat} (hc : c ∉ s.joined) {node : Nat} (hn : node ≠ 0)
    (ha : s.state = .opened → s.Asked node) : Sound [] (s.join c node) ∧ Kin s (s.join c node) := by
  have hi := h.spare c (Or.inr (Or.inr hc))
  have hm : c ∉ s.claims.map Prod.fst := fun hm => hc (h.joined c (Or.inr hm))
  have hj : s.joiner ≠ some c := fun hj => hc (h.joiner c hj).2.1
  have hk : Kin s { s with joined := c :: s.joined } := kin_of rfl rfl fun _ => still_refl _
  have h1 := h.known hc
  unfold Stream.join
  dsimp only
  split
  · obtain ⟨h3, hk3⟩ := (h1.fewer (List.nil_sublist _)).refused (c := c) List.mem_cons_self List.not_mem_nil hm hj
    rw [send_ok (u := { s with joined := c :: s.joined }) rfl hi.toCalm hi.wEof
      (hi.wf.paused_of_raw hi.raw)]
    exact ⟨h3, hk.trans hk3⟩
  · rename_i ho
    have ho' : s.state = .opened := not_not.mp ho
    split
    · split
      · exact ⟨h1.parked ho' hn (ha ho') h.good, kin_of rfl rfl fun _ => still_refl _⟩
      · refine ⟨h1.parked ho' hn (ha ho') (l := s.coros ++ [Coro.grant]) fun t ht => ?_,
          kin_of rfl rfl fun _ => still_refl _⟩
        rcases List.mem_append.mp ht with ht | ht
        · exact h.good t ht
        · rw [List.mem_singleton.mp ht]
          exact trivial
    · obtain ⟨h2, hk2⟩ := h1._grant_claim ho' (ha ho')
      exact ⟨h2, hk.trans hk2⟩

/-- the connection of an endpoint changes and stays in order -/
theorem Sound.setConn (h : Sound hands s) {w : Who}
    (hw : w = .opener ∨ ∃ c, w = .joinee c ∧ s.joiner = some c) {k : Tcp} (hk : Calm k)
    (he : s.state = .opened → k.wEof = false ∧ rawOf k.out = []) :
    Sound hands (s.setConn w k) := by
  have hcalm : ∀ w', Calm (s.conns w') → Calm ((s.setConn w k).conns w') := by
    intro w' hw'
    by_cases hx : w' = w
    · rw [hx, setConn_self]
      exact hk
    · rw [setConn_other _ hx]
      exact hw'
  refine ⟨h.listed, h.shut, h.ready, h.fresh, hcalm _ h.opener, ?_, ?_, ?_, h.joined, h.nodup,
    h.nodes, h.dest, h.good, h.alive⟩
  · intro ho
    rcases hw with rfl | ⟨c, -, hj⟩
    · rw [setConn_self]
      exact he ho
    · exact absurd ((h.fresh ho).symm.trans hj) (by simp)
  · intro c hc
    obtain ⟨h1, h2⟩ := h.joiner c hc
    exact ⟨hcalm _ h1, h2⟩
  · intro c' hc'
    rw [setConn_other]
    · exact h.spare c' hc'
    · rcases hw with rfl | ⟨c, rfl, hj⟩
      · simp
      · rintro heq
        obtain ⟨-, h1, h2, h3⟩ := h.joiner c hj
        rw [Who.joinee.inj heq] at hc'
        rcases hc' with hx | hx | hx
        · exact h2 hx
        · exact h3 hx
        · exact hx h1

/-- the kernel takes bytes from a connection, or holds them up -/
theorem Sound.buffer (h : Sound hands s) {w : Who} {b p : Bool} {k : Tcp}
    (hk : (s.conns w).net (.buffer b p) = some k) :
    Sound hands (s.setConn w k) ∧ Kin s (s.setConn w k) := by
  have hwf := (grows_net hk).wf
  obtain ⟨-, hk⟩ := Option.ite_none_left_eq_some.mp hk
  have hstill : Still (s.conns w) k := by
    rw [← Option.some.inj hk]
    exact ⟨rfl, rfl, fun h => h, fun _ => rfl⟩
  have hcalm : ∀ w', Calm (s.conns w') → Calm ((s.setConn w k).conns w') := by
    intro w' hw'
    by_cases hx : w' = w
    · rw [hx] at hw' ⊢
      rw [setConn_self]
      refine ⟨?_, ?_, ?_, ?_, ?_, hwf hw'.wf⟩ <;> rw [← Option.some.inj hk]
      exacts [hw'.closing, hw'.dead, hw'.lost, hw'.eof, hw'.exc]
    · rw [setConn_other _ hx]
      exact hw'
  have hout : ∀ w', ((s.setConn w k).conns w').out = (s.conns w').out := by
    intro w'
    by_cases hx : w' = w
    · rw [hx, setConn_self, ← Option.some.inj hk]
    · rw [setConn_other _ hx]
  have hkin := still_setConn (s := s) hstill
  refine ⟨⟨h.listed, h.shut, h.ready, h.fresh, hcalm _ h.opener, ?_, ?_, ?_, h.joined, h.nodup,
    h.nodes, h.dest, h.good, h.alive⟩, kin_of rfl rfl hkin⟩
  · intro ho
    rw [(hkin .opener).wEof, hout]
    exact h.early ho
  · intro c hc
    obtain ⟨h1, h2⟩ := h.joiner c hc
    exact ⟨hcalm _ h1, h2⟩
  · intro c hc
    have hi := h.spare c hc
    refine ⟨hcalm _ hi.toCalm, ?_, ?_, ?_⟩
    · rw [(hkin _).sent]
      exact hi.sent
    · rw [(hkin _).wEof]
      exact hi.wEof
    · rw [hout]
      exact hi.raw

/-- a coroutine that is not of the claim ends -/
theorem Sound.without (h : Sound [] s) {i : Nat} {t : Coro} (ht : s.coros[i]? = some t)
    (hn : t.isChain = false) : Sound [] (s.without i) := by
  have hp := coros_perm ht
  refine h.coros (fun u hu => h.good u (hp.mem_iff.mpr (List.mem_cons_of_mem _ hu))) fun hst => ?_
  obtain ⟨u, hu, hch⟩ := h.alive hst
  rcases List.mem_cons.mp (hp.mem_iff.mp hu) with rfl | hu
  · exact absurd (hn.symm.trans hch) (by decide)
  · exact ⟨u, hu, hch⟩

/-- the claim goes on with its next coroutine -/
theorem Sound.next (h : Sound [] s) {i : Nat} {t u : Coro} (ht : s.coros[i]? = some t)
    (hg : u.Good) (hc : u.isChain = true) : Sound [] ((s.without i).spawn u) := by
  have hp := coros_perm ht
  refine h.coros (fun v hv => ?_) fun _ => ⟨u, List.mem_append_right _ List.mem_cons_self, hc⟩
  rcases List.mem_append.mp hv with hv | hv
  · exact h.good v (hp.mem_iff.mpr (List.mem_cons_of_mem _ hv))
  · rw [List.mem_singleton.mp hv]
    exact hg

/-- what is not of the claim survives its cancelling, or was asleep -/
theorem good_cancel {t u : Coro} (hg : t.Good) (hn : t.isChain = false) (hu : t.cancel = some u) :
    u.Good := by
  cases t with
  | timeout => exact absurd hu (by simp [Coro.cancel])
  | grant =>
    rw [← Option.some.inj hu]
    exact trivial
  | early c => exact absurd hn (by simp [Coro.isChain])
  | reading c => exact absurd hn (by simp [Coro.isChain])
  | pipe task pc => exact absurd hn (by simp [Coro.isChain])
  | _ => exact absurd hg (by simp [Coro.Good])

theorem readFrame_more {c : Nat} (hx : (s.conns (.joinee c)).exc = none)
    (hm : tcpRead (s.conns (.joinee c)).inb = .more) (he : (s.conns (.joinee c)).eof = false) :
    s.readFrame c = none := by
  unfold Stream.readFrame
  dsimp only
  rw [hx]
  dsimp only
  rw [hm]
  exact if_neg (by simp [he])

theorem readFrame_frame {c : Nat} {t : UInt8} {p rest : Bytes}
    (hx : (s.conns (.joinee c)).exc = none)
    (hf : tcpRead (s.conns (.joinee c)).inb = .frame t p rest) :
    s.readFrame c =
      some ((s.setConn (.joinee c) { s.conns (.joinee c) with inb := rest }).handshake c t p) := by
  unfold Stream.readFrame
  dsimp only
  rw [hx]
  dsimp only
  rw [hf]

/-- a coroutine of such a stream goes on -/
theorem Sound.wake (h : Sound [] s) (hc : Clear s) {i : Nat} {t : Coro} {s' : Stream}
    (ht : s.coros[i]? = some t) (htime : t = .timeout → s.state = .ready)
    (hread : ∀ c, s.joiner = some c → tcpRead (s.conns (.joinee c)).sent = .more ∨
      ∃ p rest, tcpRead (s.conns (.joinee c)).sent = .frame T_STJOINED p rest)
    (hs : (s.without i).resume t = some s') : Sound [] s' ∧ Kin s s' := by
  have hg := h.good t (List.mem_of_getElem? ht)
  have hphase := hc.phase t (List.mem_of_getElem? ht)
  have hkin : Kin s (s.without i) := kin_of rfl rfl fun _ => still_refl _
  have hspawn : ∀ u : Coro, Kin s ((s.without i).spawn u) := fun _ =>
    kin_of rfl rfl fun _ => still_refl _
  cases t with
  | timeout =>
    have hr : (s.without i).state = .ready := htime rfl
    simp only [resume, hr] at hs
    rw [if_neg (by simp), Option.some.injEq] at hs
    rw [← hs]
    exact ⟨h.without ht rfl, hkin⟩
  | grant =>
    rw [← Option.some.inj hs]
    obtain ⟨h1, h2⟩ := (h.without ht rfl)._implicit_grant
    exact ⟨h1, hkin.trans h2⟩
  | early c =>
    rw [← Option.some.inj hs]
    exact ⟨h.next ht trivial rfl, hspawn _⟩
  | reading c =>
    obtain ⟨hr, hj, -, -, hu⟩ := hphase
    have hcalm := (h.joiner c hj).1
    have hrest := (hc.without ht).2 rfl
    rcases hread c hj with hm | ⟨p, rest, hf⟩
    · rw [← hu.inb] at hm
      exact absurd (hs.symm.trans (readFrame_more (s := s.without i) hcalm.exc hm hcalm.eof)) (by simp)
    · rw [← hu.inb] at hf
      have hs' := hs.symm.trans (readFrame_frame (s := s.without i) hcalm.exc hf)
      have hnil : (s.conns (.joinee c)).inb ≠ [] := by
        intro he
        rw [he, show tcpRead [] = .more from rfl] at hf
        exact absurd hf (by simp)
      have h1 := h.setConn (Or.inr ⟨c, rfl, hj⟩) (k := { s.conns (.joinee c) with inb := rest })
        ⟨hcalm.closing, hcalm.dead, hcalm.lost, hcalm.eof, hcalm.exc, ⟨hcalm.wf.1, hcalm.wf.2⟩⟩
        fun ho => absurd (ho.symm.trans hr) (by decide)
      have hl : ∀ u ∈ (s.without i).coros.filterMap Coro.cancel ++ [Coro.pipe true .starting], u.Good := by
        intro u hu
        rcases List.mem_append.mp hu with hu | hu
        · obtain ⟨t, htm, htc⟩ := List.mem_filterMap.mp hu
          have hn := List.countP_eq_zero.mp hrest.1 t htm
          refine good_cancel (h.good t ?_) (Bool.eq_false_iff.mpr hn) htc
          exact (coros_perm ht).mem_iff.mpr (List.mem_cons_of_mem _ htm)
        · rw [List.mem_singleton.mp hu]
          exact trivial
      have h2 := h1.coros hl fun _ => ⟨_, List.mem_append_right _ List.mem_cons_self, rfl⟩
      rw [Option.some.inj hs', handshake, if_pos rfl]
      have hst : Still (s.conns (.joinee c)) { s.conns (.joinee c) with inb := rest } :=
        ⟨rfl, rfl, fun he => absurd he hnil, fun _ => rfl⟩
      exact ⟨h2, kin_of rfl rfl (still_setConn hst)⟩
  | pipe task pc =>
    cases pc with
    | starting =>
      cases task with
      | false => exact absurd hg (by simp [Coro.Good])
      | true =>
        obtain ⟨c, hr, hj, -⟩ := hphase
        have hx : ((s.without i).listed && (s.without i).state == .ready) = true := by
          show (s.listed && s.state == .ready) = true
          rw [h.listed, hr]
          rfl
        have hj' : (s.without i).joiner = some c := hj
        simp only [resume, hx, if_true, hj', Option.some.injEq] at hs
        rw [← hs]
        exact ⟨h.next ht ⟨by decide, by decide⟩ rfl, hspawn _⟩
    | running c a b cancelled =>
      cases task <;> cases cancelled
      case true.false =>
        obtain ⟨ha, hb⟩ := hg
        simp [resume, ha, hb] at hs
      all_goals exact absurd hg (by simp [Coro.Good])
    | ending => exact absurd hg (by cases task <;> simp [Coro.Good])
  | _ => exact absurd hg (by simp [Coro.Good])

/-- a pump carries a chunk or goes back to reading; it never fails -/
theorem pump_calm {pc : PumpPc} {r w : Who} (hrw : w ≠ r) (hr : Calm (s.conns r))
    (hw : Calm (s.conns w)) (he : (s.conns w).wEof = true → (s.conns r).inb = []) (hpc : pc ≠ .ended)
    {x : Stream × PumpPc} (hx : s.pump pc r w = some x) :
    x.2 ≠ .ended ∧ (x.1 = s ∨ x.1 = s.carry 65536 r w ∧ (s.conns w).wEof = false) := by
  unfold Stream.pump at hx
  cases pc with
  | ended => exact absurd rfl hpc
  | drain =>
    obtain ⟨y, hy, rfl⟩ := Option.map_eq_some_iff.mp hx
    have hy' : y = .ok := by
      rw [drained, hw.lost] at hy
      rw [if_neg (by decide)] at hy
      exact (Option.some.inj (Option.ite_none_left_eq_some.mp hy).2).symm
    refine ⟨?_, Or.inl rfl⟩
    dsimp only
    rw [if_pos hy']
    decide
  | read =>
    dsimp only at hx
    rw [if_neg (by simp [hr.exc])] at hx
    by_cases hi : (s.conns r).inb = []
    · rw [if_pos hi, if_neg (by simp [hr.eof])] at hx
      exact absurd hx (by simp)
    · rw [if_neg hi] at hx
      have hwe : (s.conns w).wEof = false := Bool.eq_false_iff.mpr fun h => hi (he h)
      rw [setConn_other _ hrw, hw.send hwe] at hx
      rw [← Option.some.inj hx]
      refine ⟨?_, Or.inr ⟨?_, hwe⟩⟩
      · by_cases hp : (s.conns w).paused = true <;> simp [hp]
      · unfold carry
        rw [hw.send hwe]

/-- both ways: the chunk is out of the one buffer and on the other connection -/
theorem Sound.carry (h : Sound [] s) (hst : s.state ≠ .opened) {r w : Who} (hrw : w ≠ r)
    (hr : r = .opener ∨ ∃ c, r = .joinee c ∧ s.joiner = some c)
    (hw : w = .opener ∨ ∃ c, w = .joinee c ∧ s.joiner = some c)
    (hcr : Calm (s.conns r)) (hcw : Calm (s.conns w)) (he : (s.conns w).wEof = false) (n : Nat) :
    Sound [] (s.carry n r w) ∧ Kin s (s.carry n r w) := by
  have hx := hcw.send he (.raw ((s.conns r).inb.take n))
  have h1 := h.setConn hr (k := { s.conns r with inb := (s.conns r).inb.drop n })
    ⟨hcr.closing, hcr.dead, hcr.lost, hcr.eof, hcr.exc, ⟨hcr.wf.1, hcr.wf.2⟩⟩
    fun ho => absurd ho hst
  unfold Stream.carry
  rw [hx]
  refine ⟨h1.setConn hw (hcw.write _) fun ho => absurd ho hst, kin_of rfl rfl fun v => ?_⟩
  refine (still_setConn (s := s) (k := { s.conns r with inb := (s.conns r).inb.drop n }) (w := r)
    ⟨rfl, rfl, fun hi => ?_, fun _ => rfl⟩ v).trans (still_setConn ?_ v)
  · show (s.conns r).inb.drop n = []
    rw [hi, List.drop_nil]
  · rw [setConn_other _ hrw]
    exact ⟨rfl, rfl, fun hi => hi, fun hf => absurd (he.symm.trans hf) (by decide)⟩

theorem Sound.pumpStep (h : Sound [] s) (hc : Clear s) {i : Nat} {back : Bool} {s' : Stream}
    (ht : ∀ c, s.joiner = some c → (s.conns (.joinee c)).wEof = true → (s.conns .opener).inb = [])
    (hb : ∀ c, s.Won c Piping → (s.conns .opener).wEof = true → (s.conns (.joinee c)).inb = [])
    (hs : s.pumpStep i back = some s') : Sound [] s' ∧ Kin s s' := by
  unfold Stream.pumpStep at hs
  split at hs
  · rename_i task c a b cancelled hi
    have hg := h.good _ (List.mem_of_getElem? hi)
    have hwon : s.Won c Piping := hc.phase _ (List.mem_of_getElem? hi)
    have hj := hwon.2.1
    have hst : s.state ≠ .opened := by rw [hwon.1]; decide
    obtain ⟨hcj, -⟩ := h.joiner c hj
    have hgood : task = true ∧ cancelled = false ∧ a ≠ .ended ∧ b ≠ .ended := by
      cases task <;> cases cancelled
      case true.false => exact ⟨rfl, rfl, hg.1, hg.2⟩
      all_goals exact absurd hg (by simp [Coro.Good])
    obtain ⟨rfl, rfl, ha, hbo⟩ := hgood
    have hlen := (List.getElem?_eq_some_iff.mp hi).1
    -- the pipe is back at its place, as good as before
    have key : ∀ (x : Stream) (p q : PumpPc), Sound [] x → Kin s x → x.coros = s.coros →
        p ≠ .ended → q ≠ .ended →
        Sound [] { x with coros := x.coros.set i (.pipe true (.running c p q false)) } ∧
          Kin s { x with coros := x.coros.set i (.pipe true (.running c p q false)) } := by
      intro x p q hx hk hxc hp hq
      have hperm : (x.coros.set i (.pipe true (.running c p q false))).Perm
          (.pipe true (.running c p q false) :: (s.without i).coros) := by
        rw [hxc]
        exact List.set_perm_cons_eraseIdx hlen _
      refine ⟨hx.coros (fun t hm => ?_) fun _ => ⟨_, hperm.mem_iff.mpr List.mem_cons_self, rfl⟩,
        hk.trans (kin_of rfl rfl fun _ => still_refl _)⟩
      rcases List.mem_cons.mp (hperm.mem_iff.mp hm) with rfl | hm
      · exact ⟨hp, hq⟩
      · exact h.good t ((coros_perm hi).mem_iff.mpr (List.mem_cons_of_mem _ hm))
    split at hs
    · obtain ⟨x, hx, rfl⟩ := Option.map_eq_some_iff.mp hs
      obtain ⟨hp, hx⟩ := pump_calm (by simp) hcj h.opener (hb c hwon) hbo hx
      rcases hx with hx | ⟨hx, he⟩
      · rw [hx]
        exact key s a x.2 h (kin_refl s) rfl ha hp
      · obtain ⟨h1, h2⟩ := h.carry hst (by simp) (Or.inr ⟨c, rfl, hj⟩) (Or.inl rfl) hcj h.opener he
          65536
        rw [hx]
        exact key _ a x.2 h1 h2 rfl ha hp
    · obtain ⟨x, hx, rfl⟩ := Option.map_eq_some_iff.mp hs
      obtain ⟨hp, hx⟩ := pump_calm (by simp) h.opener hcj (ht c hj) ha hx
      rcases hx with hx | ⟨hx, he⟩
      · rw [hx]
        exact key s x.2 b h (kin_refl s) rfl hp hbo
      · obtain ⟨h1, h2⟩ := h.carry hst (by simp) (Or.inl rfl) (Or.inr ⟨c, rfl, hj⟩) h.opener hcj he
          65536
        rw [hx]
        exact key _ x.2 b h1 h2 rfl hp hbo
  · exact absurd hs (by simp)

end Stream

/-! ## the invariant -/

namespace Duplex
open Tcp ShadowLan.Stream

/-- nothing fails, no byte is lost on the way to the relay, and an end of file that the relay has
written is behind everything -/
structure Live (d : Duplex) : Prop where
  clear : d.s.Clear
  sound : Sound [] d.s
  o_sent : (d.s.conns .opener).sent ++ d.o.flight = d.o.wrote
  j_sent : ∀ c, d.s.joiner = some c → (d.s.conns (.joinee c)).sent ++ d.j.flight =
    (if d.bridged then d.stjoined else []) ++ d.j.wrote
  silent : d.bridged = false → d.j = ⟨[], [], .no⟩
  bridged : d.bridged = true → ∃ c, d.s.joiner = some c
  o_eof : d.o.shut = .done → ∃ c, d.s.joiner = some c ∧ (d.s.conns (.joinee c)).wEof = true
  o_done : ∀ c, d.s.joiner = some c → (d.s.conns (.joinee c)).wEof = true →
    d.o.shut = .done ∧ rawOf (d.s.conns (.joinee c)).out = d.o.wrote
  j_eof : d.j.shut = .done → (d.s.conns .opener).wEof = true
  j_done : (d.s.conns .opener).wEof = true →
    d.j.shut = .done ∧ rawOf (d.s.conns .opener).out = d.j.wrote

variable {d : Duplex}

theorem live_opened (sid o n : Nat) : Live (opened sid o n) where
  clear := clear_opened sid o n
  sound := sound_opened sid o n
  o_sent := rfl
  j_sent c hc := absurd hc (by simp [opened, Stream.opened])
  silent _ := rfl
  bridged h := absurd h (by simp [opened])
  o_eof h := absurd h (by simp [opened])
  o_done c hc := absurd hc (by simp [opened, Stream.opened])
  j_eof h := absurd h (by simp [opened])
  j_done h := absurd h (by simp [opened, Stream.opened, fresh])

theorem read_stjoined (d : Duplex) (b : Bytes) :
    tcpRead (d.stjoined ++ b) = .frame T_STJOINED (encode_stsid d.s.sid) b :=
  tcpRead_frame T_STJOINED (p := encode_stsid d.s.sid) (show 1 + 4 ≤ 8 * 1024 * 1024 by decide) b

/-- what the joinee's connection has got is the beginning of `T_STJOINED`, or that and the beginning
of its bytes -/
theorem Live.joined (h : Live d) {c : Nat} (hc : d.s.joiner = some c) :
    tcpRead (d.s.conns (.joinee c)).sent = .more ∨ d.bridged = true ∧
      ∃ rest, tcpRead (d.s.conns (.joinee c)).sent =
        .frame T_STJOINED (encode_stsid d.s.sid) rest ∧ rest ++ d.j.flight = d.j.wrote := by
  have hsent := h.j_sent c hc
  cases hb : d.bridged with
  | false =>
    rw [h.silent hb, hb, if_neg (by decide), List.append_nil] at hsent
    rw [hsent]
    exact Or.inl rfl
  | true =>
    rw [hb, if_pos rfl] at hsent
    have hread := d.read_stjoined d.j.wrote
    rw [← hsent] at hread
    cases hx : tcpRead (d.s.conns (.joinee c)).sent with
    | more => exact Or.inl rfl
    | bad => exact absurd ((tcpRead_bad hx _).symm.trans hread) (by simp)
    | frame t p rest =>
      obtain ⟨rfl, rfl, hr⟩ := TcpRead.frame.inj ((tcpRead_append hx _).symm.trans hread)
      exact Or.inr ⟨rfl, rest, rfl, hr⟩

/-- what was carried to the joinee, what is unread and what is on its way are all the opener wrote -/
theorem Live.there (h : Live d) {c : Nat} (hc : d.s.joiner = some c) :
    ∃ x, x ++ ((d.s.conns .opener).inb ++ d.o.flight) = d.o.wrote ∧
      Carried x (d.s.conns (.joinee c)) := by
  obtain ⟨x, hx, -, hcar⟩ := h.clear.there
  refine ⟨x, ?_, hcar c hc⟩
  rw [← List.append_assoc, ← hx]
  exact h.o_sent

/-- the same of the joinee, once its `T_STJOINED` has been read -/
theorem Live.back (h : Live d) {c : Nat} (hw : d.s.Won c Piping) :
    ∃ x, x ++ ((d.s.conns (.joinee c)).inb ++ d.j.flight) = d.j.wrote ∧
      Carried x (d.s.conns .opener) := by
  obtain ⟨-, hc, -, -, p, x, hx, hcar⟩ := hw
  refine ⟨x, ?_, hcar⟩
  rcases h.joined hc with hm | ⟨-, rest, hr, he⟩
  · exact absurd (hx.symm.trans hm) (by simp)
  · obtain ⟨-, -, rfl⟩ := TcpRead.frame.inj (hx.symm.trans hr)
    rw [← List.append_assoc]
    exact he

/-- when everything is written, nothing is left to be carried -/
theorem nothing_left {x y wrote : Bytes} {k : Tcp} (hx : x ++ y = wrote) (hc : Carried x k)
    (hw : rawOf k.out = wrote) : y = [] := by
  have hle := hc.initial.length_le
  rw [hw, ← hx, List.length_append] at hle
  exact List.eq_nil_of_length_eq_zero (by omega)

/-- once the end of file is written towards the joinee, there is nothing left to read of the opener -/
theorem Live.o_read (h : Live d) {c : Nat} (hc : d.s.joiner = some c)
    (he : (d.s.conns (.joinee c)).wEof = true) : (d.s.conns .opener).inb = [] := by
  obtain ⟨x, hx, hcar⟩ := h.there hc
  exact (List.append_eq_nil_iff.mp (nothing_left hx hcar (h.o_done c hc he).2)).1

theorem Live.j_read (h : Live d) {c : Nat} (hw : d.s.Won c Piping)
    (he : (d.s.conns .opener).wEof = true) : (d.s.conns (.joinee c)).inb = [] := by
  obtain ⟨x, hx, hcar⟩ := h.back hw
  exact (List.append_eq_nil_iff.mp (nothing_left hx hcar (h.j_done he).2)).1

theorem Live.order_there (h : Live d) {c : Nat} (hc : d.s.joiner = some c) :
    rawOf (d.s.conns (.joinee c)).out <+: d.o.wrote := by
  obtain ⟨x, hx, hcar⟩ := h.there hc
  rw [← hx]
  exact hcar.initial.trans (List.prefix_append x _)

theorem Live.order_back (h : Live d) : rawOf (d.s.conns .opener).out <+: d.j.wrote := by
  by_cases hst : d.s.state = .opened
  · rw [(h.sound.early hst).2]
    exact List.nil_prefix
  · obtain ⟨c, hc⟩ := h.clear.claimed hst
    refine (h.clear.back c hc).trans ?_
    unfold behindJoined
    rcases h.joined hc with hm | ⟨-, rest, hr, he⟩
    · rw [hm]
      exact List.nil_prefix
    · rw [hr, ← he]
      exact List.prefix_append rest _

/-! ## at rest -/

/-- a pump that cannot go on waits for bytes, when its two connections are in order -/
theorem pump_rest {s : Stream} {pc : PumpPc} {r w : Who} (hr : Calm (s.conns r))
    (hw : Calm (s.conns w)) (hp : (s.conns w).paused = false) (hpc : pc ≠ .ended)
    (h : s.pump pc r w = none) : (s.conns r).inb = [] := by
  unfold Stream.pump at h
  cases pc with
  | ended => exact absurd rfl hpc
  | drain =>
    have hd : (s.conns w).drained = some .ok := by
      unfold drained
      rw [if_neg (by simp [hw.lost]), if_neg (by simp [hp])]
    simp [hd] at h
  | read =>
    dsimp only at h
    rw [if_neg (by simp [hr.exc])] at h
    by_cases hi : (s.conns r).inb = []
    · exact hi
    · rw [if_neg hi] at h
      exact absurd h (by simp)

/-- at rest the pipe is running, and nothing is unread -/
theorem Live.piping (h : Live d) (hr : d.AtRest) (hb : d.bridged = true) :
    ∃ c, d.s.Won c Piping ∧ (d.s.conns .opener).inb = [] ∧ (d.s.conns (.joinee c)).inb = [] := by
  obtain ⟨c, hc⟩ := h.bridged hb
  have hst : d.s.state ≠ .opened := fun ho => by
    rw [h.clear.fresh ho] at hc
    exact absurd hc (by simp)
  obtain ⟨t, ht, hchain⟩ := h.sound.alive hst
  have hg := h.sound.good t ht
  have hphase := h.clear.phase t ht
  obtain ⟨i, hi, hti⟩ := List.getElem_of_mem ht
  have hget : d.s.coros[i]? = some t := by
    rw [List.getElem?_eq_getElem hi, hti]
  have hwake : (d.s.without i).resume t = none := by
    have hw := hr.wake i
    rw [Stream.step, hget] at hw
    exact hw
  cases t with
  | early c' => exact absurd hwake (by simp [resume])
  | reading c' =>
    obtain ⟨-, hj, -, -, hu⟩ := hphase
    obtain rfl := Option.some.inj (hc.symm.trans hj)
    have hsent := h.j_sent c hc
    rw [show d.j.flight = [] from hr.flight .joinee, List.append_nil, hb, if_pos rfl, ← hu.inb] at hsent
    have hread := d.read_stjoined d.j.wrote
    rw [← hsent] at hread
    have hx := readFrame_frame (s := d.s.without i) (h.sound.joiner c hc).1.exc hread
    exact absurd (hx.symm.trans hwake) (by simp)
  | pipe task pc =>
    cases pc with
    | starting =>
      obtain ⟨c', hwon⟩ := hphase
      have hx : ((d.s.without i).listed && (d.s.without i).state == .ready) = true := by
        show (d.s.listed && d.s.state == .ready) = true
        rw [h.sound.listed, hwon.1]
        rfl
      have hj' : (d.s.without i).joiner = some c' := hwon.2.1
      rw [resume, if_pos hx, hj'] at hwake
      exact absurd hwake (by simp)
    | running c' a b cancelled =>
      have hwon : d.s.Won c' Piping := hphase
      obtain rfl := Option.some.inj (hc.symm.trans hwon.2.1)
      have hgood : a ≠ .ended ∧ b ≠ .ended := by
        cases task <;> cases cancelled
        case true.false => exact hg
        all_goals exact absurd hg (by simp [Coro.Good])
      obtain ⟨hcj, -⟩ := h.sound.joiner c hc
      have hpump : ∀ back, d.s.pumpStep i back = none := fun back => hr.pump i back
      refine ⟨c, hwon, ?_, ?_⟩
      · have hp := hpump false
        unfold pumpStep at hp
        rw [hget] at hp
        exact pump_rest h.sound.opener hcj (hr.paused _) hgood.1 (by simpa using hp)
      · have hp := hpump true
        unfold pumpStep at hp
        rw [hget] at hp
        exact pump_rest hcj h.sound.opener (hr.paused _) hgood.2 (by simpa using hp)
    | ending => exact absurd hg (by cases task <;> simp [Coro.Good])
  | stokJoiner _ | stokOpener _ => exact absurd hg (by simp [Coro.Good])
  | _ => exact absurd hchain (by simp [Coro.isChain])

/-- what was carried is what was written, as nothing stopped the connection before the end -/
theorem whole {x y wrote : Bytes} {k : Tcp} (hx : x ++ y = wrote) (hy : y = []) (hk : Calm k)
    (hc : Carried x k) (hw : k.wEof = true → rawOf k.out = wrote) : rawOf k.out = wrote := by
  cases he : k.wEof with
  | true => exact hw he
  | false => rw [hk.carried he hc, ← hx, hy, List.append_nil]

theorem Live.intact (h : Live d) : d.Intact where
  listed := h.sound.listed
  there c hc := ⟨h.order_there hc, fun he => by
    obtain ⟨h1, h2⟩ := h.o_done c hc he
    exact ⟨h2, by rw [h1]; decide⟩⟩
  back := ⟨h.order_back, fun he => by
    obtain ⟨h1, h2⟩ := h.j_done he
    exact ⟨h2, by rw [h1]; decide⟩⟩
  rest hr hb := by
    obtain ⟨c, hwon, hio, hij⟩ := h.piping hr hb
    have hc := hwon.2.1
    obtain ⟨x, hx, hcx⟩ := h.there hc
    obtain ⟨y, hy, hcy⟩ := h.back hwon
    have hfo : d.o.flight = [] := hr.flight .opener
    have hfj : d.j.flight = [] := hr.flight .joinee
    -- a half-close that was sent has been processed
    have hdone : ∀ z : Endpoint, z.shut ≠ .sent → z.shut ≠ .no → z.shut = .done := by
      intro z
      cases z.shut <;> simp
    refine ⟨c, hc, whole hx (by rw [hio, hfo]; rfl) (h.sound.joiner c hc).1 hcx
        fun he => (h.o_done c hc he).2,
      whole hy (by rw [hij, hfj]; rfl) h.sound.opener hcy fun he => (h.j_done he).2,
      fun hs => ?_, fun hs => h.j_eof (hdone d.j (hr.shut .joinee) hs)⟩
    obtain ⟨c', hc', he⟩ := h.o_eof (hdone d.o (hr.shut .opener) hs)
    obtain rfl := Option.some.inj (hc.symm.trans hc')
    exact he

/-! ## one step -/

/-- the relay does something by itself -/
theorem Live.kin (h : Live d) {s' : Stream} (hc : s'.Clear) (hs : Sound [] s') (hk : Kin d.s s') :
    Live { d with s := s' } where
  clear := hc
  sound := hs
  o_sent := by
    show (s'.conns .opener).sent ++ _ = _
    rw [(hk.conns .opener).sent]
    exact h.o_sent
  j_sent c hj := by
    show (s'.conns (.joinee c)).sent ++ d.j.flight = (if d.bridged then
      frame T_STJOINED (encode_stsid s'.sid) else []) ++ d.j.wrote
    rcases hk.new c hj with ho | ⟨hn, he, -⟩
    · rw [(hk.conns _).sent, hk.sid]
      exact h.j_sent c ho
    · have hb : d.bridged = false := by
        rw [Bool.eq_false_iff]
        intro hb
        obtain ⟨c', hc'⟩ := h.bridged hb
        exact absurd (hn.symm.trans hc') (by simp)
      rw [he, hb, h.silent hb]
      rfl
  silent := h.silent
  bridged hb := (h.bridged hb).imp fun c hc => hk.keep c hc
  o_eof ho := (h.o_eof ho).imp fun c hc => ⟨hk.keep c hc.1, (hk.conns _).wEof.trans hc.2⟩
  o_done c hj he := by
    rcases hk.new c hj with ho | ⟨-, -, hn⟩
    · have he' := (hk.conns (.joinee c)).wEof.symm.trans he
      obtain ⟨h1, h2⟩ := h.o_done c ho he'
      exact ⟨h1, ((hk.conns _).raw he').trans h2⟩
    · exact absurd (hn.symm.trans he) (by decide)
  j_eof hj := (hk.conns _).wEof.trans (h.j_eof hj)
  j_done he := by
    have he' := (hk.conns .opener).wEof.symm.trans he
    obtain ⟨h1, h2⟩ := h.j_done he'
    exact ⟨h1, ((hk.conns _).raw he').trans h2⟩

theorem Live.relay (h : Live d) {l : Stream.Label} (hl : d.Healthy l = true) {s' : Stream}
    (hs : d.s.step l = some s') : Sound [] s' ∧ Kin d.s s' := by
  cases l with
  | stjoin c payload =>
    obtain ⟨-, hc, node, sid, hd, rfl⟩ := join_of_handle hs
    simp only [Healthy, hd, Bool.and_eq_true, bne_iff_ne, Bool.or_eq_true, beq_iff_eq] at hl
    refine h.sound.join hc hl.1 fun ho => ⟨hl.1, ?_⟩
    rcases hl.2 with (h1 | h1) | h1
    · exact absurd ho h1
    · exact Or.inl h1
    · exact Or.inr h1
  | wake i =>
    obtain ⟨t, ht, hr⟩ := Option.bind_eq_some_iff.mp hs
    refine h.sound.wake h.clear ht (fun hx => ?_) (fun c hc => ?_) hr
    · simp only [Healthy, ht, hx, beq_iff_eq] at hl
      exact hl
    · rcases h.joined hc with hm | ⟨-, rest, hm, -⟩
      · exact Or.inl hm
      · exact Or.inr ⟨_, rest, hm⟩
  | pump i back =>
    exact h.sound.pumpStep h.clear (fun c hc he => h.o_read hc he) (fun c hw he => h.j_read hw he) hs
  | net w e =>
    cases e with
    | buffer b p =>
      obtain ⟨k, hk, rfl⟩ := Option.map_eq_some_iff.mp hs
      exact h.sound.buffer hk
    | _ => exact absurd hl (by simp [Healthy])
  | hostClaim node v =>
    rw [← Option.some.inj hs]
    have hs := h.sound
    exact ⟨⟨hs.listed, hs.shut, hs.ready, hs.fresh, hs.opener, hs.early, hs.joiner, hs.spare,
      hs.joined, hs.nodup, hs.nodes, hs.dest, hs.good, hs.alive⟩, kin_of rfl rfl fun _ => still_refl _⟩
  | _ => exact absurd hl (by simp [Healthy])

/-- no BUSY round is in progress -/
theorem Live.steady (h : Live d) {l : Stream.Label} (hl : d.Healthy l = true) : d.s.Steady l := by
  cases l with
  | wake i =>
    unfold Steady
    dsimp only
    split
    · rename_i ht
      exact absurd (h.sound.good _ (List.mem_of_getElem? ht)) (by simp [Coro.Good])
    · exact trivial
  | strayPipe => exact absurd hl (by simp [Healthy])
  | _ => exact trivial

/-- bytes come in on the connection of an endpoint -/
theorem sound_arrive {s : Stream} (h : Sound [] s) {w : Who}
    (hw : w = .opener ∨ ∃ c, w = .joinee c ∧ s.joiner = some c) {b : Bytes} {s' : Stream}
    (hs : s.step (.net w (.arrive b)) = some s') : Sound [] s' ∧
      s' = s.setConn w { s.conns w with sent := (s.conns w).sent ++ b, inb := (s.conns w).inb ++ b } := by
  obtain ⟨k, hk, rfl⟩ := Option.map_eq_some_iff.mp hs
  have hwf := (grows_net hk).wf
  obtain ⟨-, hk⟩ := Option.ite_none_left_eq_some.mp hk
  have hcalm : Calm (s.conns w) := by
    rcases hw with rfl | ⟨c, rfl, hc⟩
    · exact h.opener
    · exact (h.joiner c hc).1
  have hk' := Option.some.inj hk
  have hwf' := hwf hcalm.wf
  rw [← hk'] at hwf'
  rw [← hk']
  refine ⟨h.setConn hw ⟨hcalm.closing, hcalm.dead, hcalm.lost, hcalm.eof, hcalm.exc, hwf'⟩ fun ho => ?_,
    rfl⟩
  rcases hw with rfl | ⟨c, -, hc⟩
  · exact h.early ho
  · exact absurd ((h.fresh ho).symm.trans hc) (by simp)

theorem Live.deliver_opener (h : Live d) (n : Nat) {s' : Stream}
    (hs : d.s.step (.net .opener (.arrive (d.o.flight.take n))) = some s') :
    Live { d with s := s', o := { d.o with flight := d.o.flight.drop n } } := by
  have hcl := clear_step h.clear (l := .net ..) trivial hs
  obtain ⟨hsound, rfl⟩ := sound_arrive h.sound (Or.inl rfl) hs
  have hj : ∀ (c : Nat) (k : Tcp), (d.s.setConn .opener k).conns (.joinee c) = d.s.conns (.joinee c) :=
    fun c k => setConn_other _ (by simp) k
  have ho : ∀ k : Tcp, (d.s.setConn .opener k).conns .opener = k := fun k => setConn_self ..
  refine ⟨hcl, hsound, ?_, ?_, h.silent, h.bridged, ?_, ?_, ?_, ?_⟩
  · rw [ho]
    show (_ ++ _) ++ _ = _
    rw [List.append_assoc, List.take_append_drop]
    exact h.o_sent
  · intro c hc
    rw [hj]
    exact h.j_sent c hc
  · intro hs
    obtain ⟨c, hc, he⟩ := h.o_eof hs
    exact ⟨c, hc, by rw [hj]; exact he⟩
  · intro c hc
    rw [hj]
    exact h.o_done c hc
  · rw [ho]
    exact h.j_eof
  · rw [ho]
    exact h.j_done

theorem Live.deliver_joinee (h : Live d) {c : Nat} (hc : d.s.joiner = some c) (n : Nat) {s' : Stream}
    (hs : d.s.step (.net (.joinee c) (.arrive (d.j.flight.take n))) = some s') :
    Live { d with s := s', j := { d.j with flight := d.j.flight.drop n } } := by
  have hcl := clear_step h.clear (l := .net ..) trivial hs
  obtain ⟨hsound, rfl⟩ := sound_arrive h.sound (Or.inr ⟨c, rfl, hc⟩) hs
  have ho : ∀ k : Tcp, (d.s.setConn (.joinee c) k).conns .opener = d.s.conns .opener :=
    fun k => setConn_other _ (by simp) k
  have hj : ∀ k : Tcp, (d.s.setConn (.joinee c) k).conns (.joinee c) = k := fun k => setConn_self ..
  refine ⟨hcl, hsound, ?_, ?_, ?_, h.bridged, ?_, ?_, ?_, ?_⟩
  · rw [ho]
    exact h.o_sent
  · intro c' hc'
    obtain rfl := Option.some.inj (hc.symm.trans hc')
    rw [hj]
    show (_ ++ _) ++ _ = _
    rw [List.append_assoc, List.take_append_drop]
    exact h.j_sent c hc
  · intro hb
    have he := h.silent hb
    show Endpoint.mk d.j.wrote (d.j.flight.drop n) d.j.shut = _
    rw [he]
    simp
  · intro hs
    obtain ⟨c', hc', he⟩ := h.o_eof hs
    obtain rfl := Option.some.inj (hc.symm.trans hc')
    exact ⟨c, hc, by rw [hj]; exact he⟩
  · intro c' hc' he
    obtain rfl := Option.some.inj (hc.symm.trans hc')
    rw [hj] at he ⊢
    exact h.o_done c hc he
  · rw [ho]
    exact h.j_eof
  · rw [ho]
    exact h.j_done

/-- an endpoint that has not half-closed writes more -/
theorem Live.write (h : Live d) {x : Side} (hn : (d.ep x).shut = .no)
    (hx : x = .opener ∨ d.bridged = true) (b : Bytes) :
    Live (d.setEp x { d.ep x with
      wrote := (d.ep x).wrote ++ b
      flight := (d.ep x).flight ++ b }) := by
  cases x with
  | opener =>
    have hn' : d.o.shut = .no := hn
    refine ⟨h.clear, h.sound, ?_, h.j_sent, h.silent, h.bridged, h.o_eof, fun c hc he => ?_, h.j_eof,
      h.j_done⟩
    · show (d.s.conns .opener).sent ++ (d.o.flight ++ b) = d.o.wrote ++ b
      rw [← List.append_assoc, h.o_sent]
    · exact absurd (hn'.symm.trans (h.o_done c hc he).1) (by decide)
  | joinee =>
    have hn' : d.j.shut = .no := hn
    have hb : d.bridged = true := hx.resolve_left (by simp)
    refine ⟨h.clear, h.sound, h.o_sent, fun c hc => ?_, fun hf => ?_, h.bridged, h.o_eof, h.o_done,
      h.j_eof, fun he => ?_⟩
    · show (d.s.conns (.joinee c)).sent ++ (d.j.flight ++ b) =
        (if d.bridged then d.stjoined else []) ++ (d.j.wrote ++ b)
      rw [← List.append_assoc, ← List.append_assoc, h.j_sent c hc]
    · exact absurd (hb.symm.trans hf) (by decide)
    · exact absurd (hn'.symm.trans (h.j_done he).1) (by decide)

theorem Live.shutdown (h : Live d) {x : Side} (hn : (d.ep x).shut = .no)
    (hx : x = .opener ∨ d.bridged = true) :
    Live (d.setEp x { d.ep x with shut := .sent }) := by
  cases x with
  | opener =>
    have hn' : d.o.shut = .no := hn
    exact ⟨h.clear, h.sound, h.o_sent, h.j_sent, h.silent, h.bridged, nofun,
      fun c hc he => absurd (hn'.symm.trans (h.o_done c hc he).1) (by decide), h.j_eof, h.j_done⟩
  | joinee =>
    have hn' : d.j.shut = .no := hn
    have hb : d.bridged = true := hx.resolve_left (by simp)
    exact ⟨h.clear, h.sound, h.o_sent, h.j_sent, fun hf => absurd (hb.symm.trans hf) (by decide),
      h.bridged, h.o_eof, h.o_done, nofun,
      fun he => absurd (hn'.symm.trans (h.j_done he).1) (by decide)⟩

/-- the joinee answers `T_STOK` -/
theorem Live.bridge (h : Live d) {c : Nat} (hc : d.s.joiner = some c) (hb : d.bridged = false) :
    Live { d with bridged := true, j := { d.j with flight := d.stjoined } } := by
  have he := h.silent hb
  have hw : d.j.wrote = [] := by rw [he]
  refine ⟨h.clear, h.sound, h.o_sent, fun c' hc' => ?_, nofun, fun _ => ⟨c, hc⟩, h.o_eof, h.o_done,
    h.j_eof, h.j_done⟩
  have hsent := h.j_sent c' hc'
  rw [he, hb, if_neg (by decide), List.append_nil] at hsent
  show _ ++ d.stjoined = (if True then d.stjoined else []) ++ d.j.wrote
  rw [hsent, hw, if_pos trivial, List.append_nil]
  rfl

/-! ## half-closing -/

theorem write_eof_eq {s : Stream} {w : Who} (h : Calm (s.conns w)) :
    s.write_eof w = s.setConn w { s.conns w with wEof := true } := by
  unfold Stream.write_eof Tcp.write_eof
  rw [if_neg (by simp [h.closing])]

/-- the opener has half-closed, and everything is on the joinee's connection -/
theorem Live.stshut_opener (h : Live d) (hok : d.Behind (.stshut .opener)) :
    Live { d with
      s := d.s.stshut d.s.opener_node
      o := { d.o with shut := .done } } := by
  obtain ⟨hj, hf, hi⟩ := hok
  obtain ⟨c, hc⟩ := Option.ne_none_iff_exists'.mp hj
  obtain ⟨hcalm, -⟩ := h.sound.joiner c hc
  have hcl := h.clear.stshut d.s.opener_node
  have hs : d.s.stshut d.s.opener_node =
      d.s.setConn (.joinee c) { d.s.conns (.joinee c) with wEof := true } := by
    rw [← write_eof_eq hcalm]
    unfold Stream.stshut
    rw [if_neg (by simp [h.sound.listed]), if_pos rfl, hc]
  rw [hs] at hcl ⊢
  have hne : d.s.state ≠ .opened := fun ho => absurd ((h.clear.fresh ho).symm.trans hc) (by simp)
  have hso := h.sound.setConn (Or.inr ⟨c, rfl, hc⟩)
    (k := { d.s.conns (.joinee c) with wEof := true })
    ⟨hcalm.closing, hcalm.dead, hcalm.lost, hcalm.eof, hcalm.exc, ⟨hcalm.wf.1, hcalm.wf.2⟩⟩
    fun ho => absurd ho hne
  have ho : ∀ k : Tcp, (d.s.setConn (.joinee c) k).conns .opener = d.s.conns .opener :=
    fun k => setConn_other _ (by simp) k
  have hjc : ∀ k : Tcp, (d.s.setConn (.joinee c) k).conns (.joinee c) = k := fun k => setConn_self ..
  obtain ⟨x, hx, hcar⟩ := h.there hc
  have hwhole := whole hx (by rw [hi, hf]; rfl) hcalm hcar fun he => (h.o_done c hc he).2
  refine ⟨hcl, hso, ?_, ?_, h.silent, h.bridged, fun _ => ⟨c, hc, by rw [hjc]⟩, ?_, ?_, ?_⟩
  · rw [ho]
    exact h.o_sent
  · intro c' hc'
    obtain rfl := Option.some.inj (hc.symm.trans hc')
    rw [hjc]
    exact h.j_sent c hc
  · intro c' hc' _
    obtain rfl := Option.some.inj (hc.symm.trans hc')
    rw [hjc]
    exact ⟨rfl, hwhole⟩
  · rw [ho]
    exact h.j_eof
  · rw [ho]
    exact h.j_done

/-- all that a joinee wrote has been written to the opener, if none is unread or on its way -/
theorem Live.back_whole (h : Live d) {c : Nat} (hc : d.s.joiner = some c) (hb : d.bridged = true)
    (hf : d.j.flight = []) (hi : (d.s.conns (.joinee c)).inb = []) :
    rawOf (d.s.conns .opener).out = d.j.wrote := by
  have hsent := h.j_sent c hc
  rw [hf, List.append_nil, hb, if_pos rfl] at hsent
  obtain ⟨t, ht, hchain⟩ := h.sound.alive fun ho => absurd ((h.clear.fresh ho).symm.trans hc) (by simp)
  -- with the buffer empty `T_STJOINED` has been read
  have hread : ∀ {c'}, d.s.Won c' Unread → False := by
    intro c' hw
    obtain rfl := Option.some.inj (hc.symm.trans hw.2.1)
    have he := d.read_stjoined d.j.wrote
    rw [← hsent, ← hw.2.2.2.2.inb, hi] at he
    exact absurd he (by simp [show tcpRead [] = .more from rfl])
  have hg := h.sound.good t ht
  have hphase := h.clear.phase t ht
  have hpiping : ∃ c', d.s.Won c' Piping := by
    cases t with
    | early c' => exact (hread hphase).elim
    | reading c' => exact (hread hphase).elim
    | pipe task pc =>
      cases pc with
      | starting => exact hphase
      | running c' a b cancelled => exact ⟨c', hphase⟩
      | ending => exact absurd hg (by cases task <;> simp [Coro.Good])
    | stokJoiner _ | stokOpener _ => exact absurd hg (by simp [Coro.Good])
    | _ => exact absurd hchain (by simp [Coro.isChain])
  obtain ⟨c', hw⟩ := hpiping
  obtain rfl := Option.some.inj (hc.symm.trans hw.2.1)
  obtain ⟨x, hx, hcar⟩ := h.back hw
  exact whole hx (by rw [hi, hf]; rfl) h.sound.opener hcar fun he => (h.j_done he).2

theorem Live.stshut_joinee (h : Live d) (hn : d.j.shut = .sent)
    (hok : d.Behind (.stshut .joinee)) :
    Live { d with
      s := d.s.stshut d.s.dest_node
      j := { d.j with shut := .done } } := by
  obtain ⟨hne, hrest⟩ := hok
  have hb : d.bridged = true := by
    rw [← Bool.not_eq_false]
    intro hb
    rw [h.silent hb] at hn
    exact absurd hn (by decide)
  obtain ⟨c, hc⟩ := h.bridged hb
  have hst : d.s.state ≠ .opened := fun ho => absurd ((h.clear.fresh ho).symm.trans hc) (by simp)
  have hcalm := h.sound.opener
  have hcl := h.clear.stshut d.s.dest_node
  have hs : d.s.stshut d.s.dest_node =
      d.s.setConn .opener { d.s.conns .opener with wEof := true } := by
    rw [← write_eof_eq hcalm]
    unfold Stream.stshut
    rw [if_neg (by simp [h.sound.listed]), if_neg hne, if_pos ⟨h.sound.dest hst, rfl⟩]
  rw [hs] at hcl ⊢
  have hso := h.sound.setConn (Or.inl rfl) (k := { d.s.conns .opener with wEof := true })
    ⟨hcalm.closing, hcalm.dead, hcalm.lost, hcalm.eof, hcalm.exc, ⟨hcalm.wf.1, hcalm.wf.2⟩⟩
    fun ho => absurd ho hst
  have hj : ∀ (c : Nat) (k : Tcp), (d.s.setConn .opener k).conns (.joinee c) = d.s.conns (.joinee c) :=
    fun c k => setConn_other _ (by simp) k
  have ho : ∀ k : Tcp, (d.s.setConn .opener k).conns .opener = k := fun k => setConn_self ..
  have hwhole : rawOf (d.s.conns .opener).out = d.j.wrote := by
    rcases hrest with hw | ⟨hf, hi⟩
    · have hp := h.order_back
      rw [hw] at hp ⊢
      exact List.prefix_nil.mp hp
    · exact h.back_whole hc hb hf (hi c hc)
  refine ⟨hcl, hso, ?_, ?_, fun hf => absurd (hb.symm.trans hf) (by decide), h.bridged, ?_, ?_,
    fun _ => by rw [ho], fun _ => by rw [ho]; exact ⟨rfl, hwhole⟩⟩
  · rw [ho]
    exact h.o_sent
  · intro c' hc'
    rw [hj]
    exact h.j_sent c' hc'
  · intro hs
    obtain ⟨c', hc', he⟩ := h.o_eof hs
    exact ⟨c', hc', by rw [hj]; exact he⟩
  · intro c' hc'
    rw [hj]
    exact h.o_done c' hc'

/-! ## runs -/

theorem live_step {l : Act} {d' : Duplex} (h : Live d) (hok : d.Behind l)
    (hs : d.step l = some d') : Live d' := by
  cases l with
  | relay l =>
    obtain ⟨hl, hs⟩ := Option.ite_none_right_eq_some.mp hs
    obtain ⟨s', hr, rfl⟩ := Option.map_eq_some_iff.mp hs
    obtain ⟨h1, h2⟩ := h.relay hl hr
    exact h.kin (clear_step h.clear (h.steady hl) hr) h1 h2
  | write x b =>
    obtain ⟨⟨hn, hx⟩, hs⟩ := Option.ite_none_right_eq_some.mp hs
    rw [← Option.some.inj hs]
    exact h.write hn hx b
  | bridge =>
    simp only [step] at hs
    split at hs
    · exact absurd hs (by simp)
    · rename_i c hc
      obtain ⟨⟨hb, -⟩, hs⟩ := Option.ite_none_right_eq_some.mp hs
      rw [← Option.some.inj hs]
      exact h.bridge hc hb
  | shutdown x =>
    obtain ⟨⟨hn, hx⟩, hs⟩ := Option.ite_none_right_eq_some.mp hs
    rw [← Option.some.inj hs]
    exact h.shutdown hn hx
  | deliver x n =>
    obtain ⟨w, hw, hs⟩ := Option.bind_eq_some_iff.mp hs
    obtain ⟨s', hr, rfl⟩ := Option.map_eq_some_iff.mp hs
    cases x with
    | opener =>
      obtain rfl := Option.some.inj hw
      exact h.deliver_opener n hr
    | joinee =>
      obtain ⟨c, hc, rfl⟩ := Option.map_eq_some_iff.mp hw
      exact h.deliver_joinee hc n hr
  | stshut x =>
    obtain ⟨hn, hs⟩ := Option.ite_none_right_eq_some.mp hs
    rw [← Option.some.inj hs]
    cases x with
    | opener => exact h.stshut_opener hok
    | joinee => exact h.stshut_joinee hn hok

/-- **Half-close.**  When every `T_STSHUT` is processed behind the bytes, what an endpoint wrote comes
whole and in order before its end of file, and both directions go on. -/
theorem intact_run {sid o n : Nat} {t : Duplex} {tr : List (Duplex × Act)}
    (h : Path step (opened sid o n) tr t) (hok : ∀ x ∈ tr, x.1.Behind x.2) :
    ∀ u ∈ visited tr t, u.Intact :=
  h.all_of_ok (live_opened sid o n) (fun _ h => h.intact) (fun _ _ _ h => live_step h) hok

/-- node 8 answers the dial of node 7; each of them sends a little and half-closes -/
def bothShut : List Act :=
  [.relay (.stjoin 0 [0, 0, 0, 8, 0, 0, 0, 9]), .relay (.wake 1), .bridge, .write .joinee [5],
   .deliver .joinee 20, .relay (.wake 1), .relay (.wake 0), .write .opener [1, 2], .shutdown .opener,
   .deliver .opener 2, .relay (.pump 0 false), .stshut .opener, .relay (.pump 0 true),
   .shutdown .joinee, .stshut .joinee]

theorem intact_bothShut : ∃ t, run step (opened 9 7 8) bothShut = some t ∧
    (∀ c, t.s.joiner = some c → (t.s.conns (.joinee c)).out = [t.s.stok, .raw [1, 2]] ∧
      (t.s.conns (.joinee c)).wEof = true) ∧
    (t.s.conns .opener).out = [t.s.stok, .raw [5]] ∧ (t.s.conns .opener).wEof = true ∧
    ∀ u ∈ visited (trace step (opened 9 7 8) bothShut) t, u.Intact := by
  have hsome : (run step (opened 9 7 8) bothShut).isSome = true := by decide
  obtain ⟨t, ht⟩ := Option.isSome_iff_exists.mp hsome
  have hok : ∀ x ∈ trace step (opened 9 7 8) bothShut, x.1.Behind x.2 := by decide
  have hend : ∀ u ∈ run step (opened 9 7 8) bothShut,
      (∀ c ∈ u.s.joiner, (u.s.conns (.joinee c)).out = [u.s.stok, .raw [1, 2]] ∧
        (u.s.conns (.joinee c)).wEof = true) ∧
      (u.s.conns .opener).out = [u.s.stok, .raw [5]] ∧ (u.s.conns .opener).wEof = true := by
    decide
  obtain ⟨h1, h2, h3⟩ := hend t ht
  exact ⟨t, ht, h1, h2, h3, intact_run (path_run ht) hok⟩

/-- the `T_STSHUT` of the opener is there before its bytes -/
def shutFirst : List Act :=
  [.relay (.stjoin 0 [0, 0, 0, 8, 0, 0, 0, 9]), .relay (.wake 1), .bridge, .deliver .joinee 20,
   .relay (.wake 1), .relay (.wake 0), .write .opener [1, 2], .shutdown .opener, .stshut .opener,
   .deliver .opener 2, .relay (.pump 0 false), .relay (.wake 0), .relay (.wake 0)]

/-- the joinee gets an end of file and not a byte, and the stream is torn down -/
theorem shutFirst_truncates : ∃ t, run step (opened 9 7 8) shutFirst = some t ∧ ¬ t.Intact := by
  have hsome : (run step (opened 9 7 8) shutFirst).isSome = true := by decide
  obtain ⟨t, ht⟩ := Option.isSome_iff_exists.mp hsome
  have hend : ∀ u ∈ run step (opened 9 7 8) shutFirst, u.s.listed = false ∧
      u.s.joiner = some 0 ∧ (u.s.conns (.joinee 0)).wEof = true ∧
      rawOf (u.s.conns (.joinee 0)).out = [] ∧ u.o.wrote = [1, 2] := by
    decide
  obtain ⟨-, hj, he, hr, hw⟩ := hend t ht
  refine ⟨t, ht, fun h => ?_⟩
  have hx := ((h.there 0 hj).eof he).1
  rw [hr, hw] at hx
  exact absurd hx (by simp)

end Duplex

end ShadowLan
