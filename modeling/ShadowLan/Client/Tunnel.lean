import ShadowLan.Client.Joinee
import ShadowLan.Client.Opener
import ShadowLan.Lib.Runs

/-!
# A game's connection through the tunnel

The whole way of a stream: the player's `on_accept`, the record of the relay, and any number of hosts
that run `stream_join` for it.  The parties meet only on the connections between them, and a
connection brings what its other end wrote, in order, cut anywhere, and late.  The record is there
from the start, and so is every host: that `T_STOPEN` and `T_STREQ` come first is not asked for.

* `Tunnel`, `Tunnel.step`    the parties, one step of one of them at a time;
* `Tunnel.Faithful`          one game at most is touched, and each game hears a prefix of the other;
* `stok_first`               a handler that has read `T_STOK` has read the relay's first frame whole;
* `faithful_run`             the law, over any run whose steps at the relay are `Steady`.
-/

namespace ShadowLan

/-- what was written, as bytes -/
def wireOf (out : List Piece) : Bytes := out.flatMap Piece.bytes

structure Tunnel where
  relay : Stream
  player : Bridge
  /-- the handler of each connection that joins -/
  hosts : Nat → Bridge

namespace Tunnel

/-- the stream and its game port, the node of the player, and the node and the ports of each host -/
structure Parties where
  sid : Nat
  player : Nat
  rport : Nat
  host : Nat → Nat
  ports : Nat → PortMap

inductive Act where
  | relay (l : Stream.Label)
  | player (a : Bridge.Act)
  | host (c : Nat) (a : Bridge.Act)
  deriving DecidableEq

section
variable (P : Parties)

def stopen : Piece := Bridge.stopen P.player P.sid P.rport

def stjoin (c : Nat) : Piece := Bridge.stjoin (P.host c) P.sid

/-- the relay gets what the other end wrote: behind its first frame, which the relay has read -/
def relayGets (t : Tunnel) : Stream.Label → Prop
  | .net .opener (.arrive d) =>
    (stopen P).bytes ++ ((t.relay.conns .opener).sent ++ d) <+: wireOf t.player.relay.out
  | .net (.joinee c) (.arrive d) =>
    (stjoin P c).bytes ++ ((t.relay.conns (.joinee c)).sent ++ d) <+: wireOf (t.hosts c).relay.out
  | .stjoin c payload => frame T_STJOIN payload <+: wireOf (t.hosts c).relay.out
  | _ => True

/-- a handler gets what the relay wrote -/
def handlerGets (b : Bridge) (out : List Piece) : Bridge.Act → Prop
  | .net .relay (.arrive d) => b.relay.sent ++ d <+: wireOf out
  | _ => True

instance (t : Tunnel) : (l : Stream.Label) → Decidable (relayGets P t l)
  | .net .opener (.arrive _) | .net (.joinee _) (.arrive _) | .stjoin .. =>
    inferInstanceAs (Decidable (_ <+: _))
  | .net .opener .fin | .net .opener .die | .net .opener .fatal | .net .opener (.lost _)
  | .net .opener (.buffer ..) | .net (.joinee _) .fin | .net (.joinee _) .die
  | .net (.joinee _) .fatal | .net (.joinee _) (.lost _) | .net (.joinee _) (.buffer ..)
  | .wake _ | .expire _ | .pump .. | .stshut _ | .hostClaim .. | .popped | .strayGrant
  | .strayPipe => instDecidableTrue

instance (b : Bridge) (out : List Piece) : (a : Bridge.Act) → Decidable (handlerGets b out a)
  | .net .relay (.arrive _) => inferInstanceAs (Decidable (_ <+: _))
  | .net .relay .fin | .net .relay .die | .net .relay .fatal | .net .relay (.lost _)
  | .net .relay (.buffer ..) | .net .game _ | .connected | .refused | .wake | .expire | .pump _ =>
    instDecidableTrue

def step (t : Tunnel) : Act → Option Tunnel
  | .relay l => if relayGets P t l then (t.relay.step l).map fun s => { t with relay := s } else none
  | .player a =>
    if handlerGets t.player (t.relay.conns .opener).out a then
      (t.player.on_accept P.player P.sid P.rport a).map fun b => { t with player := b }
    else none
  | .host c a =>
    if handlerGets (t.hosts c) (t.relay.conns (.joinee c)).out a then
      ((t.hosts c).stream_join (P.host c) P.sid (P.ports c) P.rport a).map fun b =>
        { t with hosts := Function.update t.hosts c b }
    else none

/-- a stream of the player to node `dest`, 0 for whoever serves the port -/
def start (dest : Nat) : Tunnel :=
  ⟨.opened P.sid P.player dest, .accepted, fun _ => .joining⟩

/-- the condition on a step: `Stream.Steady` at the relay -/
def Steady (t : Tunnel) : Act → Prop
  | .relay l => t.relay.Steady l
  | _ => True

instance (t : Tunnel) : (a : Act) → Decidable (Steady t a)
  | .relay l => inferInstanceAs (Decidable (t.relay.Steady l))
  | .player _ | .host .. => instDecidableTrue

end

structure Faithful (t : Tunnel) : Prop where
  /-- one host at most dials its game, and the relay has granted it the stream -/
  one : ∀ c, (t.hosts c).dials ≠ [] → t.relay.joiner = some c
  /-- a host's game gets bytes of the player's game alone, from the first on and in order -/
  there : ∀ c, (∀ o ∈ (t.hosts c).game.out, o.isRaw) ∧
    rawOf (t.hosts c).game.out <+: t.player.game.sent
  /-- the player's game gets bytes of the game that was dialed alone, from the first on and in order -/
  back : (∀ o ∈ t.player.game.out, o.isRaw) ∧ (rawOf t.player.game.out ≠ [] →
    ∃ c, t.relay.joiner = some c ∧ rawOf t.player.game.out <+: (t.hosts c).game.sent)

/-! ## bytes on the wire -/

theorem wireOf_append (l l' : List Piece) : wireOf (l ++ l') = wireOf l ++ wireOf l' :=
  List.flatMap_append ..

theorem wireOf_mono {l l' : List Piece} (h : l <+: l') : wireOf l <+: wireOf l' := by
  obtain ⟨r, rfl⟩ := h
  rw [wireOf_append]
  exact List.prefix_append _ _

theorem wireOf_raw {l : List Piece} (h : ∀ o ∈ l, o.isRaw) : wireOf l = rawOf l := by
  induction l with
  | nil => rfl
  | cons o l ih =>
    have ho := h o List.mem_cons_self
    have hl := ih fun p hp => h p (List.mem_cons_of_mem _ hp)
    cases o with
    | frame t p => exact absurd ho id
    | raw d =>
      show d ++ wireOf l = d ++ rawOf l
      rw [hl]

theorem wireOf_frame (t : UInt8) (p : Bytes) (l : List Piece) :
    wireOf (.frame t p :: l) = packI (1 + p.length) ++ (t :: p ++ wireOf l) := by
  show ShadowLan.frame t p ++ wireOf l = _
  rw [ShadowLan.frame, List.append_assoc]

/-- the first frame that a handler reads is the first one written -/
theorem first_frame {t t' : UInt8} {p p' h r z : Bytes} {l : List Piece} (hl : h.length = 4)
    (he : h ++ t :: p ++ r ++ z = wireOf (.frame t' p' :: l)) :
    h = packI (1 + p'.length) ∧ t = t' ∧ p ++ (r ++ z) = p' ++ wireOf l := by
  rw [wireOf_frame] at he
  have he' : h ++ (t :: (p ++ (r ++ z))) = packI (1 + p'.length) ++ (t' :: (p' ++ wireOf l)) := by
    simpa using he
  obtain ⟨h1, h2⟩ := List.append_inj he' (by rw [hl]; rfl)
  obtain ⟨h3, h4⟩ := List.cons.inj h2
  exact ⟨h1, h3, h4⟩

/-- **The verdict is heard right.**  A handler that has read a frame of type `T_STOK` from a
connection of the relay has read the first frame on it, which is the verdict on this stream; what
follows is raw. -/
theorem stok_first {out : List Piece} {sid : Nat} (hown : ∀ o ∈ out, Stream.Own sid o)
    (hs : Plain out ∨ Opened out) {h p r : Bytes} (hl : h.length = 4)
    (hu : unpackI h = some (1 + p.length)) (hp : h ++ T_STOK :: p ++ r <+: wireOf out) :
    ∃ post, out = .frame T_STOK (encode_stsid sid) :: post ∧ r <+: rawOf post := by
  obtain ⟨z, hz⟩ := hp
  cases out with
  | nil =>
    have hlen := congrArg List.length hz
    simp [wireOf, hl] at hlen
  | cons o post =>
    have hfirst : ∃ q, o = .frame T_STOK q := by
      cases o with
      | frame t q => exact ⟨q, by rw [(first_frame hl hz).2.1]⟩
      | raw d =>
        rcases hs with hs | ⟨pre, q, rest, he, hpre, -⟩
        · exact absurd (hs _ List.mem_cons_self) id
        · cases pre with
          | nil => exact absurd (List.cons.inj he).1 (by simp)
          | cons x pre =>
            have hx := hpre x List.mem_cons_self
            rw [← (List.cons.inj he).1] at hx
            exact absurd hx id
    obtain ⟨q, rfl⟩ := hfirst
    obtain ⟨hh, -, hrest⟩ := first_frame hl hz
    have hq : q = encode_stsid sid := by
      rcases hown _ List.mem_cons_self with ⟨-, hq⟩ | hq
      · exact hq
      · exact absurd hq (by decide)
    have hraw : ∀ o ∈ post, o.isRaw := by
      rcases hs with hs | hs
      · exact absurd rfl (hs _ List.mem_cons_self)
      · have hsplit : Piece.frame T_STOK q :: post = [] ++ Piece.frame T_STOK q :: post := rfl
        exact (hs.split hsplit).1
    have hlen : p.length = q.length := by
      have h4 : q.length = 4 := by rw [hq]; rfl
      rw [hh, unpackI_packI_lt (by omega)] at hu
      have h1 := Option.some.inj hu
      omega
    obtain ⟨-, hrz⟩ := List.append_inj hrest hlen
    exact ⟨post, by rw [hq], z, by rw [hrz, wireOf_raw hraw]⟩

/-! ## the invariant -/

variable {P : Parties} {t t' : Tunnel}

/-- nothing came in, or what came in is behind the first frame that the other end wrote -/
def Arrived (hello : Piece) (sent : Bytes) (out : List Piece) : Prop :=
  sent = [] ∨ hello.bytes ++ sent <+: wireOf out

structure Sane (P : Parties) (t : Tunnel) : Prop where
  sid : t.relay.sid = P.sid
  clear : t.relay.Clear
  own : ∀ w, ∀ o ∈ (t.relay.conns w).out, Stream.Own P.sid o
  player : Bridge.Proxied P.player P.sid P.rport t.player
  hosts : ∀ c, Bridge.Hosted (P.host c) P.sid ((P.ports c).toLocal P.rport) (t.hosts c)
  toPlayer : t.player.relay.sent <+: wireOf (t.relay.conns .opener).out
  toHost : ∀ c, (t.hosts c).relay.sent <+: wireOf (t.relay.conns (.joinee c)).out
  fromPlayer : Arrived (stopen P) (t.relay.conns .opener).sent t.player.relay.out
  fromHost : ∀ c, Arrived (stjoin P c) (t.relay.conns (.joinee c)).sent (t.hosts c).relay.out

theorem Arrived.grows {hello : Piece} {sent : Bytes} {out out' : List Piece}
    (h : Arrived hello sent out) (ho : out <+: out') : Arrived hello sent out' :=
  h.imp_right fun hp => hp.trans (wireOf_mono ho)

theorem shape_cases {s : Stream} (h : s.Clear) (w : Who) :
    Plain (s.conns w).out ∨ Opened (s.conns w).out ∧ ∀ c, w = .joinee c → s.joiner = some c := by
  have hs := h.shape w
  cases w with
  | opener => exact hs.imp_right fun hx => ⟨hx.2, nofun⟩
  | joinee c =>
    refine hs.imp_right fun hx => ⟨hx.2, fun c' he => ?_⟩
    rw [← Who.joinee.inj he]
    exact hx.1

/-- what a handler has heard behind `T_STOK` -/
theorem Sane.heard (h : Sane P t) {w : Who} {b : Bridge} {x : Bytes}
    (hw : b.relay.sent <+: wireOf (t.relay.conns w).out) (hx : b.Heard x) :
    ∃ post, (t.relay.conns w).out = .frame T_STOK (encode_stsid P.sid) :: post ∧
      x <+: rawOf post := by
  obtain ⟨d, p, h1, h2, h3⟩ := hx
  have hs : Plain (t.relay.conns w).out ∨ Opened (t.relay.conns w).out :=
    (shape_cases h.clear w).imp_right And.left
  rw [h3] at hw
  obtain ⟨post, h4, h5⟩ := stok_first (h.own w) hs h1 h2 hw
  exact ⟨post, h4, (List.prefix_append x _).trans h5⟩

/-- a host that has heard `T_STOK` holds the stream -/
theorem Sane.joiner (h : Sane P t) {c : Nat} {x : Bytes} (hx : (t.hosts c).Heard x) :
    t.relay.joiner = some c := by
  obtain ⟨post, hout, -⟩ := h.heard (h.toHost c) hx
  rcases shape_cases h.clear (.joinee c) with hp | ⟨-, hj⟩
  · rw [← List.nil_append (Piece.frame T_STOK _ :: post)] at hout
    exact (hp.no_stok hout).elim
  · exact hj c rfl

/-- what the relay got from the player is the player's game -/
theorem Sane.fromGame (h : Sane P t) : (t.relay.conns .opener).sent <+: t.player.game.sent := by
  rcases h.fromPlayer with he | hp
  · rw [he]
    exact List.nil_prefix
  have hsaid : ∃ ds, (∀ o ∈ ds, o.isRaw) ∧ t.player.relay.out <+: [stopen P] ++ ds ∧
      rawOf ds <+: t.player.game.sent := by
    cases h.player with
    | idle h _ => exact ⟨[], fun _ h => absurd h List.not_mem_nil, by simp [h.relay, Tcp.fresh],
        List.nil_prefix⟩
    | asking h _ => exact ⟨[], fun _ h => absurd h List.not_mem_nil, by
        rw [List.append_nil]
        exact h.said.initial, List.nil_prefix⟩
    | piped h _ => exact h.said
  obtain ⟨ds, hraw, hout, hds⟩ := hsaid
  have hw := hp.trans (wireOf_mono hout)
  rw [wireOf_append, wireOf_raw hraw] at hw
  have hone : wireOf [stopen P] = (stopen P).bytes := by simp [wireOf]
  rw [hone] at hw
  exact ((List.prefix_append_right_inj _).mp hw).trans hds

/-- what the relay got from a host, behind `T_STJOINED`, is the host's game -/
theorem Sane.fromHosted (h : Sane P t) (c : Nat) :
    behindJoined (t.relay.conns (.joinee c)).sent <+: (t.hosts c).game.sent := by
  have hempty : ∀ b : Bytes, behindJoined b = [] → behindJoined b <+: (t.hosts c).game.sent := by
    intro b hb
    rw [hb]
    exact List.nil_prefix
  rcases h.fromHost c with he | hp
  · rw [he]
    exact hempty _ rfl
  -- what is behind `T_STJOIN`: nothing, `T_STFAIL`, or `T_STJOINED` and the game
  have hcut : ∀ l : List Piece, (t.hosts c).relay.out <+: stjoin P c :: l →
      behindJoined (t.relay.conns (.joinee c)).sent <+: behindJoined (wireOf l) := by
    intro l hl
    have hw := hp.trans (wireOf_mono hl)
    have hone : wireOf (stjoin P c :: l) = (stjoin P c).bytes ++ wireOf l := rfl
    rw [hone] at hw
    obtain ⟨r, hr⟩ := (List.prefix_append_right_inj _).mp hw
    rw [← hr]
    exact behindJoined_append _ _
  rcases (h.hosts c).law.said with hs | ⟨ds, hraw, hs, hds⟩
  · have hb : behindJoined (wireOf [Bridge.hostFailed P.sid]) = [] := by
      have hone : wireOf [Bridge.hostFailed P.sid] = frame T_STFAIL
          (encode_stfail P.sid STF_HOST_FAILED) ++ [] := rfl
      unfold behindJoined
      rw [hone, tcpRead_frame _ (by simp [encode_stfail, packI])]
      rfl
    have hc := hcut _ hs
    rw [hb] at hc
    exact hempty _ (List.prefix_nil.mp hc)
  · have hb : behindJoined (wireOf (Bridge.stjoined P.sid :: ds)) = rawOf ds := by
      have hone : wireOf (Bridge.stjoined P.sid :: ds) = frame T_STJOINED
          (encode_stsid P.sid) ++ wireOf ds := rfl
      unfold behindJoined
      rw [hone, tcpRead_frame _ (by simp [encode_stsid, packI]), ← wireOf_raw hraw]
      rfl
    have hc := hcut _ hs
    rw [hb] at hc
    exact hc.trans hds

theorem Sane.faithful (h : Sane P t) : t.Faithful where
  one c hc := by
    obtain ⟨n, -, hn, hx⟩ := (h.hosts c).law.dialed
    have hpos : 0 < n := by
      rcases Nat.eq_zero_or_pos n with rfl | hpos
      · exact absurd hn hc
      · exact hpos
    obtain ⟨x, hx⟩ := hx hpos
    exact h.joiner hx
  there c := by
    obtain ⟨hraw, hgiven⟩ := (h.hosts c).law.given
    refine ⟨hraw, ?_⟩
    by_cases he : rawOf (t.hosts c).game.out = []
    · rw [he]
      exact List.nil_prefix
    · obtain ⟨x, hx, hp⟩ := hgiven he
      obtain ⟨post, hout, hxp⟩ := h.heard (h.toHost c) hx
      have ht := h.clear.transparent.joinee c _ [] post hout
      exact ((hp.trans hxp).trans ht.2).trans h.fromGame
  back := by
    have hgiven : (∀ o ∈ t.player.game.out, o.isRaw) ∧ (rawOf t.player.game.out ≠ [] →
        ∃ x, t.player.Heard x ∧ rawOf t.player.game.out <+: x) := by
      cases h.player with
      | idle _ hg | asking _ hg =>
        rw [hg.out]
        exact ⟨fun _ h => absurd h List.not_mem_nil, fun h => absurd rfl h⟩
      | piped h _ => exact ⟨h.given.1, fun _ => h.given.2⟩
    refine ⟨hgiven.1, fun he => ?_⟩
    obtain ⟨x, hx, hp⟩ := hgiven.2 he
    obtain ⟨post, hout, hxp⟩ := h.heard h.toPlayer hx
    obtain ⟨-, c, hc, hpost⟩ := h.clear.transparent.opener _ [] post hout
    exact ⟨c, hc, ((hp.trans hxp).trans hpost).trans (h.fromHosted c)⟩

/-! ## steps -/

theorem Sane.relay_step (h : Sane P t) {l : Stream.Label} (hg : relayGets P t l)
    (hok : t.relay.Steady l) {s : Stream} (hs : t.relay.step l = some s) :
    Sane P { t with relay := s } := by
  have hclear := Stream.clear_step h.clear hok hs
  by_cases hl : ∃ w d, l = .net w (.arrive d)
  · -- bytes come in on one connection, and nothing else changes
    obtain ⟨w, d, rfl⟩ := hl
    obtain ⟨k, hk, rfl⟩ := Option.map_eq_some_iff.mp hs
    obtain ⟨-, hk⟩ := Option.ite_none_left_eq_some.mp hk
    have hk' := (Option.some.inj hk).symm
    have hout : ∀ w', ((t.relay.setConn w k).conns w').out = (t.relay.conns w').out := by
      intro w'
      by_cases he : w' = w
      · rw [he, Stream.setConn_self, hk']
      · rw [Stream.setConn_other _ he]
    refine ⟨h.sid, hclear, ?_, h.player, h.hosts, ?_, ?_, ?_, ?_⟩
    · intro w'
      rw [hout]
      exact h.own w'
    · rw [hout]
      exact h.toPlayer
    · intro c
      rw [hout]
      exact h.toHost c
    · cases w with
      | opener =>
        rw [Stream.setConn_self, hk']
        exact Or.inr hg
      | joinee c =>
        rw [Stream.setConn_other _ (by simp)]
        exact h.fromPlayer
    · intro c
      by_cases he : Who.joinee c = w
      · subst he
        rw [Stream.setConn_self, hk']
        exact Or.inr hg
      · rw [Stream.setConn_other _ he]
        exact h.fromHost c
  · have hsaid := Stream.says_step hs fun w d he => hl ⟨w, d, he⟩
    have hout : ∀ w, (t.relay.conns w).out <+: (s.conns w).out := by
      intro w
      obtain ⟨x, hx, -⟩ := hsaid.out w
      rw [hx]
      exact List.prefix_append _ _
    refine ⟨hsaid.sid.trans h.sid, hclear, ?_, h.player, h.hosts, ?_, ?_, ?_, ?_⟩
    · intro w o ho
      obtain ⟨x, hx, hown⟩ := hsaid.out w
      rw [hx] at ho
      rcases List.mem_append.mp ho with ho | ho
      · exact h.own w o ho
      · rw [← h.sid]
        exact hown o ho
    · exact h.toPlayer.trans (wireOf_mono (hout .opener))
    · exact fun c => (h.toHost c).trans (wireOf_mono (hout (.joinee c)))
    · show Arrived _ (s.conns .opener).sent _
      rw [hsaid.sent]
      exact h.fromPlayer
    · intro c
      show Arrived _ (s.conns (.joinee c)).sent _
      rw [hsaid.sent]
      exact h.fromHost c

/-- a step of a handler: it has got what the relay wrote, and says more -/
theorem handler_step {b b' : Bridge} {out : List Piece} {a : Bridge.Act}
    (hg : handlerGets b out a) (hsent : b.relay.sent <+: wireOf out)
    (hgrow : b.relay.out <+: b'.relay.out ∧ (b'.relay.sent = b.relay.sent ∨
      ∃ d, a = .net .relay (.arrive d) ∧ b'.relay.sent = b.relay.sent ++ d)) :
    b'.relay.sent <+: wireOf out ∧ b.relay.out <+: b'.relay.out := by
  refine ⟨?_, hgrow.1⟩
  rcases hgrow.2 with he | ⟨d, rfl, he⟩
  · rw [he]
    exact hsent
  · rw [he]
    exact hg

theorem sane_step {a : Act} (h : Sane P t) (hok : Steady t a) (hs : step P t a = some t') :
    Sane P t' := by
  cases a with
  | relay l =>
    obtain ⟨hg, hs⟩ := Option.ite_none_right_eq_some.mp hs
    obtain ⟨s, hr, rfl⟩ := Option.map_eq_some_iff.mp hs
    exact h.relay_step hg hok hr
  | player a =>
    obtain ⟨hg, hs⟩ := Option.ite_none_right_eq_some.mp hs
    obtain ⟨b, hb, rfl⟩ := Option.map_eq_some_iff.mp hs
    obtain ⟨h1, h2⟩ := handler_step hg h.toPlayer (Bridge.accept_grown h.player hb)
    exact ⟨h.sid, h.clear, h.own, Bridge.proxied_step h.player hb, h.hosts, h1, h.toHost,
      h.fromPlayer.grows h2, h.fromHost⟩
  | host c a =>
    obtain ⟨hg, hs⟩ := Option.ite_none_right_eq_some.mp hs
    obtain ⟨b, hb, rfl⟩ := Option.map_eq_some_iff.mp hs
    obtain ⟨h1, h2⟩ := handler_step hg (h.toHost c) (Bridge.join_grown (h.hosts c) hb)
    have hself : Function.update t.hosts c b c = b := Function.update_self ..
    refine ⟨h.sid, h.clear, h.own, h.player, ?_, h.toPlayer, ?_, h.fromPlayer, ?_⟩ <;>
      intro c' <;> by_cases he : c' = c
    · rw [he]
      show Bridge.Hosted _ _ _ (Function.update t.hosts c b c)
      rw [hself]
      exact Bridge.hosted_step (h.hosts c) hb
    · show Bridge.Hosted _ _ _ (Function.update t.hosts c b c')
      rw [Function.update_of_ne he]
      exact h.hosts c'
    · rw [he]
      show (Function.update t.hosts c b c).relay.sent <+: _
      rw [hself]
      exact h1
    · show (Function.update t.hosts c b c').relay.sent <+: _
      rw [Function.update_of_ne he]
      exact h.toHost c'
    · rw [he]
      show Arrived _ _ (Function.update t.hosts c b c).relay.out
      rw [hself]
      exact (h.fromHost c).grows h2
    · show Arrived _ _ (Function.update t.hosts c b c').relay.out
      rw [Function.update_of_ne he]
      exact h.fromHost c'

theorem sane_start (dest : Nat) : Sane P (start P dest) where
  sid := rfl
  clear := Stream.clear_opened _ _ _
  own _ _ ho := absurd ho List.not_mem_nil
  player := Bridge.proxied_accepted
  hosts _ := Bridge.hosted_joining
  toPlayer := List.nil_prefix
  toHost _ := List.nil_prefix
  fromPlayer := Or.inl rfl
  fromHost _ := Or.inl rfl

/-- **The whole way.**  Whatever the order of the parties' steps, the cuts and the failures -/
theorem faithful_run {dest : Nat} {tr : List (Tunnel × Act)}
    (h : Path (step P) (start P dest) tr t) (hok : ∀ x ∈ tr, Steady x.1 x.2) : t.Faithful :=
  (h.inv_of_ok (sane_start dest) (fun _ _ _ hi ho hs => sane_step hi ho hs) hok).faithful

def lobby : Parties := ⟨9, 7, 2300, fun _ => 8, fun _ => Bridge.moved⟩

/-- a host of node 8 takes the stream, and the games say a word each -/
def oneWordEach : List Act :=
  let stok := frame T_STOK [0, 0, 0, 9]
  [.player .connected, .host 0 .connected, .relay (.stjoin 0 [0, 0, 0, 8, 0, 0, 0, 9]),
   .relay (.wake 1), .host 0 (.net .relay (.arrive stok)), .host 0 .wake, .host 0 .wake,
   .host 0 .connected, .relay (.wake 1),
   .relay (.net (.joinee 0) (.arrive (frame T_STJOINED [0, 0, 0, 9]))), .relay (.wake 1),
   .relay (.wake 0), .player (.net .relay (.arrive stok)), .player .wake, .player .wake,
   .player (.net .game (.arrive [1, 2])), .player (.pump true),
   .relay (.net .opener (.arrive [1, 2])), .relay (.pump 0 false),
   .host 0 (.net .relay (.arrive [1, 2])), .host 0 (.pump false),
   .host 0 (.net .game (.arrive [3])), .host 0 (.pump true),
   .relay (.net (.joinee 0) (.arrive [3])), .relay (.pump 0 true),
   .player (.net .relay (.arrive [3])), .player (.pump false)]

set_option maxRecDepth 4000 in
theorem faithful_oneWordEach : ∃ t, run (step lobby) (start lobby 0) oneWordEach = some t ∧
    ((t.hosts 0).game.out = [.raw [1, 2]] ∧ t.player.game.out = [.raw [3]]) ∧ t.Faithful := by
  have hsome : (run (step lobby) (start lobby 0) oneWordEach).isSome = true := by decide
  obtain ⟨t, ht⟩ := Option.isSome_iff_exists.mp hsome
  have hend : ∀ u ∈ run (step lobby) (start lobby 0) oneWordEach,
      (u.hosts 0).game.out = [.raw [1, 2]] ∧ u.player.game.out = [.raw [3]] := by
    decide
  have hok : ∀ x ∈ trace (step lobby) (start lobby 0) oneWordEach, Steady x.1 x.2 := by decide
  exact ⟨t, ht, hend t ht, faithful_run (path_run ht) hok⟩

end Tunnel
end ShadowLan
