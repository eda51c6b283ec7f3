import ShadowLan.Hook.Demux

/-!
# What does a hosted game answer with?

A C2S that comes in for a game hosted here is injected on a loopback socket of its own, the socket
of its session.  The answer goes back either when the hosted thread reads it on that socket, or
when the app sends to the address of the player; both times the S2C is built from a row of `g_us`,
or from the copy of a row that the hosted thread took at the top of its loop.

* `answering`       the session that an event answers for;
* `Asked`           every session has the triple it was asked with in its row;
* `AnswerOk`        the port was not rewritten, the copy is not stale, the row is the right one;
* `hosted_answers`  then every S2C carries the triple that its session was asked with.
-/

namespace ShadowLan

namespace UdpHook

/-! ## sessions -/

/-- the triple that the row of a session makes -/
def sessionTriple (u : DtUsess) : Triple := ⟨u.gamePort, dotted u.cli.addr, u.cli.port⟩

/-- the session on this socket -/
def sessionOfSocket (s : UdpHook) (fd : Nat) : Option (Fin DT_MAXUSESS) :=
  first s.g_us fun u => u.used && u.real == some fd

/-- the session of a client that a socket on port `port` answers for; any of the client when the
socket has none -/
def sessionOfReply (s : UdpHook) (port : Option Nat) (cli : SockaddrIn) :
    Option (Fin DT_MAXUSESS) :=
  (first s.g_us fun u => u.used && u.cli == cli && port == some u.gamePort).or (s.sessionOfClient cli)

/-- the session that the answers of an event are for -/
def answering (s : UdpHook) : UdpAct → Option (Fin DT_MAXUSESS)
  | .forward _ => s.snap.head?.bind fun e => s.sessionOfSocket e.fd
  | .sendto os gsock _ dst => s.sessionOfReply (os.port gsock) dst
  | _ => none

/-- every S2C of the event carries every triple its session was asked with -/
def Answers (s : UdpHook) (a : UdpAct) : Prop :=
  ∀ s' out, s.step a = some (s', out) → ∀ o ∈ out, ∀ b, o.toRelay = some b → udpOp b = U_GAME_S2C →
    ∀ i, s.answering a = some i → ∀ t ∈ s.asked i, ∃ raw, b = encodeUdpGame U_GAME_S2C ⟨t, raw⟩

/-- a datagram for a game whose port is its own, from an address as a hook writes it -/
def PlainC2s (s : UdpHook) (b : Bytes) : Prop :=
  ∀ g ∈ dtGame b, ∀ cli ∈ hostedCli g,
    s.realPort g.triple.gport = g.triple.gport ∧ dotted cli.addr = g.triple.ip

/-- the copy of the session is not stale -/
def FreshCopy (s : UdpHook) : Prop :=
  ∀ e ∈ s.snap.head?, ∀ i ∈ s.sessionOfSocket e.fd,
    (s.g_us i).gamePort = e.gport ∧ (s.g_us i).cli = e.cli

/-- the first session of the client is on the port of the one that answers -/
def FirstAnswers (s : UdpHook) (port : Option Nat) (dst : SockaddrIn) : Prop :=
  ∀ i ∈ s.sessionOfReply port dst, ∀ j ∈ s.sessionOfClient dst,
    (s.g_us i).gamePort = (s.g_us j).gamePort

def AnswerOk (s : UdpHook) : UdpAct → Prop
  | .ingress _ b => udpOp b = U_GAME_C2S → s.PlainC2s b
  | .forward _ => s.FreshCopy
  | .sendto os gsock _ dst => s.FirstAnswers (os.port gsock) dst
  | _ => True

instance (s : UdpHook) (a : UdpAct) : Decidable (s.AnswerOk a) := by
  unfold AnswerOk PlainC2s FreshCopy FirstAnswers
  split <;> infer_instance

/-- every session was asked with its own triple -/
def Asked (s : UdpHook) : Prop :=
  ∀ i, (s.g_us i).used = true → ∀ t ∈ s.asked i, t = sessionTriple (s.g_us i)

theorem asked_init : init.Asked := nofun

/-! ## events that leave the sessions alone -/

structure SameSessions (s t : UdpHook) : Prop where
  g_us : t.g_us = s.g_us
  asked : t.asked = s.asked

theorem SameSessions.trans {s t u : UdpHook} (h : SameSessions s t) (h' : SameSessions t u) :
    SameSessions s u :=
  ⟨h'.g_us.trans h.g_us, h'.asked.trans h.asked⟩

theorem Asked.of_same {s t : UdpHook} (h : s.Asked) (e : SameSessions s t) : t.Asked := by
  unfold Asked
  rw [e.g_us, e.asked]
  exact h

theorem OnlyQueues.sessions {s t : UdpHook} (h : OnlyQueues s t) : SameSessions s t := by
  unfold OnlyQueues at h
  rw [h]
  exact ⟨rfl, rfl⟩

theorem sessions_dial (s : UdpHook) (os : Os) (gsock : Nat) (dst : SockaddrIn) (raw : Bytes)
    (frame : UdpGame → Bytes) : SameSessions s (s.dial os gsock dst raw frame).1 := by
  have h : SameSessions s (s.slotGet gsock dst.port dst).1 := by
    unfold slotGet
    exact ⟨rfl, rfl⟩
  unfold dial
  revert h
  generalize s.slotGet gsock dst.port dst = r
  obtain ⟨u, i?⟩ := r
  intro h
  cases i? with
  | none => exact h
  | some i =>
    have hsport : SameSessions u (u.sportPresentation os gsock).1 := by
      unfold sportPresentation
      cases u.g_ta.vport gsock with
      | some sv => exact ⟨rfl, rfl⟩
      | none =>
        cases os.port gsock with
        | none => exact ⟨rfl, rfl⟩
        | some p =>
          dsimp only
          generalize (if p = 0 then os.autobind else p) = q
          split <;> exact ⟨rfl, rfl⟩
    dsimp only
    revert hsport
    generalize u.sportPresentation os gsock = r
    obtain ⟨v, sp?⟩ := r
    intro hsport
    cases sp? with
    | none => exact h.trans hsport
    | some sp =>
      have hc := (v.queues_udpCreate gsock).sessions
      exact (h.trans hsport).trans ⟨hc.g_us, hc.asked⟩

theorem sessions_onSendto (s : UdpHook) (os : Os) (gsock : Nat) (buf : Bytes) (dst : SockaddrIn) :
    SameSessions s (s.onSendto os gsock buf dst).1 := by
  unfold onSendto
  dsimp only
  split
  · exact ⟨rfl, rfl⟩
  · split
    · split
      · split
        · exact ⟨rfl, rfl⟩
        · exact (s.queues_directUdpIn ..).sessions
      · cases s.sessionOfClient dst with
        | some i => exact ⟨rfl, rfl⟩
        | none => exact s.sessions_dial ..
    · split
      · exact ⟨rfl, rfl⟩
      · split
        · refine (s.queues_udpCreate gsock).sessions.trans ?_
          unfold bcastEcho
          split
          · exact (queues_directUdpIn ..).sessions
          · split
            · split
              · exact ⟨rfl, rfl⟩
              · exact (queues_directUdpIn ..).sessions
            · exact ⟨rfl, rfl⟩
        · exact s.sessions_dial ..

/-! ## a C2S comes in -/

theorem usessAt_some {s : UdpHook} {gport : Nat} {cli : SockaddrIn} {i : Fin DT_MAXUSESS}
    (h : s.usessAt gport cli = some i) : (s.g_us i).gamePort = gport ∧ (s.g_us i).cli = cli := by
  have hi := first_mem h
  simp only [Bool.and_eq_true, beq_iff_eq] at hi
  exact ⟨hi.1.2, hi.2⟩

/-- a slot that was tried in vain is unused, and the one that worked is the new session -/
theorem usessCreate_used {s : UdpHook} {os : Os} {gport ovirt : Nat} {cli : SockaddrIn}
    {j : Fin DT_MAXUSESS} (h : (s.usessCreate os gport ovirt cli j).used = true) :
    s.usessSlot os = some j ∧ s.usessCreate os gport ovirt cli j
        = ⟨true, gport, cli, 0, ovirt, os.socket j, s.now⟩ ∨
      s.usessSlot os ≠ some j ∧ s.usessCreate os gport ovirt cli j = s.g_us j := by
  unfold usessCreate at h ⊢
  by_cases hc : s.usessFree (s.g_us j) ∧ ∀ k ∈ s.usessSlot os, j ≤ k
  · rw [if_pos hc] at h
    change (os.socket j).isSome = true at h
    rw [if_pos hc, h]
    refine Or.inl ⟨?_, rfl⟩
    unfold usessSlot at hc ⊢
    rw [Fin.find?_eq_some_iff]
    refine ⟨by rw [hc.1, h]; rfl, fun k hk => ?_⟩
    by_contra hno
    cases hf : Fin.find? (fun i => s.usessFree (s.g_us i) && (os.socket i).isSome) with
    | none =>
      rw [Fin.find?_eq_none_iff] at hf
      exact hno (by simpa using hf k)
    | some m =>
      have hm := Fin.find?_eq_some_iff.mp hf
      have hkm : m ≤ k := by
        by_contra hlt
        exact hno (by simpa using hm.2 k (not_le.mp hlt))
      exact absurd (hc.2 m hf) (not_le.mpr (lt_of_le_of_lt hkm hk))
  · rw [if_neg hc]
    refine Or.inr ⟨?_, rfl⟩
    intro hj
    apply hc
    have hm := Fin.find?_eq_some_iff.mp hj
    refine ⟨(Bool.and_eq_true_iff.mp hm.1).1, fun k hk => ?_⟩
    rw [hj] at hk
    exact (Option.some.inj hk).le

theorem asked_usessFind {s : UdpHook} (h : s.Asked) (os : Os) {gport ovirt : Nat}
    {cli : SockaddrIn} {t : Triple} (ht : t = ⟨gport, dotted cli.addr, cli.port⟩) :
    (s.usessFind os gport ovirt cli t).1.Asked := by
  unfold usessFind
  cases hat : s.usessAt gport cli with
  | some i =>
    obtain ⟨hg, hc⟩ := usessAt_some hat
    intro j hj t' ht'
    change (Function.update s.g_us i _ j).used = true at hj
    change t' ∈ Function.update s.asked i (t :: s.asked i) j at ht'
    show t' = sessionTriple (Function.update s.g_us i _ j)
    by_cases hji : j = i
    · subst hji
      rw [Function.update_self] at hj ht' ⊢
      rcases List.mem_cons.mp ht' with e | ht'
      · rw [e, ht]
        show _ = Triple.mk (s.g_us j).gamePort (dotted (s.g_us j).cli.addr) (s.g_us j).cli.port
        rw [hg, hc]
      · exact h j hj t' ht'
    · rw [Function.update_of_ne hji] at hj ht' ⊢
      exact h j hj t' ht'
  | none =>
    dsimp only
    cases hs : s.usessSlot os with
    | none =>
      intro j hj t' ht'
      change (s.usessCreate os gport ovirt cli j).used = true at hj
      rcases usessCreate_used hj with ⟨e, -⟩ | ⟨-, e⟩
      · rw [hs] at e
        cases e
      · rw [e] at hj
        show t' = sessionTriple (s.usessCreate os gport ovirt cli j)
        rw [e]
        exact h j hj t' ht'
    | some i =>
      intro j hj t' ht'
      change (s.usessCreate os gport ovirt cli j).used = true at hj
      change t' ∈ Function.update s.asked i [t] j at ht'
      show t' = sessionTriple (s.usessCreate os gport ovirt cli j)
      rcases usessCreate_used hj with ⟨e, hnew⟩ | ⟨e, hold⟩
      · rw [hs] at e
        rw [Option.some.inj e, Function.update_self, List.mem_singleton] at ht'
        rw [hnew, ht', ht]
        rfl
      · have hji : j ≠ i := by
          rintro rfl
          exact e hs
        rw [Function.update_of_ne hji] at ht'
        rw [hold] at hj ⊢
        exact h j hj t' ht'

/-- a row keeps its session when only the time stamps and ports beside it change -/
theorem asked_touch {s : UdpHook} (g_us : Fin DT_MAXUSESS → DtUsess) (h : s.Asked)
    (hu : ∀ j, (g_us j).used = true →
      (s.g_us j).used = true ∧ sessionTriple (g_us j) = sessionTriple (s.g_us j)) :
    ({ s with g_us := g_us } : UdpHook).Asked := by
  intro j hj t ht
  obtain ⟨h1, h2⟩ := hu j hj
  show t = sessionTriple (g_us j)
  rw [h2]
  exact h j h1 t ht

theorem asked_update {s : UdpHook} (h : s.Asked) {i : Fin DT_MAXUSESS} {u : DtUsess}
    (hu : u.used = (s.g_us i).used) (ht : sessionTriple u = sessionTriple (s.g_us i)) :
    ({ s with g_us := Function.update s.g_us i u } : UdpHook).Asked := by
  apply asked_touch _ h
  intro j hj
  by_cases hji : j = i
  · subst hji
    rw [Function.update_self] at hj ⊢
    exact ⟨hu ▸ hj, ht⟩
  · rw [Function.update_of_ne hji] at hj ⊢
    exact ⟨hj, rfl⟩

theorem hostedCli_port {g : UdpGame} {cli : SockaddrIn} (h : hostedCli g = some cli) :
    cli.port = g.triple.cport := by
  unfold hostedCli at h
  obtain ⟨-, h⟩ := Option.ite_none_left_eq_some.mp h
  obtain ⟨addr, -, e⟩ := Option.map_eq_some_iff.mp h
  rw [← e]

theorem asked_hostedUdpIn {s : UdpHook} (h : s.Asked) (os : Os) {g : UdpGame}
    (hok : ∀ cli, hostedCli g = some cli →
      s.realPort g.triple.gport = g.triple.gport ∧ dotted cli.addr = g.triple.ip) :
    (s.hostedUdpIn os g).1.Asked := by
  unfold hostedUdpIn
  cases hc : hostedCli g with
  | none => exact h
  | some cli =>
    obtain ⟨hport, hip⟩ := hok cli hc
    have hfind : (s.usessFind os (s.realPort g.triple.gport) cli.addr cli g.triple).1.Asked := by
      apply asked_usessFind h
      rw [hport, hip, hostedCli_port hc]
    dsimp only
    revert hfind
    generalize s.usessFind os (s.realPort g.triple.gport) cli.addr cli g.triple = r
    obtain ⟨t, i?⟩ := r
    intro hfind
    cases i? with
    | none => exact hfind
    | some i =>
      dsimp only
      cases (t.g_us i).real with
      | none => exact asked_update hfind rfl rfl
      | some fd => exact asked_update hfind rfl rfl

theorem asked_udpIngress {s : UdpHook} (h : s.Asked) (os : Os) {b : Bytes}
    (hok : udpOp b = U_GAME_C2S → s.PlainC2s b) : (s.udpIngress os b).1.Asked := by
  unfold udpIngress
  by_cases hhead : udpHeaderOk b 10 = true
  · rw [if_neg (fun hn => hn hhead)]
    by_cases hc2s : udpOp b = U_GAME_C2S
    · rw [if_pos hc2s]
      cases hg : dtGame b with
      | none => exact h
      | some g =>
        have hin := asked_hostedUdpIn h os (hok hc2s g hg)
        dsimp only
        unfold c2sIn
        revert hin
        generalize s.hostedUdpIn os g = r
        obtain ⟨t, hosted, out⟩ := r
        intro hin
        cases hosted with
        | true => exact hin
        | false => exact hin.of_same (t.queues_directUdpIn ..).sessions
    · rw [if_neg hc2s]
      split
      · exact h.of_same (queues_ping os.ping s).sessions
      · split
        · cases dtGame b with
          | none => exact h
          | some g =>
            unfold s2cIn
            dsimp only
            cases s.flowRow g.triple.gport g.triple.cport with
            | none => exact h
            | some i => exact h.of_same (s.queues_udpPush _ _).sessions
        · exact h
  · rw [if_pos hhead]
    exact h

/-! ## every event -/

theorem asked_step {s s' : UdpHook} {a : UdpAct} {out : List HookOut} (h : s.Asked)
    (hok : s.AnswerOk a) (hstep : s.step a = some (s', out)) : s'.Asked := by
  have hs := hstep
  unfold step at hs
  obtain ⟨-, hs⟩ := Option.ite_none_right_eq_some.mp hs
  cases a with
  | ingress os b =>
    have hi := asked_udpIngress h os hok
    rw [Option.some.inj hs] at hi
    exact hi
  | sendto os gsock buf dst =>
    cases hs
    exact h.of_same (s.sessions_onSendto os gsock buf dst)
  | sweep =>
    cases hs
    have hlive := asked_touch (fun i =>
      if ((s.g_us i).used && (s.g_us i).real.isSome && s.now - (s.g_us i).last ≤ USESS_IDLE) = true
      then s.g_us i else { s.g_us i with used := false }) h ?_
    · exact hlive
    · intro j hj
      dsimp only at hj ⊢
      split at hj
      · next hl => rw [if_pos hl]; exact ⟨hj, rfl⟩
      · cases hj
  | forward raw =>
    obtain ⟨e, rest, -, he⟩ := step_forward hstep
    cases he
    have htouch := asked_touch (fun i =>
      if i = e.slot ∧ (s.g_us i).used then { s.g_us i with last := s.now } else s.g_us i) h ?_
    · exact htouch
    · intro j hj
      dsimp only at hj ⊢
      split at hj
      · next hl => rw [if_pos hl]; exact ⟨hl.2, rfl⟩
      · next hl => rw [if_neg hl]; exact ⟨hj, rfl⟩
  | ensure sock vport =>
    cases hs
    exact h.of_same (s.queues_ensure sock vport).sessions
  | recv gsock blen =>
    cases hs
    exact h.of_same (s.queues_udpPop gsock blen).sessions
  | skip =>
    obtain ⟨rest, rfl⟩ := step_skip hstep
    exact h.of_same ⟨rfl, rfl⟩
  | net n => cases hs; exact h.of_same ⟨rfl, rfl⟩
  | bind sock vport real proto => cases hs; exact h.of_same ⟨rfl, rfl⟩
  | close gsock => cases hs; exact h.of_same ⟨rfl, rfl⟩
  | tick ms => cases hs; exact h.of_same ⟨rfl, rfl⟩

theorem sessionReply_eq {s : UdpHook} {i : Fin DT_MAXUSESS} {gport : Nat} {cli : SockaddrIn}
    {t : Triple} (h : t = sessionTriple (s.g_us i)) (hg : (s.g_us i).gamePort = gport)
    (hc : (s.g_us i).cli = cli) (raw : Bytes) :
    sessionReply gport cli raw = encodeUdpGame U_GAME_S2C ⟨t, raw⟩ := by
  rw [h, ← hg, ← hc]
  rfl

theorem sessionOfClient_some {s : UdpHook} {cli : SockaddrIn} {i : Fin DT_MAXUSESS}
    (h : s.sessionOfClient cli = some i) : (s.g_us i).used = true ∧ (s.g_us i).cli = cli := by
  have hi := first_mem h
  simp only [Bool.and_eq_true, beq_iff_eq] at hi
  exact hi

theorem sessionOfReply_some {s : UdpHook} {port : Option Nat} {cli : SockaddrIn}
    {i : Fin DT_MAXUSESS} (h : s.sessionOfReply port cli = some i) :
    (s.g_us i).used = true ∧ (s.g_us i).cli = cli := by
  rcases Option.or_eq_some_iff.mp h with h | ⟨-, h⟩
  · have hi := first_mem h
    simp only [Bool.and_eq_true, beq_iff_eq] at hi
    exact hi.1
  · exact sessionOfClient_some h

theorem dial_op {s : UdpHook} {os : Os} {gsock : Nat} {dst : SockaddrIn} {raw : Bytes}
    {frame : UdpGame → Bytes} (hop : ∀ g, udpOp (frame g) ≠ U_GAME_S2C) :
    ∀ o ∈ (s.dial os gsock dst raw frame).2.2, ∀ b, o.toRelay = some b → udpOp b ≠ U_GAME_S2C := by
  unfold dial
  generalize s.slotGet gsock dst.port dst = r
  obtain ⟨u, i?⟩ := r
  cases i? with
  | none => exact nofun
  | some i =>
    dsimp only
    generalize u.sportPresentation os gsock = r
    obtain ⟨v, sp?⟩ := r
    cases sp? with
    | none => exact nofun
    | some sp =>
      intro o ho b hb
      rw [List.mem_singleton.mp ho] at hb
      rw [← Option.some.inj hb]
      exact hop _

/-- an S2C that `dt_on_sendto` sends is the answer of the first session of its destination -/
theorem onSendto_s2c {s : UdpHook} {os : Os} {gsock : Nat} {buf : Bytes} {dst : SockaddrIn}
    {o : HookOut} {b : Bytes} (ho : o ∈ (s.onSendto os gsock buf dst).2.2) (hb : o.toRelay = some b)
    (hop : udpOp b = U_GAME_S2C) :
    ∃ j, s.sessionOfClient dst = some j ∧
      b = sessionReply (s.g_us j).gamePort (s.g_us j).cli buf := by
  unfold onSendto at ho
  dsimp only at ho
  split at ho
  · cases ho
  · split at ho
    · split at ho
      · cases ho
      · cases hc : s.sessionOfClient dst with
        | some j =>
          rw [hc] at ho
          rw [List.mem_singleton.mp ho] at hb
          exact ⟨j, rfl, (Option.some.inj hb).symm⟩
        | none =>
          rw [hc] at ho
          refine absurd hop (dial_op (fun g => ?_) o ho b hb)
          rw [udpOp_encodePdat]
          decide
    · split at ho
      · cases ho
      · split at ho
        · rw [List.mem_singleton.mp ho] at hb
          cases hb
        · refine absurd hop (dial_op (fun g => ?_) o ho b hb)
          rw [udpOp_encode]
          decide

theorem answers_of_asked {s : UdpHook} {a : UdpAct} (h : s.Asked) (hok : s.AnswerOk a) :
    s.Answers a := by
  intro s' out hs o ho b hb hop i hi t ht
  cases a with
  | forward raw =>
    obtain ⟨e, he, hsock⟩ := Option.bind_eq_some_iff.mp hi
    have hused : (s.g_us i).used = true := by
      have hrow := first_mem hsock
      exact (Bool.and_eq_true_iff.mp hrow).1
    obtain ⟨hg, hc⟩ := hok e he i hsock
    obtain ⟨e', rest, hsnap, hs⟩ := step_forward hs
    rw [hsnap] at he
    cases Option.some.inj he
    cases hs
    rw [List.mem_singleton.mp ho] at hb
    rw [← Option.some.inj hb]
    exact ⟨raw, sessionReply_eq (h i hused t ht) hg hc raw⟩
  | sendto os gsock buf dst =>
    unfold step at hs
    obtain ⟨-, hs⟩ := Option.ite_none_right_eq_some.mp hs
    cases hs
    obtain ⟨j, hj, e⟩ := onSendto_s2c ho hb hop
    obtain ⟨hused, hc⟩ := sessionOfReply_some hi
    have hcj := (sessionOfClient_some hj).2
    rw [e]
    exact ⟨buf, sessionReply_eq (h i hused t ht) (hok i hi j hj) (hc.trans hcj.symm) buf⟩
  | _ => cases hi

/-- **A hosted game answers as it was asked.**  Along every run from the start whose injected
datagrams are for ports that are not rewritten and come from addresses as hooks write them, and
whose answers find the session as it is, every S2C carries the triple its session was asked with. -/
theorem hosted_answers {s : UdpHook} {tr : List (UdpHook × UdpAct)} (h : Path next init tr s)
    (hok : ∀ x ∈ tr, x.1.AnswerOk x.2) : ∀ x ∈ tr, x.1.Answers x.2 := by
  have hall : ∀ u ∈ visited tr s, u.Asked := by
    refine h.all_of_ok asked_init (fun _ hu => hu) (fun u a u' hu ha hs => ?_) hok
    obtain ⟨⟨v, out⟩, hv, rfl⟩ := Option.map_eq_some_iff.mp hs
    exact asked_step hu ha hv
  intro x hx
  have hmem : x.1 ∈ visited tr s := List.mem_append_left _ (List.mem_map_of_mem hx)
  exact answers_of_asked (hall x.1 hmem) (hok x hx)

/-! ## a game behind an alias -/

/-- we are node 1 and host a game, on port 27015 for everyone -/
def hostNet : Net := { lanNet with g_myvirt := 0x0A4D0001 }

/-- the game's socket is bound to `port`; the first session gets socket 9 -/
def gameOs (port : Nat) : Os := ⟨fun _ => some port, fun _ => SOCK_DGRAM, 0, fun _ => some 9, 50001, []⟩

/-- the game is bound to `port`; node 2 asks it, the hosted thread looks at the sessions -/
def hosting (port : Nat) : List UdpAct :=
  [.net hostNet, .bind 5 27015 port SOCK_DGRAM,
    .ingress (gameOs port) (encodeUdpGame U_GAME_C2S ⟨askedTriple, [7]⟩), .sweep]

/-- player's address as the game sees it -/
def askerAddr : SockaddrIn := ⟨0x0A4D0002, 40000⟩

def answeredTwice : List UdpAct :=
  hosting 27015 ++ ([.forward [1], .sendto (gameOs 27015) 5 [2] askerAddr] : List UdpAct)

/-- the game has its port; it answers on the loopback socket, and once more with a `sendto` -/
theorem hosted_answers_plain : ∃ tr s, Path next init tr s ∧ s.asked 0 = [askedTriple] ∧
    (∀ x ∈ tr, x.1.AnswerOk x.2) ∧ ∀ x ∈ tr, x.1.Answers x.2 := by
  have hrun : (run next init answeredTwice).isSome = true := by decide +kernel
  obtain ⟨s, hs⟩ := Option.isSome_iff_exists.mp hrun
  have hasked : ∀ s ∈ run next init answeredTwice, s.asked 0 = [askedTriple] := by
    decide +kernel
  have hok : ∀ x ∈ trace next init answeredTwice, x.1.AnswerOk x.2 := by decide +kernel
  exact ⟨_, s, path_run hs, hasked s hs, hok, hosted_answers (path_run hs) hok⟩

/-- the game's port is taken on this machine and served on 50000: that is the port of the answer -/
theorem answered_real_port : ∃ tr s s', Path next init tr s ∧ s.asked 0 = [askedTriple] ∧
    s.answering (.forward [1]) = some 0 ∧
    s.step (.forward [1]) = some (s', [.udptun
      (encodeUdpGame U_GAME_S2C ⟨⟨50000, dotted 0x0A4D0002, 40000⟩, [1]⟩)]) ∧
    ¬ s.Answers (.forward [1]) := by
  have hrun : (run next init (hosting 50000)).isSome = true := by decide
  obtain ⟨s, hs⟩ := Option.isSome_iff_exists.mp hrun
  have h : ∀ s ∈ run next init (hosting 50000), s.asked 0 = [askedTriple] ∧
      s.answering (.forward [1]) = some 0 ∧ (s.step (.forward [1])).map Prod.snd = some [.udptun
        (encodeUdpGame U_GAME_S2C ⟨⟨50000, dotted 0x0A4D0002, 40000⟩, [1]⟩)] := by
    decide +kernel
  obtain ⟨hasked, hans, hstep⟩ := h s hs
  obtain ⟨⟨s', out⟩, hstep, hout⟩ := Option.map_eq_some_iff.mp hstep
  change out = _ at hout
  subst hout
  refine ⟨_, s, s', path_run hs, hasked, hans, hstep, ?_⟩
  intro hno
  obtain ⟨raw, e⟩ := hno s' _ hstep _ (List.mem_singleton_self _) _ rfl (udpOp_encode _ _) 0 hans
    askedTriple (by rw [hasked]; exact List.mem_singleton_self _)
  have hport : packH 50000 = packH 27015 := congrArg (fun b => slice b 4 6) e
  exact absurd hport (by decide)

end UdpHook

end ShadowLan
