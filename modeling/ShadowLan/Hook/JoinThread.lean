import ShadowLan.Lib.Runs
import ShadowLan.Hook.Accept
import ShadowLan.Hook.Frames
import ShadowLan.Hook.Listen

/-!
# The threads that join

A `DT_STREQ` takes a row of `g_hs` and starts a thread.  The thread dials the relay, claims the stream,
connects to the game and then pipes; whatever goes wrong, it closes what it has and gives the row back.
The threads share the table, the numbers of sockets, and nothing else: between two locked sections or
two system calls any of the others may run, and so may the sweep of old rows.

* `JoinThread`       one thread, and what it has said, heard and dialed;
* `JoinHook.step`    the threads, the table and the sockets;
* `turn_cases`       what one move of a thread can do;
* `JoinThread.Law`   what a thread has said and done, by where it stands;
* `joined_run`       what each thread tells the relay, and when it dials the game.

The pipe of a thread is a step of its own here: it closes nothing.  A dial that fails has closed its
own socket.
-/

namespace ShadowLan

/-- `h->used` with the sid that `dt_hs_by_sid` looks for -/
def DtHosted.key (h : DtHosted) : Option Nat := if h.used then some h.sid else none

/-- the sockets in a row -/
def DtHosted.socks (h : DtHosted) : List Nat := h.real.toList ++ h.fd.toList

/-- where `dt_join_thread` stands; `fd` is its connection to the relay -/
inductive JoinPc where
  | dial
  | join (fd : Nat)
  | verdict (fd : Nat)
  /-- at `dt_host_bridge`, with so many tries left -/
  | bridge (fd left : Nat)
  /-- past the `connect` of it, with the socket of the game -/
  | record (fd s : Nat)
  | told (fd : Nat)
  | joined (fd : Nat)
  | pick (fd : Nat)
  | pump (fd real : Nat)
  /-- at `dt_st_close_fd` -/
  | close (fd : Nat)
  /-- at the locked section of `dt_hs_close` -/
  | hs
  /-- behind it, with what is left to close; the thread is over when nothing is -/
  | drop (l : List Nat)
  deriving DecidableEq

/-- a thread, with the frames that it has handed to `dt_st_send_frame`, the verdict that it got, and
the ports it has dialed and whether it was let in -/
structure JoinThread where
  sid : Nat
  gport : Nat
  pc : JoinPc
  said : List HookFrame
  heard : Option (Nat × List Byte)
  dials : List (Nat × Bool)
  deriving DecidableEq

inductive SockOwner where
  | app
  /-- the `k`-th thread -/
  | join (k : Nat)
  deriving DecidableEq

/-- what a thread does next, with the answers that it gets -/
inductive JoinMove where
  | dialed (fd : Option Nat)
  | asked (ok : Bool)
  | verdict (frame : Option (Nat × List Byte))
  /-- `dt_alias_real`, and the socket if the game takes the connection -/
  | bridge (al : Nat) (s : Option Nat)
  | record (lport : Nat)
  | told (ok : Bool)
  | joined
  | pick
  /-- the pipe ends -/
  | leave
  | close
  | hs

inductive JoinAct where
  /-- a `DT_STREQ`, with the ports that are listened on, and whether there is memory and a thread -/
  | streq (sid gport ovirt : Nat) (g_lports : ListenTable) (mem spawns : Bool)
  | turn (k : Nat) (m : JoinMove)
  /-- `dt_hosted_thread` frees the rows that never got a bridge -/
  | sweep
  | tick (ms : Nat)
  /-- a socket of the app's -/
  | opened (s : Nat)
  | closed (s : Nat)

structure JoinHook where
  g_hs : Fin DT_MAXHOST → DtHosted
  threads : List JoinThread
  sockets : Nat → Option SockOwner
  /-- a thread has closed what it had not opened -/
  wrong : List (Nat × Nat)
  now : Nat

namespace JoinPc

/-- the thread may still look for its row -/
def serves : JoinPc → Bool
  | .drop _ => false
  | _ => true

/-- the sockets that only the thread knows -/
def hand : JoinPc → List Nat
  | .join fd | .verdict fd | .bridge fd _ | .told fd | .joined fd | .close fd => [fd]
  | .record fd s => [fd, s]
  | .drop l => l
  | .dial | .pick _ | .pump .. | .hs => []

end JoinPc

/-- `STF_HOST_FAILED` -/
def hostFailed (sid : Nat) : HookFrame := .stfail sid 3

namespace JoinHook

def init : JoinHook where
  g_hs := fun _ => ⟨false, 0, none, none, false, 0, false, 0, 0, 0, 0⟩
  threads := []
  sockets := fun _ => none
  wrong := []
  now := 0

section
variable (g_node : Nat) (S : JoinHook)

/-- `dt_hs_by_sid` -/
def bySid (sid : Nat) : Option (Fin DT_MAXHOST) := first S.g_hs fun h => h.used && h.sid == sid

def setHs (i : Fin DT_MAXHOST) (h : DtHosted) : JoinHook :=
  { S with g_hs := Function.update S.g_hs i h }

/-- the row of a session changes, if it is there -/
def onHs (sid : Nat) (f : DtHosted → DtHosted) : JoinHook :=
  match S.bySid sid with
  | some i => S.setHs i (f (S.g_hs i))
  | none => S

def goes (k : Nat) (t : JoinThread) : JoinHook := { S with threads := S.threads.set k t }

/-- a new socket; the kernel gives a number that is not in use -/
def opens (k s : Nat) (t : JoinThread) : Option JoinHook :=
  if S.sockets s = none then
    some ({ S with sockets := Function.update S.sockets s (some (.join k)) }.goes k t)
  else none

/-- `close` of a number, whoever's socket that is -/
def closes (k s : Nat) (t : JoinThread) : JoinHook :=
  { S with
    sockets := Function.update S.sockets s none
    wrong := if S.sockets s = some (SockOwner.join k) then S.wrong else S.wrong ++ [(k, s)] }.goes k t

/-- `dt_on_streq` -/
def streq (sid gport ovirt : Nat) (g_lports : ListenTable) (mem spawns : Bool) : JoinHook :=
  if ownsListen g_lports gport then
    match first S.g_hs fun h => !h.used with
    | some i =>
      let T := S.setHs i { S.g_hs i with
        used := true, sid := sid, real := none, fd := none, live := false, dead := false,
        last := S.now, ovirt := ovirt, gport := gport, lport := 0 }
      -- without memory the caller closes the session itself, and without a thread nobody does
      if mem = false then { T with threads := T.threads ++ [⟨sid, gport, .hs, [], none, []⟩] }
      else if spawns then { T with threads := T.threads ++ [⟨sid, gport, .dial, [], none, []⟩] }
      else T
    | none => S
  else S

/-- `dt_join_thread`, up to the next system call or lock -/
def turn (k : Nat) (t : JoinThread) : JoinMove → Option JoinHook
  | .dialed fd =>
    match t.pc, fd with
    | .dial, none => some (S.goes k { t with pc := .hs })
    | .dial, some fd => S.opens k fd { t with pc := .join fd }
    | _, _ => none
  | .asked ok =>
    match t.pc with
    | .join fd => some (S.goes k { t with
        said := t.said ++ [.stjoin g_node t.sid], pc := if ok then .verdict fd else .close fd })
    | _ => none
  | .verdict frame =>
    match t.pc with
    | .verdict fd => some (S.goes k { t with
        heard := frame
        pc := if frame.any fun x => DtStream.isStok t.sid x.1 x.2 then .bridge fd 4 else .close fd })
    | _ => none
  | .bridge al s =>
    let port := if al ≠ 0 then al else t.gport
    match t.pc, s with
    | .bridge fd left, none =>
      if left ≤ 1 then some (S.goes k { t with
        dials := t.dials ++ [(port, false)], said := t.said ++ [hostFailed t.sid], pc := .close fd })
      else some (S.goes k { t with
        dials := t.dials ++ [(port, false)], pc := .bridge fd (left - 1) })
    | .bridge fd _, some s =>
      S.opens k s { t with dials := t.dials ++ [(port, true)], pc := .record fd s }
    | _, _ => none
  | .record lport =>
    match t.pc with
    | .record fd s => some ((S.onHs t.sid fun h =>
        { h with real := some s, live := true, last := S.now, lport := lport }).goes k
          { t with pc := .told fd })
    | _ => none
  | .told ok =>
    match t.pc with
    | .told fd => some (S.goes k { t with
        said := t.said ++ [.stjoined t.sid], pc := if ok then .joined fd else .close fd })
    | _ => none
  | .joined =>
    match t.pc with
    | .joined fd => some ((S.onHs t.sid fun h => { h with fd := some fd }).goes k
        { t with pc := .pick fd })
    | _ => none
  | .pick =>
    match t.pc, (S.bySid t.sid).bind fun i => (S.g_hs i).real with
    | .pick fd, some real => some (S.goes k { t with pc := .pump fd real })
    | .pick fd, none => some (S.goes k { t with pc := .close fd })
    | _, _ => none
  | .leave =>
    match t.pc with
    | .pump .. => some (S.goes k { t with pc := .hs })
    | _ => none
  | .close =>
    match t.pc with
    | .close fd => some (S.closes k fd { t with pc := .hs })
    | .drop (s :: l) => some (S.closes k s { t with pc := .drop l })
    | _ => none
  | .hs =>
    match t.pc, S.bySid t.sid with
    | .hs, some i => some ((S.setHs i { S.g_hs i with used := false, real := none, fd := none }).goes k
        { t with pc := .drop (S.g_hs i).socks })
    | .hs, none => some (S.goes k { t with pc := .drop [] })
    | _, _ => none

/-- the sweep, for one row -/
def swept (h : DtHosted) : DtHosted :=
  if h.used ∧ ¬ h.live ∧ 30000 < S.now - h.last then { h with used := false } else h

def step : JoinAct → Option JoinHook
  | .streq sid gport ovirt g_lports mem spawns =>
    some (S.streq sid gport ovirt g_lports mem spawns)
  | .turn k m => S.threads[k]?.bind fun t => S.turn g_node k t m
  | .sweep => some { S with g_hs := fun i => S.swept (S.g_hs i) }
  | .tick ms => some { S with now := S.now + ms }
  | .opened s =>
    if S.sockets s = none then some { S with sockets := Function.update S.sockets s (some .app) }
    else none
  | .closed s =>
    if S.sockets s = some .app then some { S with sockets := Function.update S.sockets s none }
    else none

end

end JoinHook

/-! ## what a thread says -/

namespace JoinThread
variable (g_node : Nat) (t : JoinThread)

/-- the relay has granted it the stream -/
def Claimed : Prop := ∃ x, t.heard = some x ∧ DtStream.isStok t.sid x.1 x.2 = true

def Refused (dials : List (Nat × Bool)) : Prop := ∀ d ∈ dials, d.2 = false

theorem Refused.snoc {dials : List (Nat × Bool)} (h : Refused dials) (port : Nat) :
    Refused (dials ++ [(port, false)]) := by
  intro d hd
  rcases List.mem_append.mp hd with hd | hd
  · exact h d hd
  · rw [List.mem_singleton.mp hd]

/-- the last dial was taken, and the others were not -/
def Taken : Prop := ∃ ps p, t.dials = ps ++ [(p, true)] ∧ Refused ps ∧ ps.length < 4

def Quiet : Prop := t.said = [] ∧ t.dials = []

def Asked : Prop := t.said = [.stjoin g_node t.sid] ∧ t.dials = []

def Ringing (left : Nat) : Prop :=
  t.said = [.stjoin g_node t.sid] ∧ t.Claimed ∧ Refused t.dials ∧ t.dials.length + left = 4

def GivenUp : Prop := t.said = [.stjoin g_node t.sid, hostFailed t.sid] ∧ t.Claimed ∧
  Refused t.dials ∧ t.dials.length = 4

def Bridged : Prop := t.said = [.stjoin g_node t.sid] ∧ t.Claimed ∧ t.Taken

def Joined : Prop :=
  t.said = [.stjoin g_node t.sid, .stjoined t.sid] ∧ t.Claimed ∧ t.Taken

/-- what a thread has said and done, by where it stands -/
def Law : Prop :=
  match t.pc with
  | .dial | .join _ => t.Quiet
  | .verdict _ => t.Asked g_node
  | .bridge _ left => 0 < left ∧ t.Ringing g_node left
  | .record .. | .told _ => t.Bridged g_node
  | .joined _ | .pick _ | .pump .. => t.Joined g_node
  | .close _ | .hs | .drop _ => t.Quiet ∨ t.Asked g_node ∨ t.GivenUp g_node ∨ t.Joined g_node

/-- what the relay is told, and when the game is dialed -/
structure Told : Prop where
  said : t.said <+: [.stjoin g_node t.sid, hostFailed t.sid] ∨
    t.said <+: [.stjoin g_node t.sid, .stjoined t.sid]
  claimed : t.dials ≠ [] → t.Claimed
  few : t.dials.length ≤ 4
  failed : hostFailed t.sid ∈ t.said → t.dials.length = 4 ∧ Refused t.dials
  joined : .stjoined t.sid ∈ t.said → t.Taken

variable {g_node} {t}

theorem Taken.length_le (h : t.Taken) : t.dials.length ≤ 4 := by
  obtain ⟨ps, p, hd, -, hlt⟩ := h
  rw [hd, List.length_append]
  exact hlt

theorem Quiet.told (h : t.Quiet) : t.Told g_node := by
  obtain ⟨hs, hd⟩ := h
  refine ⟨Or.inl ?_, fun hn => absurd hd hn, ?_, fun hm => ?_, fun hm => ?_⟩
  · rw [hs]
    exact List.nil_prefix
  · rw [hd]
    exact Nat.zero_le 4
  · rw [hs] at hm
    cases hm
  · rw [hs] at hm
    cases hm

/-- only the `DT_STJOIN` is out -/
theorem told_of_asked (hs : t.said = [.stjoin g_node t.sid]) (hc : t.dials ≠ [] → t.Claimed)
    (hf : t.dials.length ≤ 4) : t.Told g_node := by
  refine ⟨Or.inl ?_, hc, hf, fun hm => ?_, fun hm => ?_⟩
  · rw [hs]
    exact List.prefix_append _ [hostFailed t.sid]
  · rw [hs] at hm
    cases List.mem_singleton.mp hm
  · rw [hs] at hm
    cases List.mem_singleton.mp hm

theorem GivenUp.told (h : t.GivenUp g_node) : t.Told g_node := by
  obtain ⟨hs, hc, hr, hlen⟩ := h
  refine ⟨Or.inl (by rw [hs]), fun _ => hc, hlen.le, fun _ => ⟨hlen, hr⟩, fun hm => ?_⟩
  rw [hs] at hm
  simp [hostFailed] at hm

theorem Joined.told (h : t.Joined g_node) : t.Told g_node := by
  obtain ⟨hs, hc, ht⟩ := h
  refine ⟨Or.inr (by rw [hs]), fun _ => hc, ht.length_le, fun hm => ?_, fun _ => ht⟩
  rw [hs] at hm
  simp [hostFailed] at hm

theorem Law.told (h : t.Law g_node) : t.Told g_node := by
  have hover : t.Quiet ∨ t.Asked g_node ∨ t.GivenUp g_node ∨ t.Joined g_node → t.Told g_node := by
    rintro (h | h | h | h)
    · exact h.told
    · exact told_of_asked h.1 (fun hn => absurd h.2 hn) (by rw [h.2]; exact Nat.zero_le 4)
    · exact h.told
    · exact h.told
  unfold Law at h
  split at h
  · exact hover (Or.inl h)
  · exact hover (Or.inl h)
  · exact hover (Or.inr (Or.inl h))
  · obtain ⟨-, hs, hc, -, hlen⟩ := h
    exact told_of_asked hs (fun _ => hc) (by omega)
  · exact told_of_asked h.1 (fun _ => h.2.1) h.2.2.length_le
  · exact told_of_asked h.1 (fun _ => h.2.1) h.2.2.length_le
  · exact h.told
  · exact h.told
  · exact h.told
  · exact hover h
  · exact hover h
  · exact hover h

end JoinThread

namespace JoinHook
variable {g_node : Nat} {S S' : JoinHook} {k s : Nat} {t t' : JoinThread} {m : JoinMove}

theorem opens_eq_some : S.opens k s t = some S' ↔ S.sockets s = none ∧
    S' = { S with sockets := Function.update S.sockets s (some (.join k)) }.goes k t := by
  unfold opens
  rw [Option.ite_none_right_eq_some, Option.some.injEq]
  exact and_congr_right fun _ => eq_comm

theorem threads_onHs (sid : Nat) (f : DtHosted → DtHosted) :
    (S.onHs sid f).threads = S.threads := by
  unfold onHs
  split
  · rfl
  · rfl

/-- what a move can do, by where the thread stands -/
inductive Turns (g_node : Nat) (S : JoinHook) (k : Nat) (t : JoinThread) : JoinMove → JoinHook → Prop
  | noRelay (hpc : t.pc = .dial) : Turns g_node S k t (.dialed none) (S.goes k { t with pc := .hs })
  | dialed {fd : Nat} (hpc : t.pc = .dial) (hnew : S.sockets fd = none) :
    Turns g_node S k t (.dialed (some fd))
      ({ S with sockets := Function.update S.sockets fd (some (.join k)) }.goes k
        { t with pc := .join fd })
  | asked {fd : Nat} {ok : Bool} (hpc : t.pc = .join fd) : Turns g_node S k t (.asked ok)
      (S.goes k { t with
        said := t.said ++ [.stjoin g_node t.sid], pc := if ok then .verdict fd else .close fd })
  | verdict {fd : Nat} {frame : Option (Nat × List Byte)} (hpc : t.pc = .verdict fd) :
    Turns g_node S k t (.verdict frame) (S.goes k { t with
      heard := frame
      pc := if frame.any fun x => DtStream.isStok t.sid x.1 x.2 then .bridge fd 4 else .close fd })
  | givesUp {fd left al port : Nat} (hpc : t.pc = .bridge fd left) (hleft : left ≤ 1) :
    Turns g_node S k t (.bridge al none) (S.goes k { t with
      dials := t.dials ++ [(port, false)], said := t.said ++ [hostFailed t.sid], pc := .close fd })
  | refused {fd left al port : Nat} (hpc : t.pc = .bridge fd left) (hleft : 1 < left) :
    Turns g_node S k t (.bridge al none) (S.goes k { t with
      dials := t.dials ++ [(port, false)], pc := .bridge fd (left - 1) })
  | taken {fd left al port s : Nat} (hpc : t.pc = .bridge fd left) (hnew : S.sockets s = none) :
    Turns g_node S k t (.bridge al (some s))
      ({ S with sockets := Function.update S.sockets s (some (.join k)) }.goes k
        { t with dials := t.dials ++ [(port, true)], pc := .record fd s })
  | record {fd s lport : Nat} (hpc : t.pc = .record fd s) : Turns g_node S k t (.record lport)
      ((S.onHs t.sid fun h =>
        { h with real := some s, live := true, last := S.now, lport := lport }).goes k
          { t with pc := .told fd })
  | told {fd : Nat} {ok : Bool} (hpc : t.pc = .told fd) : Turns g_node S k t (.told ok)
      (S.goes k { t with
        said := t.said ++ [.stjoined t.sid], pc := if ok then .joined fd else .close fd })
  | joined {fd : Nat} (hpc : t.pc = .joined fd) : Turns g_node S k t .joined
      ((S.onHs t.sid fun h => { h with fd := some fd }).goes k { t with pc := .pick fd })
  | pick {fd real : Nat} {i : Fin DT_MAXHOST} (hpc : t.pc = .pick fd) (hrow : S.bySid t.sid = some i)
    (hreal : (S.g_hs i).real = some real) :
    Turns g_node S k t .pick (S.goes k { t with pc := .pump fd real })
  | noReal {fd : Nat} (hpc : t.pc = .pick fd)
    (hno : ((S.bySid t.sid).bind fun i => (S.g_hs i).real) = none) :
    Turns g_node S k t .pick (S.goes k { t with pc := .close fd })
  | leave {fd real : Nat} (hpc : t.pc = .pump fd real) :
    Turns g_node S k t .leave (S.goes k { t with pc := .hs })
  | close {fd : Nat} (hpc : t.pc = .close fd) :
    Turns g_node S k t .close (S.closes k fd { t with pc := .hs })
  | drop {s : Nat} {l : List Nat} (hpc : t.pc = .drop (s :: l)) :
    Turns g_node S k t .close (S.closes k s { t with pc := .drop l })
  | hs {i : Fin DT_MAXHOST} (hpc : t.pc = .hs) (hrow : S.bySid t.sid = some i) :
    Turns g_node S k t .hs
      ((S.setHs i { S.g_hs i with used := false, real := none, fd := none }).goes k
        { t with pc := .drop (S.g_hs i).socks })
  | gone (hpc : t.pc = .hs) (hrow : S.bySid t.sid = none) :
    Turns g_node S k t .hs (S.goes k { t with pc := .drop [] })

theorem turn_cases (hs : S.turn g_node k t m = some S') : Turns g_node S k t m S' := by
  cases m with
  | dialed =>
    unfold turn at hs
    dsimp only at hs
    split at hs
    · cases hs
      exact .noRelay (by assumption)
    · obtain ⟨hnew, rfl⟩ := opens_eq_some.mp hs
      exact .dialed (by assumption) hnew
    · cases hs
  | asked =>
    unfold turn at hs
    dsimp only at hs
    split at hs
    · cases hs
      exact .asked (by assumption)
    · cases hs
  | verdict =>
    unfold turn at hs
    dsimp only at hs
    split at hs
    · cases hs
      exact .verdict (by assumption)
    · cases hs
  | bridge =>
    unfold turn at hs
    dsimp only at hs
    split at hs
    · split at hs
      · cases hs
        exact .givesUp (by assumption) (by assumption)
      · cases hs
        exact .refused (by assumption) (by omega)
    · obtain ⟨hnew, rfl⟩ := opens_eq_some.mp hs
      exact .taken (by assumption) hnew
    · cases hs
  | record =>
    unfold turn at hs
    dsimp only at hs
    split at hs
    · cases hs
      exact .record (by assumption)
    · cases hs
  | told =>
    unfold turn at hs
    dsimp only at hs
    split at hs
    · cases hs
      exact .told (by assumption)
    · cases hs
  | joined =>
    unfold turn at hs
    dsimp only at hs
    split at hs
    · cases hs
      exact .joined (by assumption)
    · cases hs
  | pick =>
    unfold turn at hs
    dsimp only at hs
    split at hs
    · rename_i hreal
      cases hs
      obtain ⟨i, hi, hr⟩ := Option.bind_eq_some_iff.mp hreal
      exact .pick (by assumption) hi hr
    · cases hs
      exact .noReal (by assumption) (by assumption)
    · cases hs
  | leave =>
    unfold turn at hs
    dsimp only at hs
    split at hs
    · cases hs
      exact .leave (by assumption)
    · cases hs
  | close =>
    unfold turn at hs
    dsimp only at hs
    split at hs
    · cases hs
      exact .close (by assumption)
    · cases hs
      exact .drop (by assumption)
    · cases hs
  | hs =>
    unfold turn at hs
    dsimp only at hs
    split at hs
    · cases hs
      exact .hs (by assumption) (by assumption)
    · cases hs
      exact .gone (by assumption) (by assumption)
    · cases hs

/-- a thread goes on, and keeps the law -/
theorem law_turn (h : t.Law g_node) (hs : Turns g_node S k t m S') :
    ∃ t', S'.threads = S.threads.set k t' ∧ t'.Law g_node := by
  unfold JoinThread.Law at h
  cases hs with
  | noRelay hpc =>
    rw [hpc] at h
    exact ⟨_, rfl, Or.inl h⟩
  | dialed hpc =>
    rw [hpc] at h
    exact ⟨_, rfl, h⟩
  | @asked fd ok hpc =>
    rw [hpc] at h
    refine ⟨_, rfl, ?_⟩
    have hsaid : t.said ++ [.stjoin g_node t.sid] = [.stjoin g_node t.sid] := by
      rw [h.1]
      rfl
    cases ok with
    | true => exact ⟨hsaid, h.2⟩
    | false => exact Or.inr (Or.inl ⟨hsaid, h.2⟩)
  | @verdict fd frame hpc =>
    rw [hpc] at h
    refine ⟨_, rfl, ?_⟩
    unfold JoinThread.Law
    dsimp only
    cases hf : frame.any fun x => DtStream.isStok t.sid x.1 x.2 with
    | true =>
      obtain ⟨x, hx, hok⟩ := (Option.any_eq_true _ _).mp hf
      refine ⟨Nat.succ_pos 3, h.1, ⟨x, hx, hok⟩, ?_, ?_⟩
      · show JoinThread.Refused t.dials
        rw [h.2]
        exact nofun
      · show t.dials.length + 4 = 4
        rw [h.2]
        rfl
    | false => exact Or.inr (Or.inl h)
  | @givesUp fd left al port hpc hleft =>
    rw [hpc] at h
    obtain ⟨hpos, hsaid, hc, hr, hlen⟩ := h
    refine ⟨_, rfl, Or.inr (Or.inr (Or.inl ⟨?_, hc, hr.snoc port, ?_⟩))⟩
    · show t.said ++ [hostFailed t.sid] = _
      rw [hsaid]
      rfl
    · show (t.dials ++ [(port, false)]).length = 4
      rw [List.length_append, List.length_singleton]
      omega
  | @refused fd left al port hpc hleft =>
    rw [hpc] at h
    obtain ⟨hpos, hsaid, hc, hr, hlen⟩ := h
    refine ⟨_, rfl, ?_, hsaid, hc, hr.snoc port, ?_⟩
    · omega
    · show (t.dials ++ [(port, false)]).length + (left - 1) = 4
      rw [List.length_append, List.length_singleton]
      omega
  | @taken fd left al port s hpc hnew =>
    rw [hpc] at h
    obtain ⟨hpos, hsaid, hc, hr, hlen⟩ := h
    exact ⟨_, rfl, hsaid, hc, t.dials, port, rfl, hr, by omega⟩
  | record hpc | joined hpc =>
    rw [hpc] at h
    exact ⟨_, congrArg (List.set · k _) (threads_onHs _ _), h⟩
  | @told fd ok hpc =>
    rw [hpc] at h
    refine ⟨_, rfl, ?_⟩
    have hsaid : t.said ++ [.stjoined t.sid] = [.stjoin g_node t.sid, .stjoined t.sid] := by
      rw [h.1]
      rfl
    cases ok with
    | true => exact ⟨hsaid, h.2⟩
    | false => exact Or.inr (Or.inr (Or.inr ⟨hsaid, h.2⟩))
  | pick hpc =>
    rw [hpc] at h
    exact ⟨_, rfl, h⟩
  | noReal hpc | leave hpc =>
    rw [hpc] at h
    exact ⟨_, rfl, Or.inr (Or.inr (Or.inr h))⟩
  | close hpc | drop hpc | hs hpc | gone hpc =>
    rw [hpc] at h
    exact ⟨_, rfl, h⟩

/-- what a `DT_STREQ` does to the threads -/
theorem threads_streq (sid gport ovirt : Nat) (g_lports : ListenTable) (mem spawns : Bool) :
    (S.streq sid gport ovirt g_lports mem spawns).threads = S.threads ∨
      ∃ pc, (pc = .hs ∨ pc = .dial) ∧ (S.streq sid gport ovirt g_lports mem spawns).threads
        = S.threads ++ [⟨sid, gport, pc, [], none, []⟩] := by
  unfold streq
  split
  · split
    · dsimp only
      split
      · exact Or.inr ⟨_, Or.inl rfl, rfl⟩
      · split
        · exact Or.inr ⟨_, Or.inr rfl, rfl⟩
        · exact Or.inl rfl
    · exact Or.inl rfl
  · exact Or.inl rfl

theorem law_step {a : JoinAct} (h : ∀ t ∈ S.threads, t.Law g_node)
    (hs : S.step g_node a = some S') : ∀ t ∈ S'.threads, t.Law g_node := by
  cases a with
  | streq sid gport ovirt g_lports mem spawns =>
    rw [← Option.some.inj hs]
    rcases threads_streq (S := S) sid gport ovirt g_lports mem spawns with heq | ⟨pc, hpc, heq⟩
    · rw [heq]
      exact h
    · rw [heq]
      intro t ht
      rcases List.mem_append.mp ht with ht | ht
      · exact h t ht
      · rw [List.mem_singleton.mp ht]
        rcases hpc with rfl | rfl
        · exact Or.inl ⟨rfl, rfl⟩
        · exact ⟨rfl, rfl⟩
  | turn k m =>
    obtain ⟨t, ht, hs⟩ := Option.bind_eq_some_iff.mp hs
    obtain ⟨t', heq, hlaw⟩ := law_turn (h t (List.mem_of_getElem? ht)) (turn_cases hs)
    rw [heq]
    intro u hu
    rcases List.mem_or_eq_of_mem_set hu with hu | rfl
    · exact h u hu
    · exact hlaw
  | sweep | tick =>
    rw [← Option.some.inj hs]
    exact h
  | opened s | closed s =>
    obtain ⟨-, hs⟩ := Option.ite_none_right_eq_some.mp hs
    rw [← Option.some.inj hs]
    exact h

/-- **What a joining thread tells.**  In every run each thread tells the relay `DT_STJOIN` and then
nothing, or that the game could not be reached, or `DT_STJOINED`; it dials the game only after its
claim was granted, at most four times, and it is turned away four times or let in the last time. -/
theorem joined_run {u : JoinHook} {tr : List (JoinHook × JoinAct)}
    (h : Path (step g_node) init tr u) : ∀ t ∈ u.threads, t.Told g_node := by
  have hlaw := h.inv (I := fun u => ∀ t ∈ u.threads, t.Law g_node)
    (fun _ ht => absurd ht List.not_mem_nil) fun _ _ _ hi hs => law_step hi hs
  exact fun t ht => (hlaw t ht).told

/-- the game cannot be reached -/
def noGame : List JoinAct :=
  [.streq 7 2300 3 (fun _ => 2300) true true, .turn 0 (.dialed (some 4)), .turn 0 (.asked true),
    .turn 0 (.verdict (some (DT_STOK, [0, 0, 0, 7])))] ++
    List.replicate 4 (JoinAct.turn 0 (.bridge 0 none))

theorem joined_noGame : ∃ u, run (step 9) init noGame = some u ∧ (∀ t ∈ u.threads, t.Told 9) ∧
    u.threads.map JoinThread.said = [[.stjoin 9 7, hostFailed 7]] := by
  have hsaid : (run (step 9) init noGame).map (fun u => u.threads.map JoinThread.said)
      = some [[.stjoin 9 7, hostFailed 7]] := by decide +kernel
  obtain ⟨u, hu, hout⟩ := Option.map_eq_some_iff.mp hsaid
  exact ⟨u, hu, joined_run (path_run hu), hout⟩

end JoinHook

end ShadowLan
