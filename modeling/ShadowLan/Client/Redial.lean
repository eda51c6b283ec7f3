import ShadowLan.Lib.Runs
import Mathlib.Data.List.Range

/-!
# The reconnect loop of `wclient`

`WinClient.run` dials the relay, starts the child tasks of the connection and waits for the first
of them to end.  The block that closes the connection and paces the next dial stands behind the
`while True:` and not in it: no statement of the loop leads there.

* `Client`, `Pc`     what `run` holds, and where it waits;
* `Client.dial`      the top of the loop, with a note of what was held as the dial began;
* `Client.teardown`  the `finally`;
* `step`             dials, children and exceptions, in any order and at any time;
* `step_cases`       what a step can do to the dials and the links;
* `OneLink`          every dial found the links before it closed and came in time;
* `left_open`        every link but the last is never closed, over any run;
* `one_link_iff`     which runs keep one link.

Times are in nanoseconds.
-/

namespace ShadowLan
namespace WinClient

def SEC : Nat := 1000000000

/-- the attributes of `WinClient` that `run` reads and never writes -/
structure Config where
  disc_ports : List Nat
  tcp_ports : List Nat
  udp_ports : List Nat
  host_mode : Bool
  deriving DecidableEq

/-- the child tasks of a connection -/
inductive Child where
  | tcp_reader_loop
  | bcast_snoop (d : Nat)
  | tcp_local_listener (g : Nat)
  | hello_loop
  deriving DecidableEq

/-- how a child ends when nobody cancels it -/
inductive Ending where
  | eof
  | bindFailed
  | raised
  deriving DecidableEq

/-- The reader returns at the end of the stream.  A snoop whose port is taken returns, a listener
whose port is taken raises.  Any child ends by an exception that it does not catch. -/
def Child.ends : Child → Ending → Bool
  | .tcp_reader_loop, .eof => true
  | .bcast_snoop _, .bindFailed => true
  | .tcp_local_listener _, .bindFailed => true
  | _, .raised => true
  | _, _ => false

/-- `tasks` of one connection, in the order of their creation -/
def Config.children (c : Config) : List Child :=
  .tcp_reader_loop :: c.disc_ports.map .bcast_snoop ++
    (if c.host_mode then [] else c.tcp_ports.map .tcp_local_listener) ++ [.hello_loop]

/-- a task: the link that it belongs to, and its place in `tasks` -/
abbrev Task := Nat × Nat

def Config.tasks (c : Config) (k : Nat) : List Task :=
  (List.range c.children.length).map fun i => (k, i)

/-- the `await` that `run` stands at -/
inductive Pc where
  /-- `open_connection` -/
  | dialing
  /-- `sleep(backoff)` after a failed dial -/
  | retry (till : Nat)
  /-- the first `send_tcp_node` -/
  | announce
  | udp_setup
  /-- the second `send_tcp_node` -/
  | reannounce
  /-- `asyncio.wait` -/
  | wait
  /-- the `gather` of the loop, after a session of this length -/
  | reaping (lasted : Nat)
  /-- the `gather` of the `finally` -/
  | teardown
  | ended
  deriving DecidableEq

/-- what `run` found as it began to dial -/
structure Dial where
  time : Nat
  /-- `self.tcp_writer` -/
  held : Option Nat
  /-- the links of earlier sessions that `run` has not closed -/
  unclosed : List Nat
  /-- the time of the dial before, and the length of the session between: 0 when it failed -/
  before : Option (Nat × Nat)
  deriving DecidableEq

structure Client where
  now : Nat
  pc : Pc
  backoff : Nat
  cycle_t0 : Nat
  tcp_writer : Option Nat
  udp_tun : Bool
  udp_local : List Nat
  live : List Task
  /-- the tasks that have ended -/
  done : List Task
  /-- the number of links so far: they are `0` to `links - 1` -/
  links : Nat
  /-- when the last link was connected -/
  up : Nat
  /-- the links that `run` has closed -/
  shut : List Nat
  dials : List Dial
  deriving DecidableEq

namespace Client
variable (s : Client)

/-- the links that `run` has left open -/
def unclosed : List Nat := (List.range s.links).filter fun k => k ∉ s.shut

/-- from the top of the loop to `open_connection`, with no `await` between -/
def dial (lasted : Option Nat) : Client :=
  { s with
    pc := .dialing
    cycle_t0 := s.now
    dials := s.dials ++ [⟨s.now, s.tcp_writer, s.unclosed, lasted.map fun n => (s.cycle_t0, n)⟩] }

/-- `open_connection` returned -/
def connect : Client :=
  { s with
    pc := .announce
    backoff := 1
    tcp_writer := some s.links
    links := s.links + 1
    up := s.now }

/-- the tasks of the connection are made; the UDP tunnel is set up once -/
def spawn (c : Config) : Client :=
  { s with
    pc := if (c.udp_ports ≠ [] ∨ c.host_mode) ∧ s.udp_tun = false then .udp_setup else .wait
    live := s.live ++ c.tasks (s.links - 1) }

/-- the `finally`, up to its `gather` -/
def teardown : Client :=
  { s with
    pc := .teardown
    shut := s.shut ++ s.tcp_writer.toList
    tcp_writer := none
    udp_tun := false
    udp_local := [] }

end Client

/-- `run` as it begins -/
def start (t0 : Nat) : Client :=
  Client.dial ⟨t0, .dialing, 1, t0, none, false, [], [], [], 0, t0, [], []⟩ none

inductive Act where
  | tick (d : Nat)
  /-- `open_connection` raises an `OSError` -/
  | refused
  /-- the sleep of the back-off is over -/
  | wake
  | connected
  /-- `send_tcp_node` returns -/
  | announced
  /-- `udp_setup` returns, with the local ports that it could bind -/
  | udpReady (bound : List Nat)
  /-- a child of the connection ends by itself -/
  | childEnds (i : Nat) (e : Ending)
  /-- `asyncio.wait` returns, and the rest is cancelled -/
  | waitOver
  /-- a task that was cancelled has ended -/
  | reaped (x : Task)
  /-- the `gather` of the loop returns -/
  | gathered
  /-- `run` is cancelled, or an exception leaves the loop -/
  | leave
  /-- the `gather` of the `finally` returns -/
  | tornDown
  deriving DecidableEq

/-- the children of the last link run, and nobody has cancelled them -/
def Pc.serving : Pc → Bool
  | .udp_setup | .reannounce | .wait => true
  | _ => false

/-- the loop is left -/
def Pc.over : Pc → Bool
  | .teardown | .ended => true
  | _ => false

/-- `run` waits for tasks that were cancelled -/
def Pc.reaps : Pc → Bool
  | .reaping _ | .teardown => true
  | _ => false

def step (c : Config) (s : Client) : Act → Option Client
  | .tick d => some { s with now := s.now + d }
  | .refused =>
    if s.pc = .dialing then some { s with pc := .retry (s.now + s.backoff * SEC) } else none
  | .wake =>
    match s.pc with
    | .retry till =>
      if till ≤ s.now then some (Client.dial { s with backoff := min (s.backoff * 2) 10 } (some 0))
      else none
    | _ => none
  | .connected => if s.pc = .dialing then some s.connect else none
  | .announced =>
    match s.pc with
    | .announce => some (s.spawn c)
    | .reannounce => some { s with pc := .wait }
    | _ => none
  | .udpReady bound =>
    if s.pc = .udp_setup ∧ ∀ g ∈ bound, g ∈ c.udp_ports then
      some { s with pc := .reannounce, udp_tun := true, udp_local := bound }
    else none
  | .childEnds i e =>
    if s.pc.serving ∧ (c.children[i]?).any (fun x => x.ends e) ∧ (s.links - 1, i) ∉ s.done then
      some { s with done := s.done ++ [(s.links - 1, i)] }
    else none
  | .waitOver =>
    if s.pc = .wait ∧ (c.tasks (s.links - 1)).any (fun x => x ∈ s.done) then
      some { s with pc := .reaping (s.now - s.up) }
    else none
  | .reaped x =>
    if s.pc.reaps ∧ x ∈ s.live ∧ x ∉ s.done then some { s with done := s.done ++ [x] } else none
  | .gathered =>
    match s.pc with
    | .reaping lasted =>
      if (c.tasks (s.links - 1)).all fun x => x ∈ s.done then
        some (Client.dial { s with live := s.live.filter fun x => x ∉ c.tasks (s.links - 1) }
          (some lasted))
      else none
    | _ => none
  | .leave => if s.pc.over then none else some s.teardown
  | .tornDown =>
    if s.pc = .teardown ∧ s.live.all (fun x => x ∈ s.done) then some { s with pc := .ended } else none

/-- the links before were closed and dropped, and the dial came a second after the one before,
unless a session of a second lay between -/
structure Dial.Ok (d : Dial) : Prop where
  reset : d.held = none
  closed : d.unclosed = []
  paced : ∀ x ∈ d.before, x.2 < SEC → x.1 + SEC ≤ d.time

/-- one control link at a time, and no hot loop -/
def OneLink (s : Client) : Prop := ∀ d ∈ s.dials, d.Ok

variable {c : Config} {s s' : Client} {a : Act}

/-! ## what a step can do -/

/-- `run` dials, or sleeps before it dials again -/
def Pc.early : Pc → Bool
  | .dialing | .retry _ => true
  | _ => false

/-- `run` is between a connection and the end of its session -/
def Pc.linked : Pc → Bool
  | .announce | .udp_setup | .reannounce | .wait | .reaping _ => true
  | _ => false

/-- a step that dials nothing and leaves the links alone -/
structure Quiet (s s' : Client) : Prop where
  backoff : s'.backoff = s.backoff
  writer : s'.tcp_writer = s.tcp_writer
  links : s'.links = s.links
  shut : s'.shut = s.shut
  dials : s'.dials = s.dials
  cycle : s'.cycle_t0 = s.cycle_t0
  now : s.now ≤ s'.now
  stays : s'.pc.over = s.pc.over
  linked : s'.pc.linked = true → s.pc.linked = true
  early : s'.pc.early = true → s'.pc = s.pc

/-- All steps are quiet but five: a dial fails, the sleep after it ends, a dial succeeds, the children
of a session are reaped, and the loop is left. -/
theorem step_cases (h : step c s a = some s') : (a ≠ .gathered ∧ Quiet s s') ∨
    (a = .refused ∧ s.pc = .dialing ∧ s' = { s with pc := .retry (s.now + s.backoff * SEC) }) ∨
    (a = .wake ∧ ∃ till, s.pc = .retry till ∧ till ≤ s.now ∧
      s' = Client.dial { s with backoff := min (s.backoff * 2) 10 } (some 0)) ∨
    (a = .connected ∧ s.pc = .dialing ∧ s' = s.connect) ∨
    (a = .gathered ∧ ∃ lasted, s.pc = .reaping lasted ∧
      s' = Client.dial { s with live := s.live.filter fun x => x ∉ c.tasks (s.links - 1) }
        (some lasted)) ∨
    (a = .leave ∧ s.pc.over = false ∧ s' = s.teardown) := by
  cases a with
  | tick d =>
    obtain rfl : _ = s' := Option.some.inj h
    exact Or.inl ⟨nofun, rfl, rfl, rfl, rfl, rfl, rfl, Nat.le_add_right s.now d, rfl, id,
      fun _ => rfl⟩
  | refused =>
    simp only [step, Option.ite_none_right_eq_some, Option.some.injEq] at h
    exact Or.inr (Or.inl ⟨rfl, h.1, h.2.symm⟩)
  | wake =>
    simp only [step] at h
    split at h
    · rename_i till hpc
      simp only [Option.ite_none_right_eq_some, Option.some.injEq] at h
      exact Or.inr (Or.inr (Or.inl ⟨rfl, till, hpc, h.1, h.2.symm⟩))
    · cases h
  | connected =>
    simp only [step, Option.ite_none_right_eq_some, Option.some.injEq] at h
    exact Or.inr (Or.inr (Or.inr (Or.inl ⟨rfl, h.1, h.2.symm⟩)))
  | announced =>
    simp only [step] at h
    split at h
    · rename_i hpc
      obtain rfl := Option.some.inj h
      have hserves : (s.spawn c).pc = .udp_setup ∨ (s.spawn c).pc = .wait := by
        simp only [Client.spawn]
        split
        · exact Or.inl rfl
        · exact Or.inr rfl
      refine Or.inl ⟨nofun, rfl, rfl, rfl, rfl, rfl, rfl, le_rfl, ?_, fun _ => by rw [hpc]; rfl, ?_⟩
      · rw [hpc]
        rcases hserves with he | he <;> rw [he] <;> rfl
      · intro he'
        rcases hserves with he | he <;> rw [he] at he' <;> cases he'
    · rename_i hpc
      obtain rfl := Option.some.inj h
      exact Or.inl ⟨nofun, rfl, rfl, rfl, rfl, rfl, rfl, le_rfl, by rw [hpc]; rfl,
        fun _ => by rw [hpc]; rfl, nofun⟩
    · cases h
  | udpReady bound =>
    simp only [step, Option.ite_none_right_eq_some, Option.some.injEq] at h
    obtain ⟨⟨hpc, -⟩, rfl⟩ := h
    exact Or.inl ⟨nofun, rfl, rfl, rfl, rfl, rfl, rfl, le_rfl, by rw [hpc]; rfl,
      fun _ => by rw [hpc]; rfl, nofun⟩
  | childEnds i e =>
    simp only [step, Option.ite_none_right_eq_some, Option.some.injEq] at h
    obtain ⟨-, rfl⟩ := h
    exact Or.inl ⟨nofun, rfl, rfl, rfl, rfl, rfl, rfl, le_rfl, rfl, id, fun _ => rfl⟩
  | waitOver =>
    simp only [step, Option.ite_none_right_eq_some, Option.some.injEq] at h
    obtain ⟨⟨hpc, -⟩, rfl⟩ := h
    exact Or.inl ⟨nofun, rfl, rfl, rfl, rfl, rfl, rfl, le_rfl, by rw [hpc]; rfl,
      fun _ => by rw [hpc]; rfl, nofun⟩
  | reaped x =>
    simp only [step, Option.ite_none_right_eq_some, Option.some.injEq] at h
    obtain ⟨-, rfl⟩ := h
    exact Or.inl ⟨nofun, rfl, rfl, rfl, rfl, rfl, rfl, le_rfl, rfl, id, fun _ => rfl⟩
  | gathered =>
    simp only [step] at h
    split at h
    · rename_i lasted hpc
      simp only [Option.ite_none_right_eq_some, Option.some.injEq] at h
      exact Or.inr (Or.inr (Or.inr (Or.inr (Or.inl ⟨rfl, lasted, hpc, h.2.symm⟩))))
    · cases h
  | leave =>
    simp only [step, Option.ite_none_left_eq_some, Option.some.injEq] at h
    exact Or.inr (Or.inr (Or.inr (Or.inr (Or.inr
      ⟨rfl, Bool.eq_false_iff.mpr h.1, h.2.symm⟩))))
  | tornDown =>
    simp only [step, Option.ite_none_right_eq_some, Option.some.injEq] at h
    obtain ⟨⟨hpc, -⟩, rfl⟩ := h
    exact Or.inl ⟨nofun, rfl, rfl, rfl, rfl, rfl, rfl, le_rfl, by rw [hpc]; rfl, nofun, nofun⟩

/-! ## the links of any run -/

/-- the link that `run` holds is the last one, and nothing but the `finally` closes a link -/
structure Holds (s : Client) : Prop where
  backoff : 1 ≤ s.backoff
  held : s.pc.over = false → s.tcp_writer = if s.links = 0 then none else some (s.links - 1)
  linked : s.pc.linked = true → 0 < s.links
  shut : ∀ k ∈ s.shut, k + 1 = s.links ∧ s.pc.over = true

theorem start_holds (t0 : Nat) : Holds (start t0) where
  backoff := le_rfl
  held := fun _ => rfl
  linked := fun h => absurd h Bool.false_ne_true
  shut := fun _ hk => absurd hk List.not_mem_nil

/-- a step that moves on in the loop and leaves the links alone -/
theorem Holds.move (hi : Holds s) (hb : 1 ≤ s'.backoff) (hw : s'.tcp_writer = s.tcp_writer)
    (hl : s'.links = s.links) (hs : s'.shut = s.shut) (ho : s'.pc.over = s.pc.over)
    (hk : s'.pc.linked = true → s.pc.linked = true) : Holds s' where
  backoff := hb
  held := by rw [ho, hw, hl]; exact hi.held
  linked := fun h => by rw [hl]; exact hi.linked (hk h)
  shut := by rw [hs, hl, ho]; exact hi.shut

theorem Holds.connect (hi : Holds s) (hpc : s.pc = .dialing) : Holds s.connect where
  backoff := le_rfl
  held := fun _ => by simp [Client.connect]
  linked := fun _ => Nat.succ_pos _
  shut := fun k hk => by
    have hover := (hi.shut k hk).2
    rw [hpc] at hover
    cases hover

/-- the `finally` closes the last link -/
theorem Holds.teardown (hi : Holds s) (hpc : s.pc.over = false) : Holds s.teardown where
  backoff := hi.backoff
  held := fun h => by cases h
  linked := fun h => by cases h
  shut := fun k hk => by
    refine ⟨?_, rfl⟩
    rcases List.mem_append.mp hk with hk | hk
    · exact (hi.shut k hk).1
    · rw [hi.held hpc] at hk
      by_cases h0 : s.links = 0
      · simp [h0] at hk
      · have hlast : k = s.links - 1 := by simpa [h0] using hk
        show k + 1 = s.links
        omega

theorem step_holds (hi : Holds s) (h : step c s a = some s') : Holds s' := by
  rcases step_cases h with ⟨-, hq⟩ | ⟨-, hpc, rfl⟩ | ⟨-, till, hpc, -, rfl⟩ | ⟨-, hpc, rfl⟩ |
    ⟨-, lasted, hpc, rfl⟩ | ⟨-, hpc, rfl⟩
  · exact hi.move (hq.backoff ▸ hi.backoff) hq.writer hq.links hq.shut hq.stays hq.linked
  · exact hi.move hi.backoff rfl rfl rfl (by rw [hpc]; rfl) nofun
  · have hb : 1 ≤ min (s.backoff * 2) 10 := by
      have hback := hi.backoff
      omega
    exact hi.move hb rfl rfl rfl (by rw [hpc]; rfl) nofun
  · exact hi.connect hpc
  · exact hi.move hi.backoff rfl rfl rfl (by rw [hpc]; rfl) nofun
  · exact hi.teardown hpc

theorem run_holds {t0 : Nat} {tr : List (Client × Act)} {t : Client}
    (h : Path (step c) (start t0) tr t) : Holds t :=
  h.inv (start_holds t0) fun _ _ _ => step_holds

/-- **Every link but the last is never closed**, over any run, and the last one only on the way
out -/
theorem left_open {t0 : Nat} {tr : List (Client × Act)} {t : Client}
    (h : Path (step c) (start t0) tr t) {k : Nat} (hk : k ∈ t.shut) :
    k + 1 = t.links ∧ t.pc.over = true :=
  (run_holds h).shut k hk

/-! ## the runs with one link -/

/-- so far every dial was right, and the next one will be when the session does not end -/
structure Kept (s : Client) : Prop where
  holds : Holds s
  one : OneLink s
  fresh : s.pc.early = true → s.links = 0
  past : s.cycle_t0 ≤ s.now
  due : ∀ till, s.pc = .retry till → s.cycle_t0 + SEC ≤ till

theorem start_kept (t0 : Nat) : Kept (start t0) where
  holds := start_holds t0
  one := fun d hd => by
    rw [List.mem_singleton.mp hd]
    exact ⟨rfl, rfl, fun _ hx => by cases hx⟩
  fresh := fun _ => rfl
  past := le_rfl
  due := fun _ h => by cases h

/-- a step that dials nothing, and does not go back to the dials -/
theorem Kept.move (hk : Kept s) (hh : Holds s') (hd : s'.dials = s.dials)
    (hc : s'.cycle_t0 = s.cycle_t0) (hn : s.now ≤ s'.now)
    (he : s'.pc.early = true → s'.pc = s.pc ∧ s'.links = s.links) : Kept s' where
  holds := hh
  one := by rw [OneLink, hd]; exact hk.one
  fresh := fun h => by
    obtain ⟨hpc, hl⟩ := he h
    rw [hl]
    exact hk.fresh (hpc ▸ h)
  past := by rw [hc]; exact le_trans hk.past hn
  due := fun till h => by
    obtain ⟨hpc, -⟩ := he (by rw [h]; rfl)
    rw [hc]
    exact hk.due till (hpc ▸ h)

/-- the back-off is a second at least -/
theorem Kept.refuse (hk : Kept s) (hpc : s.pc = .dialing)
    (hh : Holds { s with pc := .retry (s.now + s.backoff * SEC) }) :
    Kept { s with pc := .retry (s.now + s.backoff * SEC) } where
  holds := hh
  one := hk.one
  fresh := fun _ => hk.fresh (by rw [hpc]; rfl)
  past := hk.past
  due := fun till h => by
    obtain rfl : _ = till := Pc.retry.inj h
    have hback : SEC ≤ s.backoff * SEC := Nat.le_mul_of_pos_left SEC hk.holds.backoff
    have hpast := hk.past
    show s.cycle_t0 + SEC ≤ s.now + s.backoff * SEC
    omega

/-- a dial after a failed one finds no link, and comes in time -/
theorem Kept.redial (hk : Kept s) {till b : Nat} (hpc : s.pc = .retry till) (ht : till ≤ s.now)
    (hh : Holds (Client.dial { s with backoff := b } (some 0))) :
    Kept (Client.dial { s with backoff := b } (some 0)) where
  holds := hh
  one := fun d hd => by
    have hlinks : s.links = 0 := hk.fresh (by rw [hpc]; rfl)
    rcases List.mem_append.mp hd with hd | hd
    · exact hk.one d hd
    · rw [List.mem_singleton.mp hd]
      refine ⟨?_, ?_, ?_⟩
      · have hheld := hk.holds.held (by rw [hpc]; rfl)
        rw [if_pos hlinks] at hheld
        exact hheld
      · simp [Client.unclosed, hlinks]
      · rintro x ⟨⟩ -
        have hdue := hk.due till hpc
        show s.cycle_t0 + SEC ≤ s.now
        omega
  fresh := fun _ => hk.fresh (by rw [hpc]; rfl)
  past := le_rfl
  due := fun _ h => by cases h

theorem step_kept (hk : Kept s) (hok : a ≠ .gathered) (h : step c s a = some s') : Kept s' := by
  have hh := step_holds hk.holds h
  rcases step_cases h with ⟨-, hq⟩ | ⟨-, hpc, rfl⟩ | ⟨-, till, hpc, ht, rfl⟩ | ⟨-, -, rfl⟩ |
    ⟨ha, -⟩ | ⟨-, -, rfl⟩
  · exact hk.move hh hq.dials hq.cycle hq.now fun he => ⟨hq.early he, hq.links⟩
  · exact hk.refuse hpc hh
  · exact hk.redial hpc ht hh
  · exact hk.move hh rfl rfl le_rfl nofun
  · exact absurd ha hok
  · exact hk.move hh rfl rfl le_rfl nofun

/-- The dial that follows a session finds its link held and open. -/
theorem gathered_dials (hi : Holds s) (h : step c s .gathered = some s') : ¬ OneLink s' := by
  rcases step_cases h with ⟨hno, -⟩ | ⟨ha, -⟩ | ⟨ha, -⟩ | ⟨ha, -⟩ | ⟨-, lasted, hpc, rfl⟩ | ⟨ha, -⟩
  · exact absurd rfl hno
  · cases ha
  · cases ha
  · cases ha
  · intro hone
    have hd := (hone _ (List.mem_append_right _ (List.mem_singleton_self _))).reset
    have hheld : s.tcp_writer = none := hd
    have hlinks : 0 < s.links := hi.linked (by rw [hpc]; rfl)
    rw [hi.held (by rw [hpc]; rfl), if_neg (by omega)] at hheld
    cases hheld
  · cases ha

/-- **One link at a time, and no hot loop**, along a run: exactly when no session of the run ends
by its children.  Failed dials are spaced by the back-off, and a session that ends with `run` itself
is closed by the `finally`; any other one is followed by a dial at once. -/
theorem one_link_iff {t0 : Nat} {tr : List (Client × Act)} {t : Client}
    (h : Path (step c) (start t0) tr t) :
    (∀ u ∈ visited tr t, OneLink u) ↔ ∀ x ∈ tr, x.2 ≠ .gathered := by
  have hstep : ∀ u a u', Kept u → a ≠ .gathered → step c u a = some u' → Kept u' :=
    fun _ _ _ hk hok hst => step_kept hk hok hst
  have hbad : ∀ u a u', Kept u → ¬ a ≠ .gathered → step c u a = some u' → ¬ OneLink u' := by
    intro u a u' hk hno hst
    rw [not_not.mp hno] at hst
    exact gathered_dials hk.holds hst
  exact h.all_iff_ok (start_kept t0) (fun _ hk => hk.one) hstep hbad

/-- two dials fail, the third one connects, and the user stops the client -/
def oneSession : List Act :=
  [.refused, .tick (1 * SEC), .wake, .refused, .tick (2 * SEC), .wake, .connected, .announced,
   .tick 5, .leave]

theorem one_link_oneSession : ∃ t, run (step ⟨[], [7777], [], false⟩) (start 0) oneSession = some t ∧
    t.dials.length = 3 ∧
    ∀ u ∈ visited (trace (step ⟨[], [7777], [], false⟩) (start 0) oneSession) t, OneLink u := by
  have hsome : (run (step ⟨[], [7777], [], false⟩) (start 0) oneSession).isSome = true := by
    decide
  obtain ⟨t, ht⟩ := Option.isSome_iff_exists.mp hsome
  have hlen : ∀ t ∈ run (step ⟨[], [7777], [], false⟩) (start 0) oneSession, t.dials.length = 3 := by
    decide
  have hok : ∀ x ∈ trace (step ⟨[], [7777], [], false⟩) (start 0) oneSession, x.2 ≠ .gathered := by
    decide
  exact ⟨t, ht, hlen t ht, (one_link_iff (path_run ht)).mpr hok⟩

/-- the port of the one listener is taken -/
def clash : List Act :=
  [.connected, .announced, .childEnds 1 .bindFailed, .waitOver, .reaped (0, 0), .reaped (0, 2),
   .gathered]

/-- the second dial is made at once, with the first link held and open -/
theorem clash_redials : ∃ t, run (step ⟨[], [7777], [], false⟩) (start 0) clash = some t ∧
    t.dials = [⟨0, none, [], none⟩, ⟨0, some 0, [0], some (0, 0)⟩] ∧ ¬ OneLink t := by
  have hsome : (run (step ⟨[], [7777], [], false⟩) (start 0) clash).isSome = true := by
    decide
  obtain ⟨t, ht⟩ := Option.isSome_iff_exists.mp hsome
  have hdials : ∀ t ∈ run (step ⟨[], [7777], [], false⟩) (start 0) clash,
      t.dials = [⟨0, none, [], none⟩, ⟨0, some 0, [0], some (0, 0)⟩] := by
    decide
  refine ⟨t, ht, hdials t ht, fun hone => ?_⟩
  have hd := (hone ⟨0, some 0, [0], some (0, 0)⟩ (by rw [hdials t ht]; simp)).reset
  cases hd

end WinClient
end ShadowLan
