import Mathlib.Logic.Equiv.Fin.Basic
import ShadowLan.Lib.Runs
import ShadowLan.Hook.Pump

/-!
# The stream table

`StreamTable` is the table `g_st` with everyone who works on it: the app's calls, all stream
threads that were ever spawned, and the exit drain.  The app's calls find a slot by its socket
number (`bySock`: the first used slot with that number), a thread finds its slot by stream id once,
at its start, and keeps the pointer.

Beside what the code keeps, the table records for every slot who owns it: the socket its stream
was dialed on, whether the app has closed that socket since, and which thread was spawned for it.

* `StreamTable.step`          one section of anyone;
* `StreamTable.step_keeps`    no section but `dt_stream_alloc` takes a slot or gives it a socket.
-/

namespace ShadowLan

abbrev DT_MAXSTREAM : Nat := 128

/-- index of a slot of `g_st` -/
abbrev Slot := Fin DT_MAXSTREAM

/-- a stream thread, and the slot it found at its start -/
structure Worker where
  slot : Option Slot
  thread : Thread

structure StreamTable where
  g_st : Slot → DtStream
  /-- the stream threads, in the order they were spawned -/
  threads : List Worker
  /-- calls of `dt_on_connect` between their look at the table and `dt_stream_alloc` -/
  pending : List (Nat × SockaddrIn)
  drain : Slot → DrainPc
  owner : Slot → Nat
  closed : Slot → Bool
  tid : Slot → Nat

inductive TableAct where
  | connect (s : Nat) (dst : SockaddrIn)
  /-- `dt_stream_alloc` and the spawn of the thread, for the `k`-th pending call -/
  | alloc (k sid : Nat)
  | send (s : Nat) (buf : List Byte)
  | pop (s blen : Nat)
  | shutdown (s : Nat) (rd wr : Bool)
  | markConnect (s : Nat)
  | close (s : Nat)
  /-- the `k`-th thread looks its slot up -/
  | lookup (k : Nat)
  | thread (k : Nat) (e : Ev)
  | drain (i : Slot) (e : DrainEv)

namespace StreamTable

/-- the table as the process starts -/
def init : StreamTable where
  g_st := fun _ => .zero
  threads := []
  pending := []
  drain := fun _ => .idle
  owner := fun _ => 0
  closed := fun _ => false
  tid := fun _ => 0

/-- `dt_stream_by_sock` -/
def bySock (T : StreamTable) (s : Nat) : Option Slot :=
  if s = 0 then none else Fin.find? fun i => (T.g_st i).used && (T.g_st i).gsock == s

/-- `dt_stream_by_sid` -/
def bySid (T : StreamTable) (sid : Nat) : Option Slot :=
  Fin.find? fun i => (T.g_st i).used && (T.g_st i).sid == sid

/-- `dt_stream_by_sock_peeked` -/
def peeked (g_st : Slot → DtStream) (dst : SockaddrIn) : Option Slot :=
  Fin.find? fun i => (g_st i).used && (g_st i).gsock != 0 && (g_st i).orig == dst

/-- the first free slot -/
def freeSlot (T : StreamTable) : Option Slot := Fin.find? fun i => !(T.g_st i).used

/-- one slot gets new content -/
def set (T : StreamTable) (i : Slot) (st : DtStream) : StreamTable :=
  { T with g_st := Function.update T.g_st i st }

/-- a call of the app on the slot of its socket -/
def onSlot (T : StreamTable) (s : Nat) (f : DtStream → DtStream) : StreamTable :=
  match T.bySock s with
  | some i => T.set i (f (T.g_st i))
  | none => T

/-- `dt_stream_alloc`; a thread is spawned for the stream -/
def alloc (T : StreamTable) (s : Nat) (dst : SockaddrIn) (sid : Nat) : StreamTable :=
  match T.freeSlot with
  | some i =>
    { T.set i ((T.g_st i).alloc s dst sid) with
      threads := T.threads ++ [⟨none, ⟨sid, .start⟩⟩],
      owner := Function.update T.owner i s,
      closed := Function.update T.closed i false,
      tid := Function.update T.tid i T.threads.length }
  | none => T

/-- `dt_on_close` -/
def onClose (T : StreamTable) (s : Nat) : StreamTable :=
  { T.onSlot s DtStream.close with closed := fun i => T.closed i || T.owner i == s }

/-- the start of `dt_stream_thread` -/
def lookup (T : StreamTable) (k : Nat) (w : Worker) : StreamTable :=
  match T.bySid w.thread.sid with
  | some i =>
    if (T.g_st i).gsock = 0 then
      { T with threads := T.threads.set k ⟨none, ⟨w.thread.sid, .done⟩⟩ }
    else { T with threads := T.threads.set k ⟨some i, ⟨w.thread.sid, .dial⟩⟩ }
  | none => { T with threads := T.threads.set k ⟨none, ⟨w.thread.sid, .done⟩⟩ }

/-- the verdict of the abandoned stream in slot `i` goes to a stream with the same destination -/
def handOver (g_st : Slot → DtStream) (dst : SockaddrIn) : Option Nat → Slot → DtStream
  | none => g_st
  | some v =>
    match peeked g_st dst with
    | some j => Function.update g_st j ((g_st j).handed v)
    | none => g_st

/-- a section of thread `k` on its slot `i` -/
def afterThread (T : StreamTable) (k : Nat) (i : Slot) (st : DtStream) (t : Thread) (x : Eff) :
    StreamTable :=
  { T with
    g_st := handOver (Function.update T.g_st i st) (T.g_st i).orig x.vfail,
    threads := T.threads.set k ⟨some i, t⟩,
    drain := Function.update T.drain i (if x.freed then (T.drain i).free else T.drain i) }

def step (T : StreamTable) : TableAct → Option StreamTable
  | .connect s dst =>
    match T.bySock s with
    | some _ => some T
    | none => some { T with pending := T.pending ++ [(s, dst)] }
  | .alloc k sid =>
    match T.pending[k]? with
    | some (s, dst) => some ({ T with pending := T.pending.eraseIdx k }.alloc s dst sid)
    | none => none
  | .send s buf => some (T.onSlot s fun st => (st.send buf).1)
  | .pop s blen => some (T.onSlot s fun st => (st.pop blen).1)
  | .shutdown s rd wr => some (T.onSlot s fun st => st.shutdown rd wr)
  | .markConnect s => some (T.onSlot s fun st => { st with connectSignaled := true })
  | .close s => some (T.onClose s)
  | .lookup k =>
    match T.threads[k]? with
    | some w => if w.thread.pc = .start then some (T.lookup k w) else none
    | none => none
  | .thread k e =>
    match T.threads[k]? with
    | some ⟨some i, t⟩ =>
      (Thread.step (T.g_st i) t e).map fun r => T.afterThread k i r.1 r.2.1 r.2.2
    | _ => none
  | .drain i e =>
    (drainStep (T.g_st i) (T.drain i) e).map fun r =>
      { T.set i r.1 with drain := Function.update T.drain i r.2.1 }

end StreamTable

/-! ## the identity of a slot -/

/-- a section that neither takes the slot nor gives it another stream or socket, nor takes a
`close()` back -/
structure DtStream.Keeps (st st' : DtStream) : Prop where
  used : st'.used = true → st.used = true
  gsock : st'.gsock = st.gsock ∨ st'.gsock = 0
  sid : st'.sid = st.sid
  dead : st.dead = true → st'.dead = true

namespace DtStream

theorem Keeps.refl (st : DtStream) : st.Keeps st := ⟨id, Or.inl rfl, rfl, id⟩

theorem Keeps.trans {a b c : DtStream} (h : a.Keeps b) (h' : b.Keeps c) : a.Keeps c := by
  refine ⟨fun hu => h.used (h'.used hu), ?_, h'.sid.trans h.sid, fun hd => h'.dead (h.dead hd)⟩
  rcases h'.gsock with e | e
  · rcases h.gsock with e' | e'
    · exact Or.inl (e.trans e')
    · exact Or.inr (e.trans e')
  · exact Or.inr e

theorem send_keeps (st : DtStream) (buf : List Byte) : st.Keeps (st.send buf).1 := by
  unfold send
  by_cases h1 : st.wrShut = true
  · rw [if_pos h1]; exact .refl st
  · rw [if_neg h1]
    by_cases h2 : st.dead = true ∨ st.state = .dead
    · rw [if_pos h2]; exact .refl st
    · rw [if_neg h2]
      cases st.room buf.length with
      | none => exact ⟨id, Or.inl rfl, rfl, id⟩
      | some len => dsimp only; split_ifs <;> exact ⟨id, Or.inl rfl, rfl, id⟩

theorem pop_keeps (st : DtStream) (blen : Nat) : st.Keeps (st.pop blen).1 := by
  unfold pop
  dsimp only
  split_ifs <;> exact ⟨id, Or.inl rfl, rfl, id⟩

theorem shutdown_keeps (st : DtStream) (rd wr : Bool) : st.Keeps (st.shutdown rd wr) := by
  cases rd <;> cases wr <;> exact ⟨id, Or.inl rfl, rfl, id⟩

theorem close_keeps (st : DtStream) : st.Keeps st.close := by
  unfold close freeQueues
  dsimp only
  split_ifs with h1 h2 h2
  · exact ⟨nofun, Or.inr rfl, rfl, fun _ => rfl⟩
  · exact ⟨id, Or.inr rfl, rfl, fun _ => rfl⟩
  · exact ⟨nofun, Or.inl rfl, rfl, fun _ => rfl⟩
  · exact ⟨id, Or.inl rfl, rfl, fun _ => rfl⟩

theorem handed_keeps (st : DtStream) (v : Nat) : st.Keeps (st.handed v) := by
  unfold handed
  split_ifs <;> exact ⟨id, Or.inl rfl, rfl, id⟩

theorem failLocal_keeps (st : DtStream) (r : Nat) : st.Keeps (st.failLocal r) := by
  unfold failLocal
  split_ifs <;> exact ⟨id, Or.inl rfl, rfl, id⟩

theorem goLive_keeps (st : DtStream) (sid fd : Nat) : st.Keeps (st.goLive sid fd) := by
  unfold goLive
  split_ifs <;> exact ⟨id, Or.inl rfl, rfl, id⟩

theorem died_keeps (st : DtStream) (sid : Nat) : st.Keeps (st.died sid) := by
  unfold died
  split_ifs <;> exact ⟨id, Or.inl rfl, rfl, id⟩

theorem verdict_keeps (st : DtStream) (sid type : Nat) (rp : List Byte) :
    st.Keeps (st.verdict sid type rp) := by
  unfold verdict
  split_ifs <;> exact ⟨id, Or.inl rfl, rfl, id⟩

theorem atHead_keeps (st : DtStream) (sid : Nat) : st.Keeps (st.atHead sid) := by
  unfold atHead
  split_ifs <;> exact ⟨id, Or.inl rfl, rfl, id⟩

theorem hardErr_keeps (st : DtStream) (sid : Nat) : st.Keeps (st.hardErr sid) := by
  unfold hardErr
  split_ifs <;> exact ⟨id, Or.inl rfl, rfl, id⟩

theorem fin_keeps (st : DtStream) (sid : Nat) : st.Keeps (st.fin sid) := by
  unfold fin
  split_ifs <;> exact ⟨id, Or.inl rfl, rfl, id⟩

theorem sent_keeps (st : DtStream) (sid k : Nat) : st.Keeps (st.sent sid k) := by
  unfold sent
  dsimp only
  split_ifs <;> exact ⟨id, Or.inl rfl, rfl, id⟩

theorem drained_keeps (st : DtStream) (sid : Nat) : st.Keeps (st.drained sid) := by
  unfold drained
  split_ifs
  · cases st.oh with
    | nil => exact .refl st
    | cons c q => exact ⟨id, Or.inl rfl, rfl, id⟩
  · exact .refl st

theorem flushed_keeps (st : DtStream) (off0 : Nat) : st.Keeps (st.flushed off0) := by
  unfold flushed
  dsimp only
  split_ifs
  · cases st.oh with
    | nil => exact ⟨id, Or.inl rfl, rfl, id⟩
    | cons c q => exact ⟨id, Or.inl rfl, rfl, id⟩
  · exact ⟨id, Or.inl rfl, rfl, id⟩

theorem queued_keeps (st : DtStream) (sid : Nat) (buf : List Byte) :
    st.Keeps (st.queued sid buf) := by
  unfold queued
  split_ifs <;> exact ⟨id, Or.inl rfl, rfl, id⟩

theorem retire_keeps (st : DtStream) (sid : Nat) : st.Keeps (st.retire sid) := by
  unfold retire freeQueues
  dsimp only
  split_ifs
  · exact ⟨nofun, Or.inl rfl, rfl, id⟩
  · exact ⟨id, Or.inl rfl, rfl, id⟩
  · exact ⟨id, Or.inl rfl, rfl, id⟩

end DtStream

theorem Thread.Section.keeps {st st' : DtStream} {sid : Nat} {pc pc' : Pc} {e : Ev} {x : Eff}
    (h : Thread.Section st sid pc e st' pc' x) : st.Keeps st' := by
  cases h with
  | dialFailed | stopenFailed => exact st.failLocal_keeps _
  | stopened fd => exact st.goLive_keeps sid fd
  | died => exact st.died_keeps sid
  | detached => exact ⟨nofun, Or.inl rfl, rfl, id⟩
  | opened type rp | refused type rp => exact st.verdict_keeps sid type rp
  | headDead | headLive => exact st.atHead_keeps sid
  | take | again => exact ⟨id, Or.inl rfl, rfl, id⟩
  | commit rd k => exact st.sent_keeps sid k
  | recvErr => exact st.hardErr_keeps sid
  | recvFin => exact st.fin_keeps sid
  | recv buf => exact st.queued_keeps sid buf
  | drainOk => exact st.drained_keeps sid
  | retire => exact st.retire_keeps sid
  | _ => exact .refl st

theorem DrainSection.keeps {st st' : DtStream} {d d' : DrainPc} {e : DrainEv} {x : Eff}
    (h : DrainSection st d e st' d' x) : st.Keeps st' := by
  cases h with
  | ok fd off0 => exact st.flushed_keeps off0
  | release => split_ifs <;> exact ⟨id, Or.inl rfl, rfl, id⟩
  | takeNone | push => exact .refl st
  | _ => exact ⟨id, Or.inl rfl, rfl, id⟩

namespace StreamTable

theorem keeps_update {g : Slot → DtStream} {i : Slot} {st : DtStream} (h : (g i).Keeps st)
    (j : Slot) : (g j).Keeps (Function.update g i st j) := by
  by_cases hj : j = i
  · subst hj; rw [Function.update_self]; exact h
  · rw [Function.update_of_ne hj]; exact .refl _

theorem keeps_onSlot (T : StreamTable) (s : Nat) (f : DtStream → DtStream)
    (hf : ∀ st : DtStream, st.Keeps (f st)) (j : Slot) : (T.g_st j).Keeps ((T.onSlot s f).g_st j) := by
  unfold onSlot
  cases T.bySock s with
  | none => exact .refl _
  | some i => exact keeps_update (hf _) j

theorem onSlot_pending (T : StreamTable) (s : Nat) (f : DtStream → DtStream) :
    (T.onSlot s f).pending = T.pending := by
  unfold onSlot
  cases T.bySock s <;> rfl

theorem keeps_handOver (g : Slot → DtStream) (dst : SockaddrIn) (v : Option Nat) (j : Slot) :
    (g j).Keeps (handOver g dst v j) := by
  unfold handOver
  cases v with
  | none => exact .refl _
  | some v =>
    dsimp only
    cases peeked g dst with
    | none => exact .refl _
    | some k => exact keeps_update ((g k).handed_keeps v) j

theorem keeps_afterThread (T : StreamTable) (k : Nat) (i : Slot) {st : DtStream} (t : Thread)
    (x : Eff) (h : (T.g_st i).Keeps st) (j : Slot) :
    (T.g_st j).Keeps ((T.afterThread k i st t x).g_st j) := by
  have h1 := keeps_update h j
  have h2 := keeps_handOver (Function.update T.g_st i st) (T.g_st i).orig x.vfail j
  exact h1.trans h2

/-- what a step other than `dt_stream_alloc` keeps -/
structure StepKeeps (T T' : StreamTable) (a : TableAct) : Prop where
  slots : ∀ i, (T.g_st i).Keeps (T'.g_st i)
  owner : T'.owner = T.owner
  tid : T'.tid = T.tid
  pending : (∀ s dst, a ≠ .connect s dst) → T'.pending = T.pending
  closed : (∀ s, a ≠ .close s) → T'.closed = T.closed

theorem onSlot_stepKeeps (T : StreamTable) (a : TableAct) (s : Nat) (f : DtStream → DtStream)
    (hf : ∀ st : DtStream, st.Keeps (f st)) : StepKeeps T (T.onSlot s f) a := by
  refine ⟨T.keeps_onSlot s f hf, ?_, ?_, fun _ => T.onSlot_pending s f, fun _ => ?_⟩ <;>
    (unfold onSlot; cases T.bySock s <;> rfl)

theorem step_keeps {T T' : StreamTable} {a : TableAct} (h : T.step a = some T')
    (ha : ∀ k sid, a ≠ .alloc k sid) : StepKeeps T T' a := by
  cases a with
  | alloc k sid => exact absurd rfl (ha k sid)
  | connect s dst =>
    simp only [step] at h
    cases hf : T.bySock s with
    | some i =>
      rw [hf] at h; cases h
      exact ⟨fun _ => .refl _, rfl, rfl, fun _ => rfl, fun _ => rfl⟩
    | none =>
      rw [hf] at h; cases h
      exact ⟨fun _ => .refl _, rfl, rfl, fun hn => absurd rfl (hn s dst), fun _ => rfl⟩
  | send s buf =>
    cases h
    exact T.onSlot_stepKeeps _ s (fun st => (st.send buf).1) fun st => st.send_keeps buf
  | pop s blen =>
    cases h
    exact T.onSlot_stepKeeps _ s (fun st => (st.pop blen).1) fun st => st.pop_keeps blen
  | shutdown s rd wr =>
    cases h
    exact T.onSlot_stepKeeps _ s (fun st => st.shutdown rd wr) fun st => st.shutdown_keeps rd wr
  | markConnect s =>
    cases h
    exact T.onSlot_stepKeeps _ s (fun st => { st with connectSignaled := true })
      fun _ => ⟨id, Or.inl rfl, rfl, id⟩
  | close s =>
    cases h
    have hk := T.onSlot_stepKeeps (.close s) s DtStream.close DtStream.close_keeps
    exact ⟨hk.slots, hk.owner, hk.tid, hk.pending, fun hn => absurd rfl (hn s)⟩
  | lookup k =>
    simp only [step] at h
    cases hk : T.threads[k]? with
    | none => rw [hk] at h; cases h
    | some w =>
      rw [hk] at h
      obtain ⟨-, h⟩ := Option.ite_none_right_eq_some.mp h
      rw [← Option.some.inj h]
      unfold lookup
      cases T.bySid w.thread.sid with
      | none => exact ⟨fun _ => .refl _, rfl, rfl, fun _ => rfl, fun _ => rfl⟩
      | some i =>
        dsimp only
        split_ifs <;> exact ⟨fun _ => .refl _, rfl, rfl, fun _ => rfl, fun _ => rfl⟩
  | thread k e =>
    simp only [step] at h
    cases hk : T.threads[k]? with
    | none => rw [hk] at h; cases h
    | some w =>
      obtain ⟨slot, t⟩ := w
      cases slot with
      | none => rw [hk] at h; cases h
      | some i =>
        rw [hk] at h
        obtain ⟨⟨st', t', x⟩, hsec, e⟩ := Option.map_eq_some_iff.mp h
        have hkeep := (Thread.step_section hsec).2.keeps
        rw [← e]
        exact ⟨T.keeps_afterThread k i t' x hkeep, rfl, rfl, fun _ => rfl, fun _ => rfl⟩
  | drain i e =>
    simp only [step] at h
    obtain ⟨⟨st', d', x⟩, hsec, rfl⟩ := Option.map_eq_some_iff.mp h
    exact ⟨keeps_update (drainStep_section hsec).keeps, rfl, rfl, fun _ => rfl, fun _ => rfl⟩

end StreamTable

end ShadowLan
