import Mathlib.Data.List.Nodup
import ShadowLan.Hook.Poll
import ShadowLan.Hook.Receive
import ShadowLan.Hook.WinRecv

/-!
# What FIONREAD counts and `recv` reads

The in-queue of a stream is a linked list with a tail pointer and a count of its bytes.  An app that
asks `ioctl(FIONREAD)` and then reads just so much relies on all three: `dt_stream_pop` gathers across
the chunks, and the count has to be what is left.

* `InSlot`                     a slot with the addresses of its chunks, and the tail pointer;
* `popLoop`, `pop`, `queued`, `shutdown`   what is done to the list, pointers included;
* `Ordered`                    the tail pointer is the last chunk's, and the count is the content's;
* `ordered_run`                the slot of a stream is ordered in every run;
* `fionread`, `linuxRecv`      the app's calls;
* `pop_refines`                on an ordered slot this is `DtStream.pop`;
* `fionread_exact`             what is counted, what is reported readable and what is read agree.

`dt_on_close`, the retiring of a slot and the clearing behind a refused verdict empty the list as a
whole, and are not among the sections here.  `linuxRecv` waits with a slot, as `tcpWait` does.
-/

namespace ShadowLan

/-- a chunk and the address it lies at -/
abbrev Cell := Nat × Chunk Byte

/-- a slot whose in-queue is a linked list: the chunks from `h` on by their `next`, and `t` -/
structure InSlot where
  st : DtStream
  h : List Cell
  t : Option Nat

/-- what the loop of `dt_stream_pop` works on -/
structure Popping where
  h : List Cell
  t : Option Nat
  total : Nat
  got : List Byte

/-- `while (st->h && got < blen)`; a chunk that keeps something has filled the buffer -/
def popLoop (blen : Nat) : List Cell → Option Nat → Nat → List Byte → Popping
  | [], t, total, got => ⟨[], t, total, got⟩
  | (a, c) :: next, t, total, got =>
    if got.length < blen then
      let n := min (c.n - c.off) (blen - got.length)
      let got := got ++ c.rest.take n
      let total := subSize total n
      if c.off + n < c.n then ⟨(a, ⟨c.p, c.off + n⟩) :: next, t, total, got⟩
      else popLoop blen next (if next = [] then none else t) total got
    else ⟨(a, c) :: next, t, total, got⟩

/-- `c` becomes the `next` of the chunk at `a` -/
def linkAfter (a : Nat) (c : Cell) : List Cell → List Cell
  | [] => []
  | x :: h => if x.1 = a then [x, c] else x :: linkAfter a c h

namespace InSlot

/-- the slot as `dt_stream_alloc` leaves it -/
def alloc (st : DtStream) (gsock : Nat) (dst : SockaddrIn) (sid : Nat) : InSlot :=
  ⟨st.alloc gsock dst sid, [], none⟩

variable (x : InSlot)

/-- `dt_stream_pop` -/
def pop (blen : Nat) : InSlot × Int × List Byte :=
  if x.h ≠ [] then
    let p := popLoop blen x.h x.t x.st.total []
    let st : DtStream := { x.st with h := p.h.map Prod.snd, total := p.total }
    if st.inPaused ∧ st.total < DT_ST_MAXIN / 2 then
      (⟨{ st with inPaused := false }, p.h, p.t⟩, 1, p.got)
    else (⟨st, p.h, p.t⟩, 1, p.got)
  else if x.st.dead ∨ x.st.state = .dead ∨ x.st.peerFin ∨ x.st.rdShut then (x, -1, [])
  else (x, 0, [])

/-- bytes read from the relay connection are queued, in a chunk that lies at `a` -/
def queued (sid a : Nat) (buf : List Byte) : InSlot :=
  if x.st.mine sid then
    if DT_ST_MAXIN < x.st.total + buf.length then { x with st := { x.st with inPaused := true } }
    else
      let h := match x.t with
        | some l => linkAfter l (a, ⟨buf, 0⟩) x.h
        | none => [(a, ⟨buf, 0⟩)]
      ⟨{ x.st with h := h.map Prod.snd, total := x.st.total + buf.length }, h, some a⟩
  else x

/-- `shutdown`: with the read side goes the in-queue -/
def shutdown (rd wr : Bool) : InSlot :=
  if rd then ⟨x.st.shutdown rd wr, [], none⟩ else { x with st := x.st.shutdown rd wr }

/-- The slot shows the list, the tail pointer is the last chunk's, and the count is that of the
content and a machine word. -/
structure Ordered : Prop where
  shown : x.st.h = x.h.map Prod.snd
  tail : x.t = x.h.getLast?.map Prod.fst
  apart : (x.h.map Prod.fst).Nodup
  offs : ∀ c ∈ x.h, c.2.off ≤ c.2.n
  count : x.st.total = (bytes x.st.h).length
  word : x.st.total < 2 ^ 64

/-- a read of `blen` bytes takes the front of the content, and the rest stays -/
structure Reads (blen : Nat) : Prop where
  got : (x.pop blen).2.2 = (bytes x.st.h).take blen
  len : (x.pop blen).2.2.length = min x.st.total blen
  rest : bytes (x.pop blen).1.st.h = (bytes x.st.h).drop blen
  left : (x.pop blen).1.st.total = (bytes (x.pop blen).1.st.h).length
  tail : (x.pop blen).1.t = none ↔ (x.pop blen).1.h = []

end InSlot

/-- the sections that touch the in-queue while the stream is in use -/
inductive InAct where
  | pop (blen : Nat)
  | queued (sid a : Nat) (buf : List Byte)
  | shutdown (rd wr : Bool)

/-- one section; a new chunk lies where no chunk of the list does -/
def InSlot.step (x : InSlot) : InAct → Option InSlot
  | .pop blen => some (x.pop blen).1
  | .queued sid a buf => if a ∈ x.h.map Prod.fst then none else some (x.queued sid a buf)
  | .shutdown rd wr => some (x.shutdown rd wr)

/-- `ioctl(fd, FIONREAD, ..)`: the `int` that it stores; `none` leaves it to the real call -/
def fionread (g_direct : Bool) (T : StreamTable) (fd : Nat) : Option Int :=
  if g_direct then (T.bySock fd).map fun i => ((T.g_st i).total : Int).bmod (2 ^ 32) else none

/-- `recv` on Linux, whose call to `dt_tcp_wait` sees the tables `l`, `later` -/
def linuxRecv (g_direct nb : Bool) (tmo : Int) (l : Look) (later : List Look) (s len : Nat) :
    Option (StreamTable × RecvOut) :=
  if g_direct && (l.T.bySock s).isSome then
    (tcpWait s len tmo nb l.now false (l :: later)).map fun p =>
      if p.2.1 = 1 then (p.1, .got p.2.2)
      else if p.2.1 = -1 then
        (p.1, if p.1.ofSock s (fun st => st.fail == DT_RSTMARK) then .reset else .eof)
      else (p.1, .wouldBlock)
  else some (l.T, .provider)

/-! ## the loop -/

/-- the loop gathers, and leaves the chunks that `gather` leaves -/
theorem popLoop_gather (blen : Nat) (h : List Cell) (t : Option Nat) (total : Nat)
    (got : List Byte) (hle : got.length ≤ blen) :
    (popLoop blen h t total got).h.map Prod.snd
        = (gather (h.map Prod.snd) (blen - got.length)).2 ∧
      (popLoop blen h t total got).got
        = got ++ (gather (h.map Prod.snd) (blen - got.length)).1 := by
  induction h generalizing t total got with
  | nil => exact ⟨rfl, (List.append_nil got).symm⟩
  | cons x next ih =>
    obtain ⟨a, c⟩ := x
    unfold popLoop gather
    rw [List.map_cons]
    by_cases hlt : got.length < blen
    · have hk := c.length_take_rest (blen - got.length)
      have hne : blen - got.length ≠ 0 := by omega
      rw [if_pos hlt]
      dsimp only
      rw [if_neg hne]
      by_cases hstay : c.off + min (c.n - c.off) (blen - got.length) < c.n
      · rw [if_pos hstay, if_pos hstay]
        exact ⟨rfl, rfl⟩
      · rw [if_neg hstay, if_neg hstay]
        obtain ⟨h1, h2⟩ := ih (if next = [] then none else t)
          (subSize total (min (c.n - c.off) (blen - got.length)))
          (got ++ c.rest.take (min (c.n - c.off) (blen - got.length)))
          (by rw [List.length_append, hk]; omega)
        rw [List.length_append, hk, ← Nat.sub_sub] at h1 h2
        exact ⟨h1, h2.trans (List.append_assoc ..)⟩
    · have hzero : blen - got.length = 0 := by omega
      rw [if_neg hlt]
      dsimp only
      rw [if_pos hzero]
      exact ⟨rfl, (List.append_nil got).symm⟩

/-- the count goes down by what is gathered -/
theorem popLoop_total (blen : Nat) (h : List Cell) (t : Option Nat) (total : Nat)
    (got : List Byte) (hle : got.length ≤ blen)
    (hcount : total = (bytes (h.map Prod.snd)).length) (hword : total < 2 ^ 64) :
    (popLoop blen h t total got).total
      = (bytes ((popLoop blen h t total got).h.map Prod.snd)).length := by
  induction h generalizing t total got with
  | nil => exact hcount
  | cons x next ih =>
    obtain ⟨a, c⟩ := x
    have hcount : total = c.n - c.off + (bytes (next.map Prod.snd)).length := by
      rw [hcount, List.map_cons, bytes_cons, List.length_append, Chunk.length_rest]
    unfold popLoop
    by_cases hlt : got.length < blen
    · have hk := c.length_take_rest (blen - got.length)
      have hsub : subSize total (min (c.n - c.off) (blen - got.length))
          = total - min (c.n - c.off) (blen - got.length) := subSize_eq _ _ (by omega) (by omega)
      rw [if_pos hlt]
      dsimp only
      rw [hsub]
      by_cases hstay : c.off + min (c.n - c.off) (blen - got.length) < c.n
      · rw [if_pos hstay, List.map_cons, bytes_cons, List.length_append, Chunk.length_rest]
        show total - min (c.n - c.off) (blen - got.length)
          = c.n - (c.off + min (c.n - c.off) (blen - got.length)) + _
        omega
      · rw [if_neg hstay]
        apply ih
        · rw [List.length_append, hk]
          omega
        · omega
        · omega
    · rw [if_neg hlt, List.map_cons, bytes_cons, List.length_append, Chunk.length_rest]
      exact hcount

/-- the tail pointer stays that of the last chunk, and the chunks stay where they lie -/
theorem popLoop_tail (blen : Nat) (h : List Cell) (t : Option Nat) (total : Nat)
    (got : List Byte) (ht : t = h.getLast?.map Prod.fst) :
    (popLoop blen h t total got).t = (popLoop blen h t total got).h.getLast?.map Prod.fst ∧
      ((popLoop blen h t total got).h.map Prod.fst).Sublist (h.map Prod.fst) := by
  induction h generalizing t total got with
  | nil => exact ⟨ht, List.Sublist.refl _⟩
  | cons x next ih =>
    obtain ⟨a, c⟩ := x
    unfold popLoop
    dsimp only
    split_ifs with hlt hstay hnil
    · refine ⟨?_, List.Sublist.refl _⟩
      rw [ht]
      cases next with
      | nil => rfl
      | cons y next => rfl
    · obtain ⟨h1, h2⟩ := ih none (subSize total (min (c.n - c.off) (blen - got.length)))
        (got ++ c.rest.take (min (c.n - c.off) (blen - got.length))) (by rw [hnil]; rfl)
      exact ⟨h1, h2.cons a⟩
    · obtain ⟨y, rest, rfl⟩ := List.exists_cons_of_ne_nil hnil
      obtain ⟨h1, h2⟩ := ih t (subSize total (min (c.n - c.off) (blen - got.length)))
        (got ++ c.rest.take (min (c.n - c.off) (blen - got.length))) ht
      exact ⟨h1, h2.cons a⟩
    · exact ⟨ht, List.Sublist.refl _⟩

theorem popLoop_offs (blen : Nat) (h : List Cell) (t : Option Nat) (total : Nat)
    (got : List Byte) (hoffs : ∀ c ∈ h, c.2.off ≤ c.2.n) :
    ∀ c ∈ (popLoop blen h t total got).h, c.2.off ≤ c.2.n := by
  induction h generalizing t total got with
  | nil => exact hoffs
  | cons x next ih =>
    obtain ⟨a, c⟩ := x
    unfold popLoop
    dsimp only
    split_ifs with hlt hstay hnil
    · intro y hy
      rcases List.mem_cons.mp hy with rfl | hy
      · exact Nat.le_of_lt hstay
      · exact hoffs y (List.mem_cons_of_mem _ hy)
    · exact ih _ _ _ fun y hy => hoffs y (List.mem_cons_of_mem _ hy)
    · exact ih _ _ _ fun y hy => hoffs y (List.mem_cons_of_mem _ hy)
    · exact hoffs

/-! ## the sections on an ordered slot -/

theorem linkAfter_last {a : Nat} {c : Cell} {h : List Cell} (ha : h.getLast?.map Prod.fst = some a)
    (hd : (h.map Prod.fst).Nodup) : linkAfter a c h = h ++ [c] := by
  induction h with
  | nil => cases ha
  | cons x h ih =>
    obtain ⟨hnew, hd⟩ := List.nodup_cons.mp hd
    unfold linkAfter
    cases h with
    | nil =>
      have hx : x.1 = a := Option.some.inj ha
      rw [if_pos hx]
      rfl
    | cons y h =>
      have hlast : (y :: h).getLast?.map Prod.fst = some a := ha
      have hmem : a ∈ (y :: h).map Prod.fst := by
        obtain ⟨z, hz, rfl⟩ := Option.map_eq_some_iff.mp hlast
        exact List.mem_map_of_mem (List.mem_of_getLast? hz)
      have hne : x.1 ≠ a := by
        rintro rfl
        exact hnew hmem
      rw [if_neg hne, ih hlast hd]
      rfl

namespace InSlot
variable {x : InSlot}

theorem ordered_alloc (st : DtStream) (gsock : Nat) (dst : SockaddrIn) (sid : Nat) :
    (alloc st gsock dst sid).Ordered :=
  ⟨rfl, rfl, List.nodup_nil, nofun, rfl, Nat.two_pow_pos 64⟩

/-- on an ordered slot the list with its pointers does what `DtStream.pop` says -/
theorem pop_refines (hx : x.Ordered) (blen : Nat) :
    (x.pop blen).1.st = (x.st.pop blen).1 ∧ (x.pop blen).2 = (x.st.pop blen).2 := by
  have hnil : x.st.h ≠ [] ↔ x.h ≠ [] := by rw [hx.shown, Ne, List.map_eq_nil_iff]
  obtain ⟨h1, h2⟩ := popLoop_gather blen x.h x.t x.st.total [] (Nat.zero_le _)
  rw [List.length_nil, Nat.sub_zero, ← hx.shown] at h1 h2
  rw [List.nil_append] at h2
  have h3 : (popLoop blen x.h x.t x.st.total []).total
      = x.st.total - (gather x.st.h blen).1.length := by
    have hsplit := congrArg List.length (gather_split x.st.h blen)
    rw [List.length_append] at hsplit
    rw [popLoop_total blen x.h x.t x.st.total [] (Nat.zero_le _) (by rw [hx.count, hx.shown])
      hx.word, h1, hx.count]
    omega
  unfold pop DtStream.pop
  by_cases hh : x.h ≠ []
  · rw [if_pos hh, if_pos (hnil.mpr hh)]
    dsimp only
    rw [h1, h2, h3]
    split_ifs <;> exact ⟨rfl, rfl⟩
  · rw [if_neg hh, if_neg (fun h => hh (hnil.mp h))]
    split_ifs <;> exact ⟨rfl, rfl⟩

theorem Ordered.pop (hx : x.Ordered) (blen : Nat) : (x.pop blen).1.Ordered := by
  have htotal := popLoop_total blen x.h x.t x.st.total [] (Nat.zero_le _)
    (by rw [hx.count, hx.shown]) hx.word
  obtain ⟨htail, hsub⟩ := popLoop_tail blen x.h x.t x.st.total [] hx.tail
  have hoffs := popLoop_offs blen x.h x.t x.st.total [] hx.offs
  have hword : (x.pop blen).1.st.total < 2 ^ 64 := by
    rw [(pop_refines hx blen).1, (x.st.pop_split blen).2]
    exact Nat.lt_of_le_of_lt (Nat.sub_le _ _) hx.word
  unfold InSlot.pop at hword ⊢
  by_cases hh : x.h ≠ []
  · rw [if_pos hh] at hword ⊢
    dsimp only at hword ⊢
    split_ifs at hword ⊢ <;> exact ⟨rfl, htail, hsub.nodup hx.apart, hoffs, htotal, hword⟩
  · rw [if_neg hh]
    split_ifs <;> exact hx

/-- a chunk of the memory that no chunk of the list lies in -/
theorem Ordered.queued (hx : x.Ordered) (sid : Nat) {a : Nat} (ha : a ∉ x.h.map Prod.fst)
    (buf : List Byte) : (x.queued sid a buf).Ordered := by
  unfold InSlot.queued
  split_ifs with hm hfull
  · exact ⟨hx.shown, hx.tail, hx.apart, hx.offs, hx.count, hx.word⟩
  · have hlink : (match x.t with
        | some l => linkAfter l (a, ⟨buf, 0⟩) x.h
        | none => [(a, ⟨buf, 0⟩)]) = x.h ++ [(a, ⟨buf, 0⟩)] := by
      cases ht : x.t with
      | none =>
        have hnil := hx.tail
        rw [ht] at hnil
        rw [List.getLast?_eq_none_iff.mp (Option.map_eq_none_iff.mp hnil.symm)]
        rfl
      | some l => exact linkAfter_last (hx.tail.symm.trans ht) hx.apart
    dsimp only
    rw [hlink]
    refine ⟨rfl, ?_, ?_, ?_, ?_, ?_⟩
    · rw [List.getLast?_concat]
      rfl
    · rw [List.map_append]
      refine List.Nodup.append hx.apart (List.nodup_singleton a) ?_
      intro b hb hb'
      rw [List.mem_singleton.mp hb'] at hb
      exact ha hb
    · intro c hc
      rcases List.mem_append.mp hc with hc | hc
      · exact hx.offs c hc
      · rw [List.mem_singleton.mp hc]
        exact Nat.zero_le _
    · show x.st.total + buf.length = (bytes ((x.h ++ [((a, ⟨buf, 0⟩) : Cell)]).map Prod.snd)).length
      rw [List.map_append, bytes_append, List.length_append, hx.count, hx.shown]
      show _ = _ + (buf ++ []).length
      rw [List.append_nil]
    · show x.st.total + buf.length < 2 ^ 64
      unfold DT_ST_MAXIN at hfull
      omega
  · exact hx

theorem Ordered.shutdown (hx : x.Ordered) (rd wr : Bool) : (x.shutdown rd wr).Ordered := by
  unfold InSlot.shutdown
  cases rd with
  | true => cases wr <;> exact ⟨rfl, rfl, List.nodup_nil, nofun, rfl, Nat.two_pow_pos 64⟩
  | false => cases wr <;> exact ⟨hx.shown, hx.tail, hx.apart, hx.offs, hx.count, hx.word⟩

/-- the count is at most the cap that the stream thread fills the queue to -/
theorem capped_step {a : InAct} {y : InSlot} (hx : x.Ordered) (hcap : x.st.total ≤ DT_ST_MAXIN)
    (hs : x.step a = some y) : y.Ordered ∧ y.st.total ≤ DT_ST_MAXIN := by
  cases a with
  | pop blen =>
    rw [← Option.some.inj hs, (pop_refines hx blen).1, (x.st.pop_split blen).2]
    exact ⟨hx.pop blen, Nat.le_trans (Nat.sub_le _ _) hcap⟩
  | queued sid a buf =>
    obtain ⟨ha, hs⟩ := Option.ite_none_left_eq_some.mp hs
    rw [← Option.some.inj hs]
    refine ⟨hx.queued sid ha buf, ?_⟩
    unfold InSlot.queued
    split_ifs with hm hfull
    · exact hcap
    · exact Nat.le_of_not_lt hfull
    · exact hcap
  | shutdown rd wr =>
    rw [← Option.some.inj hs]
    refine ⟨hx.shutdown rd wr, ?_⟩
    cases rd with
    | true => cases wr <;> exact Nat.zero_le _
    | false => cases wr <;> exact hcap

/-- the slot of a stream is ordered from its allocation on -/
theorem ordered_run {st : DtStream} {gsock sid : Nat} {dst : SockaddrIn}
    {tr : List (InSlot × InAct)} {y : InSlot} (h : Path step (alloc st gsock dst sid) tr y) :
    y.Ordered ∧ y.st.total ≤ DT_ST_MAXIN := by
  refine h.inv (I := fun y => y.Ordered ∧ y.st.total ≤ DT_ST_MAXIN) ?_ ?_
  · exact ⟨ordered_alloc st gsock dst sid, Nat.zero_le _⟩
  · exact fun _ _ _ hx hs => capped_step hx.1 hx.2 hs

/-- **A read takes what is there.** -/
theorem Ordered.reads (hx : x.Ordered) (blen : Nat) : x.Reads blen := by
  obtain ⟨hst, hout⟩ := pop_refines hx blen
  have hp := hx.pop blen
  have hgather : (x.st.pop blen).2.2 = (gather x.st.h blen).1 ∧
      (x.st.pop blen).1.h = (gather x.st.h blen).2 := by
    unfold DtStream.pop
    by_cases hh : x.st.h ≠ []
    · rw [if_pos hh]
      dsimp only
      split_ifs <;> exact ⟨rfl, rfl⟩
    · rw [if_neg hh, not_not.mp hh]
      split_ifs <;> exact ⟨rfl, not_not.mp hh⟩
  obtain ⟨htake, hdrop⟩ := gather_eq x.st.h blen
  refine ⟨?_, ?_, ?_, hp.count, ?_⟩
  · rw [hout, hgather.1, htake]
  · rw [hout, hgather.1, gather_length, hx.count]
  · rw [hst, hgather.2, hdrop]
  · rw [hp.tail, Option.map_eq_none_iff, List.getLast?_eq_none_iff]

end InSlot

/-! ## the count, the readiness and the read -/

/-- `dt_stream_has` is the answer that `dt_stream_pop` would not call empty -/
theorem streamHas_iff (T : StreamTable) (s blen : Nat) :
    streamHas T s = true ↔ (T.popSock s blen).2.1 ≠ 0 := by
  unfold streamHas StreamTable.popSock
  cases T.bySock s with
  | none => simp
  | some i =>
    unfold DtStream.pop
    dsimp only
    split_ifs with hh _ hd
    · simp [hh]
    · simp [hh]
    · refine iff_of_true ?_ (show (-1 : Int) ≠ 0 by decide)
      rcases hd with h | h | h | h <;> simp [h]
    · refine iff_of_false ?_ (show ¬ (0 : Int) ≠ 0 by decide)
      rw [not_or, not_or, not_or] at hd
      obtain ⟨h1, h2, h3, h4⟩ := hd
      simp [hh, h1, h2, h3, h4]

/-- a positive `int` that a count reads as is no more than the count -/
theorem bmod_le {n : Nat} {v : Int} (hv : (n : Int).bmod (2 ^ 32) = v) (hpos : 0 < v) :
    v.toNat ≤ n := by
  unfold Int.bmod at hv
  dsimp only at hv
  split_ifs at hv <;> omega

/-- a read that finds something in the in-queue returns at once -/
theorem linuxRecv_got {T : StreamTable} {s : Nat} {i : Slot} (hi : T.bySock s = some i)
    (hh : (T.g_st i).h ≠ []) (nb : Bool) (tmo : Int) (now : Nat) (later : List Look) (len : Nat) :
    linuxRecv true nb tmo ⟨T, now⟩ later s len
      = some (T.set i ((T.g_st i).pop len).1, .got (gather (T.g_st i).h len).1) := by
  have hpop : T.popSock s len
      = (T.set i ((T.g_st i).pop len).1, 1, (gather (T.g_st i).h len).1) := by
    unfold StreamTable.popSock
    rw [hi]
    unfold DtStream.pop
    dsimp only
    rw [if_pos hh]
    split_ifs <;> rfl
  unfold linuxRecv tcpWait
  dsimp only
  rw [hpop, hi]
  rfl

/-- **FIONREAD, readiness and `recv` agree.**  A pop takes `min total blen` bytes off the front and
keeps the count and the tail pointer; a read of as many bytes as `ioctl` counted gets them all; and
a stream is reported readable exactly when a pop would not answer 0. -/
theorem fionread_exact {x : InSlot} (hx : x.Ordered) :
    (∀ blen, x.Reads blen) ∧
      (∀ (T : StreamTable) (s : Nat) (i : Slot), T.bySock s = some i → T.g_st i = x.st →
        (x.st.total < 2 ^ 31 → fionread true T s = some (x.st.total : Int)) ∧
        ∀ v, fionread true T s = some v → 0 < v →
          ∀ (nb : Bool) (tmo : Int) (now : Nat) (later : List Look),
            ∃ T', linuxRecv true nb tmo ⟨T, now⟩ later s v.toNat
                = some (T', .got (x.pop v.toNat).2.2) ∧
              ((x.pop v.toNat).2.2.length : Int) = v ∧ T'.g_st i = (x.pop v.toNat).1.st) ∧
      ∀ (T : StreamTable) (s blen : Nat), streamHas T s = true ↔ (T.popSock s blen).2.1 ≠ 0 := by
  refine ⟨hx.reads, ?_, streamHas_iff⟩
  intro T s i hi hslot
  have hcount : fionread true T s = some ((x.st.total : Int).bmod (2 ^ 32)) := by
    unfold fionread
    rw [hi, if_pos rfl, Option.map_some, hslot]
  refine ⟨fun hsmall => ?_, fun v hv hpos nb tmo now later => ?_⟩
  · rw [hcount, Int.bmod_eq_of_le] <;> omega
  · have hle := bmod_le (Option.some.inj (hcount.symm.trans hv)) hpos
    have hne : (T.g_st i).h ≠ [] := by
      intro hnil
      have hzero := hx.count
      rw [← hslot, hnil] at hzero
      rw [← hslot, hzero] at hle
      exact absurd hle (by rw [bytes_nil, List.length_nil]; omega)
    have hr := hx.reads v.toNat
    refine ⟨T.set i ((T.g_st i).pop v.toNat).1, ?_, ?_, ?_⟩
    · rw [linuxRecv_got hi hne, hslot, hr.got, (gather_eq _ _).1]
    · rw [hr.len, Nat.min_eq_right hle]
      omega
    · show Function.update T.g_st i _ i = _
      rw [Function.update_self, hslot, (InSlot.pop_refines hx _).1]

/-- a slot with two chunks, one byte of the first consumed -/
def twoChunks : InSlot where
  st := { DtStream.zero with
    used := true, gsock := 7, state := .opened, h := [⟨[1, 2, 3], 1⟩, ⟨[4], 0⟩], total := 3 }
  h := [(16, ⟨[1, 2, 3], 1⟩), (48, ⟨[4], 0⟩)]
  t := some 48

set_option maxRecDepth 4000 in
theorem fionread_exact_two : ∃ T',
    linuxRecv true true (-1) ⟨StreamTable.init.set 0 twoChunks.st, 0⟩ [] 7 3
      = some (T', .got [2, 3, 4]) := by
  have hx : twoChunks.Ordered := ⟨rfl, rfl, by decide, by decide, rfl, by decide⟩
  have hi : (StreamTable.init.set 0 twoChunks.st).bySock 7 = some 0 := by decide
  obtain ⟨hcount, hread⟩ := (fionread_exact hx).2.1 _ 7 0 hi rfl
  obtain ⟨T', hgot, -⟩ := hread 3 (hcount (by decide)) (by decide) true (-1) 0 []
  exact ⟨T', hgot⟩

end ShadowLan
