import Mathlib.Algebra.Group.Nat.Defs
import Mathlib.Data.List.Basic
import Mathlib.Tactic.Common

/-!
# Queues of chunks

A byte queue that is kept as a list of chunks, each with an offset of what has been consumed of
it.  `bytes q` is the content of the queue; every operation is described by what it does to it.

* `push b`        append a chunk;
* `gather q n`    take up to `n` elements off the front, across chunk borders;
* `advance q k`   consume `k` elements of the front chunk, and the chunk with its last one.

Sizes are machine words: `subSize` is the wrapping difference of two unsigned 64-bit words.
-/

namespace ShadowLan

/-- a chunk: its data and how much of it is consumed -/
structure Chunk (α : Type*) where
  p : List α
  off : Nat
  deriving DecidableEq

section
variable {α : Type*}

/-- length of the data of a chunk -/
def Chunk.n (c : Chunk α) : Nat := c.p.length

/-- what is left of a chunk -/
def Chunk.rest (c : Chunk α) : List α := c.p.drop c.off

/-- content of a queue -/
def bytes (q : List (Chunk α)) : List α := q.flatMap Chunk.rest

@[simp] theorem bytes_nil : bytes ([] : List (Chunk α)) = [] := rfl
@[simp] theorem bytes_cons (c : Chunk α) (q : List (Chunk α)) :
    bytes (c :: q) = c.rest ++ bytes q := rfl
@[simp] theorem bytes_append (q r : List (Chunk α)) : bytes (q ++ r) = bytes q ++ bytes r := by
  simp [bytes, List.flatMap_append]

@[simp] theorem Chunk.rest_mk_zero (p : List α) : (⟨p, 0⟩ : Chunk α).rest = p := rfl

theorem Chunk.length_rest (c : Chunk α) : c.rest.length = c.n - c.off := by
  simp [Chunk.rest, Chunk.n]

theorem Chunk.rest_advance (c : Chunk α) (k : Nat) :
    (⟨c.p, c.off + k⟩ : Chunk α).rest = c.rest.drop k := by
  simp [Chunk.rest, List.drop_drop]

/-- append a chunk that nothing is consumed of -/
def push (q : List (Chunk α)) (b : List α) : List (Chunk α) := q ++ [⟨b, 0⟩]

@[simp] theorem bytes_push (q : List (Chunk α)) (b : List α) : bytes (push q b) = bytes q ++ b := by
  simp [push]

theorem bytes_replicate (n : Nat) (c : Chunk α) :
    bytes (List.replicate n c) = (List.replicate n c.rest).flatten := by
  rw [bytes, List.flatMap, List.map_replicate]

/-! ## taking elements off the front -/

/-- take up to `n` elements off the front: what is taken, and what stays -/
def gather : List (Chunk α) → Nat → List α × List (Chunk α)
  | [], _ => ([], [])
  | c :: q, n =>
    if n = 0 then ([], c :: q)
    else
      let k := min (c.n - c.off) n
      let got := c.rest.take k
      if c.off + k < c.n then (got, ⟨c.p, c.off + k⟩ :: q)
      else (got ++ (gather q (n - k)).1, (gather q (n - k)).2)

/-- **gathering splits the content**: nothing is lost, repeated or reordered -/
theorem gather_split (q : List (Chunk α)) (n : Nat) :
    (gather q n).1 ++ bytes (gather q n).2 = bytes q := by
  induction q generalizing n with
  | nil => rfl
  | cons c q ih =>
    unfold gather
    by_cases hn : n = 0
    · rw [if_pos hn]; rfl
    · rw [if_neg hn]
      by_cases hlt : c.off + min (c.n - c.off) n < c.n
      · simp only [if_pos hlt, bytes_cons, Chunk.rest_advance, ← List.append_assoc,
          List.take_append_drop]
      · simp only [if_neg hlt, bytes_cons, List.append_assoc, ih]
        have hall : c.rest.length ≤ min (c.n - c.off) n := by
          rw [Chunk.length_rest]; omega
        rw [List.take_of_length_le hall]

theorem Chunk.length_take_rest (c : Chunk α) (n : Nat) :
    (c.rest.take (min (c.n - c.off) n)).length = min (c.n - c.off) n := by
  rw [List.length_take, Chunk.length_rest]
  omega

theorem gather_length (q : List (Chunk α)) (n : Nat) :
    (gather q n).1.length = min (bytes q).length n := by
  induction q generalizing n with
  | nil => exact (Nat.zero_min n).symm
  | cons c q ih =>
    have hk := c.length_take_rest n
    unfold gather
    rw [bytes_cons, List.length_append, Chunk.length_rest]
    by_cases hn : n = 0
    · rw [if_pos hn, hn]
      exact (Nat.min_zero _).symm
    · rw [if_neg hn]
      dsimp only
      split_ifs with hlt
      · rw [hk]
        omega
      · rw [List.length_append, hk, ih]
        omega

/-- what is gathered is the front of the content, and what stays is the rest -/
theorem gather_eq (q : List (Chunk α)) (n : Nat) :
    (gather q n).1 = (bytes q).take n ∧ bytes (gather q n).2 = (bytes q).drop n := by
  have hlen := gather_length q n
  by_cases hn : n ≤ (bytes q).length
  · rw [Nat.min_eq_right hn] at hlen
    rw [← gather_split q n]
    exact ⟨(List.take_left' hlen).symm, (List.drop_left' hlen).symm⟩
  · have hle : (bytes q).length ≤ n := Nat.le_of_not_le hn
    rw [Nat.min_eq_left hle] at hlen
    have hnil : bytes (gather q n).2 = [] := by
      have hsum := congrArg List.length (gather_split q n)
      rw [List.length_append] at hsum
      exact List.length_eq_zero_iff.mp (by omega)
    have hall := gather_split q n
    rw [hnil, List.append_nil] at hall
    rw [hnil, hall, List.take_of_length_le hle, List.drop_eq_nil_of_le hle]
    exact ⟨rfl, rfl⟩

/-! ## consuming the front chunk -/

/-- consume `k` elements of the front chunk; a chunk that is used up leaves the queue -/
def advance : List (Chunk α) → Nat → List (Chunk α)
  | [], _ => []
  | c :: q, k => if c.off + k < c.n then ⟨c.p, c.off + k⟩ :: q else q

theorem advance_cons (c : Chunk α) (q : List (Chunk α)) (k : Nat) :
    advance (c :: q) k = if c.off + k < c.n then ⟨c.p, c.off + k⟩ :: q else q := rfl

theorem bytes_advance (c : Chunk α) (q : List (Chunk α)) (k : Nat) (hk : k ≤ c.rest.length) :
    bytes (advance (c :: q) k) = (bytes (c :: q)).drop k := by
  rw [bytes_cons, List.drop_append_of_le_length hk, advance_cons]
  by_cases h : c.off + k < c.n
  · rw [if_pos h, bytes_cons, Chunk.rest_advance]
  · rw [if_neg h]
    have hnil : c.rest.drop k = [] := by
      rw [List.drop_eq_nil_iff, Chunk.length_rest]; omega
    rw [hnil, List.nil_append]

/-! ## machine words -/

/-- `a - b` on unsigned 64-bit words -/
def subSize (a b : Nat) : Nat := (a + (2 ^ 64 - b % 2 ^ 64)) % 2 ^ 64

theorem subSize_eq (a b : Nat) (h : b ≤ a) (ha : a - b < 2 ^ 64) : subSize a b = a - b := by
  unfold subSize; omega

end

end ShadowLan
