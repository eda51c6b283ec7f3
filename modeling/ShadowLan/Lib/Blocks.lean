import Mathlib.Data.List.TakeWhile
import Mathlib.Tactic.Common

/-!
# Blocks of terminated strings

A block is one string after the other, each with the terminator behind it, and one more terminator at
the end.  No string in it is empty, and none has the terminator in it.

* `block`            the units of a block;
* `strings`          the strings that are read in memory from its start on;
* `strings_block`    these are those of the block, whatever is behind it;
* `take_scanLen`     the units in front of the last terminator.
-/

namespace ShadowLan

section
variable {α : Type*} [DecidableEq α] {z : α} {ss : List (List α)}

def block (z : α) (ss : List (List α)) : List α := (ss.flatMap fun s => s ++ [z]) ++ [z]

/-- what is read from here on, when `cur` is what is in front of it in the present string -/
def stringsFrom (z : α) : List α → List α → List (List α)
  | _, [] => []
  | cur, c :: p =>
    if c = z then (if cur = [] then [] else cur :: stringsFrom z [] p)
    else stringsFrom z (cur ++ [c]) p

/-- the strings up to the first empty one -/
def strings (z : α) (p : List α) : List (List α) := stringsFrom z [] p

/-- how far the reader gets: to the terminator that stands for an empty string -/
def scanLen (z : α) (p : List α) : Nat := ((strings z p).flatMap fun s => s ++ [z]).length

/-- no string is empty or has the terminator in it -/
def Terminable (z : α) (ss : List (List α)) : Prop := ∀ s ∈ ss, s ≠ [] ∧ z ∉ s

theorem stringsFrom_append {s : List α} (hz : z ∉ s) (cur p : List α) :
    stringsFrom z cur (s ++ p) = stringsFrom z (cur ++ s) p := by
  induction s generalizing cur with
  | nil => rw [List.nil_append, List.append_nil]
  | cons c s ih =>
    have hc : c ≠ z := fun h => hz (h ▸ List.mem_cons_self)
    have hs : z ∉ s := fun h => hz (List.mem_cons_of_mem c h)
    show (if c = z then _ else stringsFrom z (cur ++ [c]) (s ++ p)) = _
    rw [if_neg hc, ih hs, List.append_assoc]
    rfl

theorem strings_string {s : List α} (hs : s ≠ []) (hz : z ∉ s) (p : List α) :
    strings z (s ++ [z] ++ p) = s :: strings z p := by
  unfold strings
  rw [List.append_assoc, stringsFrom_append hz, List.nil_append]
  show (if z = z then (if s = [] then [] else s :: stringsFrom z [] p) else _) = _
  rw [if_pos rfl, if_neg hs]

theorem strings_append (h : Terminable z ss) (p : List α) :
    strings z ((ss.flatMap fun s => s ++ [z]) ++ p) = ss ++ strings z p := by
  induction ss with
  | nil => rfl
  | cons s ss ih =>
    obtain ⟨hs, hz⟩ := h s List.mem_cons_self
    rw [List.flatMap_cons, List.append_assoc, strings_string hs hz,
      ih fun s hm => h s (List.mem_cons_of_mem _ hm), List.cons_append]

/-- **A block is read back**, and what is behind it does not matter. -/
theorem strings_block (h : Terminable z ss) (tail : List α) : strings z (block z ss ++ tail) = ss := by
  unfold block
  rw [List.append_assoc, strings_append h]
  have hend : strings z ([z] ++ tail) = [] := by simp [strings, stringsFrom]
  rw [hend, List.append_nil]

theorem take_scanLen (h : Terminable z ss) (tail : List α) :
    (block z ss ++ tail).take (scanLen z (block z ss ++ tail)) = ss.flatMap fun s => s ++ [z] := by
  have hlen : scanLen z (block z ss ++ tail) = (ss.flatMap fun s => s ++ [z]).length := by
    unfold scanLen
    rw [strings_block h]
  unfold block at hlen ⊢
  rw [hlen, List.append_assoc, List.take_left]

end

end ShadowLan
