import Mathlib.Data.List.Forall2
import Mathlib.Data.List.Perm.Basic

/-!
# Queues that drop what is new

Elements come to a queue one by one; each is put behind the others or lost, and the reader takes
them from the front and gets an image of each.

* `InOrder R came out queue lost`   the reader's images `out`, followed by what waits, stand for a
                                    subsequence of what came, in order, and with what was lost they
                                    are all that came;
* `InOrder.drop`, `InOrder.put`, `InOrder.take`   what the operations keep.
-/

namespace ShadowLan

section
variable {α β : Type*} {R : β → α → Prop} {came queue lost : List α} {out : List β}

/-- what was read, followed by what waits, is a subsequence of what came, and the rest was lost -/
def InOrder (R : β → α → Prop) (came : List α) (out : List β) (queue lost : List α) : Prop :=
  ∃ taken, List.Forall₂ R out taken ∧ (taken ++ queue).Sublist came ∧
    (taken ++ queue ++ lost).Perm came

theorem inOrder_nil : InOrder R ([] : List α) [] [] [] :=
  ⟨[], .nil, List.Sublist.refl _, List.Perm.refl _⟩

/-- what is new is lost -/
theorem InOrder.drop (h : InOrder R came out queue lost) (x : α) :
    InOrder R (came ++ [x]) out queue (lost ++ [x]) := by
  obtain ⟨taken, hR, hsub, hall⟩ := h
  refine ⟨taken, hR, hsub.trans (List.sublist_append_left came [x]), ?_⟩
  rw [← List.append_assoc]
  exact hall.append_right [x]

/-- what is new goes behind the others -/
theorem InOrder.put (h : InOrder R came out queue lost) (x : α) :
    InOrder R (came ++ [x]) out (queue ++ [x]) lost := by
  obtain ⟨taken, hR, hsub, hall⟩ := h
  refine ⟨taken, hR, ?_, ?_⟩
  · rw [← List.append_assoc]
    exact hsub.append (List.Sublist.refl [x])
  · have hlast : (taken ++ (queue ++ [x]) ++ lost).Perm (taken ++ queue ++ lost ++ [x]) := by
      rw [← List.append_assoc, List.append_assoc, List.append_assoc (taken ++ queue) lost [x]]
      exact List.perm_append_comm.append_left (taken ++ queue)
    exact hlast.trans (hall.append_right [x])

theorem InOrder.take {x : α} {y : β} (h : InOrder R came out (x :: queue) lost) (hy : R y x) :
    InOrder R came (out ++ [y]) queue lost := by
  obtain ⟨taken, hR, hsub, hall⟩ := h
  have hmove : taken ++ [x] ++ queue = taken ++ x :: queue := by
    rw [List.append_assoc]
    rfl
  refine ⟨taken ++ [x], List.rel_append hR (.cons hy .nil), ?_, ?_⟩
  · rw [hmove]
    exact hsub
  · rw [hmove]
    exact hall

end

end ShadowLan
