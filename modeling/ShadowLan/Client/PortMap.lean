import ShadowLan.Lib.Dict

/-!
# The ports of `wclient`

A port that the local game listens at may stand for another one at the far end.

* `PortMap`               `tcp_remote` and `udp_remote`, with their reverse and `_unmap_udp`;
* `unmap_toLocal_iff`     whether a game port comes back as itself.
-/

namespace ShadowLan

/-- `tcp_remote` or `udp_remote`: local listen ports, and the game ports behind them -/
structure PortMap where
  map : Dict Nat Nat
  ports : ∀ e ∈ map.items, e.1 < 65536 ∧ e.2 < 65536

namespace PortMap

section
variable (m : PortMap)

/-- `rev_tcp` or `rev_udp`; the last port wins -/
def rev : Dict Nat Nat := m.map.items.foldl (fun d e => d.set e.2 e.1) .empty

/-- `rev_tcp.get(gport, gport)`, and the same of `rev_udp` -/
def toLocal (gport : Nat) : Nat := (m.rev.get? gport).getD gport

/-- `_unmap_udp`, and `udp_remote.get(gport, gport)` -/
def unmap (lport : Nat) : Nat := (m.map.get? lport).getD lport

end

/-! ## ports there and back -/

section
variable {m : PortMap}

theorem rev_get? {gport lport : Nat} (h : m.rev.get? gport = some lport) :
    (lport, gport) ∈ m.map.items := by
  have hfold : ∀ (l : List (Nat × Nat)) (d : Dict Nat Nat),
      (l.foldl (fun d e => d.set e.2 e.1) d).get? gport = some lport →
        (lport, gport) ∈ l ∨ d.get? gport = some lport := by
    intro l
    induction l with
    | nil => exact fun d hd => Or.inr hd
    | cons e l ih =>
      intro d hd
      rcases ih (d.set e.2 e.1) hd with hl | he
      · exact Or.inl (List.mem_cons_of_mem e hl)
      · by_cases hg : gport = e.2
        · rw [hg, Dict.get?_set_self] at he
          rw [hg, ← Option.some.inj he]
          exact Or.inl List.mem_cons_self
        · rw [Dict.get?_set_of_ne d e.1 hg] at he
          exact Or.inr he
  rcases hfold m.map.items .empty h with hl | he
  · exact hl
  · rw [Dict.get?_empty] at he
    cases he

/-- a game port that is behind some listen port has one in the reverse map -/
theorem rev_isSome {gport lport : Nat} (h : (lport, gport) ∈ m.map.items) :
    ∃ l, m.rev.get? gport = some l := by
  have hfold : ∀ (l : List (Nat × Nat)) (d : Dict Nat Nat),
      (∃ v, d.get? gport = some v) ∨ (∃ v, (v, gport) ∈ l) →
        ∃ v, (l.foldl (fun d e => d.set e.2 e.1) d).get? gport = some v := by
    intro l
    induction l with
    | nil => exact fun d hd => hd.resolve_right fun ⟨v, hv⟩ => List.not_mem_nil hv
    | cons e l ih =>
      intro d hd
      apply ih
      by_cases hg : gport = e.2
      · exact Or.inl ⟨e.1, by rw [hg, Dict.get?_set_self]⟩
      · rcases hd with ⟨v, hv⟩ | ⟨v, hv⟩
        · exact Or.inl ⟨v, by rw [Dict.get?_set_of_ne d e.1 hg, hv]⟩
        · rcases List.mem_cons.mp hv with rfl | hv
          · exact absurd rfl hg
          · exact Or.inr ⟨v, hv⟩
  exact hfold m.map.items .empty (Or.inr ⟨lport, h⟩)

/-- the port is behind a listen port, or is no listen port itself -/
def Named (m : PortMap) (gport : Nat) : Prop :=
  (∃ lport, (lport, gport) ∈ m.map.items) ∨ m.map.get? gport = none

/-- **There and back.**  A game port comes back as itself unless it is a listen port that stands for
another port, and no listen port stands for it. -/
theorem unmap_toLocal_iff {gport : Nat} : m.unmap (m.toLocal gport) = gport ↔ m.Named gport := by
  cases hr : m.rev.get? gport with
  | some lport =>
    have hmem := rev_get? hr
    have hu : m.unmap (m.toLocal gport) = gport := by
      unfold toLocal unmap
      rw [hr, Option.getD_some, Dict.get?_eq_some.mpr hmem, Option.getD_some]
    exact iff_of_true hu (Or.inl ⟨lport, hmem⟩)
  | none =>
    have hno : ∀ lport, (lport, gport) ∉ m.map.items := by
      intro lport hl
      obtain ⟨l, hl⟩ := rev_isSome hl
      rw [hr] at hl
      cases hl
    unfold toLocal unmap Named
    rw [hr, Option.getD_none]
    cases hg : m.map.get? gport with
    | none => exact iff_of_true rfl (Or.inr rfl)
    | some v =>
      rw [Option.getD_some]
      constructor
      · intro he
        exact absurd (Dict.get?_eq_some.mp (he ▸ hg)) (hno gport)
      · rintro (⟨l, hl⟩ | he)
        · exact absurd hl (hno l)
        · cases he

theorem toLocal_lt {gport : Nat} (h : gport < 65536) : m.toLocal gport < 65536 := by
  unfold toLocal
  cases hr : m.rev.get? gport with
  | none => exact h
  | some l => exact (m.ports _ (rev_get? hr)).1

theorem unmap_lt {lport : Nat} (h : lport < 65536) : m.unmap lport < 65536 := by
  unfold unmap
  cases hg : m.map.get? lport with
  | none => exact h
  | some v => exact (m.ports _ (Dict.get?_eq_some.mp hg)).2

end

end PortMap

end ShadowLan
