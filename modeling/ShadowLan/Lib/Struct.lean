import Mathlib.Algebra.Ring.Nat
import Mathlib.Data.List.Basic
import Mathlib.Tactic.Common

/-!
# Rows of big-endian fields

A format is the list of the widths of its fields, in bytes.  What a format packs is one number for
each field; a field takes the numbers below `256 ^ w`.

* `beBytes`, `beNat`     a number in `w` bytes, and back;
* `packs`, `unpacks`     the same for a whole format: `unpacks` wants exactly its bytes;
* `unpacks_eq_some_iff`  unpacking and packing are inverse to each other;
* `ExactCodec`           a writer and a reader that may fail: a reader which is total, accepts only
                         what the writer makes, and gives it back.
-/

namespace ShadowLan

/-! ## one field -/

def beBytes : Nat → Nat → List UInt8
  | 0, _ => []
  | w+1, n => UInt8.ofNat (n / 256 ^ w) :: beBytes w n

def beNat : List UInt8 → Nat
  | [] => 0
  | c :: r => c.toNat * 256 ^ r.length + beNat r

theorem length_beBytes (w n : Nat) : (beBytes w n).length = w := by
  induction w with
  | zero => rfl
  | succ w ih => rw [beBytes, List.length_cons, ih]

theorem beNat_lt (b : List UInt8) : beNat b < 256 ^ b.length := by
  induction b with
  | nil => exact Nat.one_pos
  | cons c r ih =>
    have hc : c.toNat + 1 ≤ 256 := c.toNat_lt
    calc c.toNat * 256 ^ r.length + beNat r
        < c.toNat * 256 ^ r.length + 256 ^ r.length := Nat.add_lt_add_left ih _
      _ = (c.toNat + 1) * 256 ^ r.length := (Nat.succ_mul _ _).symm
      _ ≤ 256 * 256 ^ r.length := Nat.mul_le_mul_right _ hc
      _ = 256 ^ (r.length + 1) := (Nat.pow_succ').symm

theorem beNat_beBytes (w n : Nat) : beNat (beBytes w n) = n % 256 ^ w := by
  induction w with
  | zero => exact (Nat.mod_one n).symm
  | succ w ih =>
    have hsplit : n % 256 ^ (w + 1) = n % 256 ^ w + 256 ^ w * (n / 256 ^ w % 256) := by
      rw [Nat.pow_succ, Nat.mod_mul]
    rw [beBytes, beNat, ih, length_beBytes, UInt8.toNat_ofNat', hsplit, Nat.mul_comm, Nat.add_comm]

theorem beNat_beBytes_lt {w n : Nat} (h : n < 256 ^ w) : beNat (beBytes w n) = n := by
  rw [beNat_beBytes, Nat.mod_eq_of_lt h]

/-- what stands above the field does not show -/
theorem beBytes_add_mul (w k n : Nat) : beBytes w (k * 256 ^ w + n) = beBytes w n := by
  induction w generalizing k with
  | zero => rfl
  | succ w ih =>
    have hpos : 0 < 256 ^ w := Nat.pow_pos (by omega)
    have e : k * 256 ^ (w + 1) + n = k * 256 * 256 ^ w + n := by
      rw [Nat.pow_succ', Nat.mul_assoc]
    have hdiv : (k * 256 * 256 ^ w + n) / 256 ^ w = n / 256 ^ w + k * 256 := by
      rw [Nat.add_comm, Nat.add_mul_div_right _ _ hpos]
    have hbyte : UInt8.ofNat (n / 256 ^ w + k * 256) = UInt8.ofNat (n / 256 ^ w) := by
      apply UInt8.toNat_inj.mp
      rw [UInt8.toNat_ofNat', UInt8.toNat_ofNat']
      exact Nat.add_mul_mod_self_right _ _ _
    rw [beBytes, beBytes, e, hdiv, hbyte, ih]

theorem beBytes_beNat (b : List UInt8) : beBytes b.length (beNat b) = b := by
  induction b with
  | nil => rfl
  | cons c r ih =>
    have hpos : 0 < 256 ^ r.length := Nat.pow_pos (by omega)
    have hdiv : (c.toNat * 256 ^ r.length + beNat r) / 256 ^ r.length = c.toNat := by
      rw [Nat.add_comm, Nat.add_mul_div_right _ _ hpos, Nat.div_eq_of_lt (beNat_lt r), Nat.zero_add]
    rw [List.length_cons, beBytes, beNat, hdiv, UInt8.ofNat_toNat, beBytes_add_mul, ih]

/-! ## a format -/

/-- a number for each field -/
abbrev Vals : List Nat → Type
  | [] => Unit
  | _ :: ws => Nat × Vals ws

def Fits : (ws : List Nat) → Vals ws → Prop
  | [], _ => True
  | w :: ws, (v, vs) => v < 256 ^ w ∧ Fits ws vs

instance decidableFits : (ws : List Nat) → (vs : Vals ws) → Decidable (Fits ws vs)
  | [], _ => .isTrue trivial
  | w :: ws, (v, vs) =>
    have := decidableFits ws vs
    inferInstanceAs (Decidable (v < 256 ^ w ∧ Fits ws vs))

def packs : (ws : List Nat) → Vals ws → List UInt8
  | [], _ => []
  | w :: ws, (v, vs) => beBytes w v ++ packs ws vs

def unpacks : (ws : List Nat) → List UInt8 → Option (Vals ws)
  | [], b => if b = [] then some () else none
  | w :: ws, b =>
    if w ≤ b.length then (unpacks ws (b.drop w)).map fun vs => (beNat (b.take w), vs) else none

/-- the low bytes of each number -/
def masked : (ws : List Nat) → Vals ws → Vals ws
  | [], _ => ()
  | w :: ws, (v, vs) => (v % 256 ^ w, masked ws vs)

theorem length_packs (ws : List Nat) (vs : Vals ws) : (packs ws vs).length = ws.sum := by
  induction ws with
  | nil => rfl
  | cons w ws ih =>
    obtain ⟨v, vs⟩ := vs
    rw [packs, List.length_append, length_beBytes, ih, List.sum_cons]

theorem fits_masked (ws : List Nat) (vs : Vals ws) : Fits ws (masked ws vs) := by
  induction ws with
  | nil => trivial
  | cons w ws ih =>
    obtain ⟨v, vs⟩ := vs
    exact ⟨Nat.mod_lt _ (Nat.pow_pos (by omega)), ih vs⟩

theorem masked_of_fits {ws : List Nat} {vs : Vals ws} (h : Fits ws vs) : masked ws vs = vs := by
  induction ws with
  | nil => rfl
  | cons w ws ih =>
    obtain ⟨v, vs⟩ := vs
    rw [masked, Nat.mod_eq_of_lt h.1, ih h.2]

/-- **a format is a bijection** between the numbers that fit and the strings of its length -/
theorem unpacks_eq_some_iff {ws : List Nat} {b : List UInt8} {vs : Vals ws} :
    unpacks ws b = some vs ↔ Fits ws vs ∧ b = packs ws vs := by
  induction ws generalizing b with
  | nil =>
    rw [unpacks, Option.ite_none_right_eq_some]
    exact ⟨fun h => ⟨trivial, h.1⟩, fun h => ⟨h.2, rfl⟩⟩
  | cons w ws ih =>
    obtain ⟨v, vs⟩ := vs
    rw [unpacks, Option.ite_none_right_eq_some, Option.map_eq_some_iff]
    constructor
    · rintro ⟨hw, vs', hvs, he⟩
      obtain ⟨hfit, hdrop⟩ := ih.mp hvs
      have hlen : (b.take w).length = w := by rw [List.length_take]; omega
      obtain ⟨rfl, rfl⟩ := Prod.mk.injEq .. |>.mp he
      refine ⟨⟨?_, hfit⟩, ?_⟩
      · have h := beNat_lt (b.take w)
        rwa [hlen] at h
      · have h := beBytes_beNat (b.take w)
        rw [hlen] at h
        rw [packs, h, ← hdrop, List.take_append_drop]
    · rintro ⟨⟨hv, hfit⟩, rfl⟩
      have hlen := length_beBytes w v
      refine ⟨?_, vs, ?_, ?_⟩
      · rw [packs, List.length_append]
        omega
      · rw [packs, List.drop_left' hlen]
        exact ih.mpr ⟨hfit, rfl⟩
      · rw [packs, List.take_left' hlen, beNat_beBytes_lt hv]

/-- the fields at the front of `b` -/
theorem unpacks_take_iff {ws : List Nat} {b : List UInt8} {vs : Vals ws} :
    unpacks ws (b.take ws.sum) = some vs ↔ Fits ws vs ∧ b = packs ws vs ++ b.drop ws.sum := by
  rw [unpacks_eq_some_iff]
  refine and_congr_right fun _ => ⟨fun h => ?_, fun h => ?_⟩
  · rw [← h, List.take_append_drop]
  · have ht := congrArg (List.take ws.sum) h
    rwa [List.take_left' (length_packs ws vs)] at ht

/-! ## a writer and a reader -/

/-- `ok` says which values the writer has a form for -/
structure ExactCodec {ε α β : Type*} (ok : α → Prop) (encode : α → Except ε β)
    (decode : β → Except ε (Option α)) : Prop where
  writes : ∀ {x : α}, ok x → ∃ d, encode x = .ok d
  reads : ∀ {d : β} {x : α}, decode d = .ok (some x) ↔ ok x ∧ encode x = .ok d
  total : ∀ d : β, ∃ o, decode d = .ok o

section
variable {ε α β γ : Type*} {ok : α → Prop} {encode : α → Except ε β}
  {decode : β → Except ε (Option α)}

/-- a value comes back exactly if it is one of those -/
theorem ExactCodec.round_iff (h : ExactCodec ok encode decode) (x : α) :
    (∃ d, encode x = .ok d ∧ decode d = .ok (some x)) ↔ ok x := by
  constructor
  · rintro ⟨d, -, hd⟩
    exact (h.reads.mp hd).1
  · intro hx
    obtain ⟨d, hd⟩ := h.writes hx
    exact ⟨d, hd, h.reads.mpr ⟨hx, hd⟩⟩

theorem ExactCodec.exact (h : ExactCodec ok encode decode) {d : β} {x : α}
    (hd : decode d = .ok (some x)) : encode x = .ok d :=
  (h.reads.mp hd).2

end

end ShadowLan
