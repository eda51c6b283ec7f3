import ShadowLan.Lib.Struct
import ShadowLan.Wire.Udp
import ShadowLan.Wire.Text

/-!
# What the Python of the codecs can raise

`struct.unpack`, `bytes.decode` and an index raise; the decoders of `common.py` catch some of it.

* `Py`             a result, or the error that was raised;
* `structPack`, `structUnpack`, `encodeStr`, `decodeStr`, `item`, `bytesOf`   the operations;
* `tryExcept`      `try: .. except errs: return None`;
* `Raises`         the errors that a computation can raise;
* `structUnpack_at`   reading the fields at an offset is splitting them off there.
-/

namespace ShadowLan

inductive PyErr where
  | struct
  | unicode
  | index
  | value
  deriving DecidableEq, Repr

abbrev Py := Except PyErr

namespace Py

/-- the widths of the formats `!B`, `!H` and `!I` -/
abbrev B : Nat := 1
abbrev H : Nat := 2
abbrev I : Nat := 4

section
variable {α β : Type}

def orRaise (e : PyErr) : Option α → Py α
  | some a => .ok a
  | none => .error e

/-- `struct.unpack` -/
def structUnpack (ws : List Nat) (b : Bytes) : Py (Vals ws) := orRaise .struct (unpacks ws b)

/-- `struct.pack` -/
def structPack (ws : List Nat) (vs : Vals ws) : Py Bytes :=
  if Fits ws vs then .ok (packs ws vs) else .error .struct

/-- `struct.pack` of fields that are masked one by one -/
def packMasked (ws : List Nat) (vs : Vals ws) : Py Bytes := structPack ws (masked ws vs)

def encodeStr (s : Str) : Py Bytes := orRaise .unicode (strEncode s)

def decodeStr (b : Bytes) : Py Str := orRaise .unicode (strDecode b)

/-- `data[i]` -/
def item (data : Bytes) (i : Nat) : Py Nat := orRaise .index (data[i]?.map UInt8.toNat)

/-- `bytes([..])` -/
def bytesOf (ns : List Nat) : Py Bytes :=
  if ns.all fun n => decide (n < 256) then .ok (ns.map UInt8.ofNat) else .error .value

def tryExcept (errs : List PyErr) : Py (Option α) → Py (Option α)
  | .ok o => .ok o
  | .error e => if e ∈ errs then .ok none else .error e

def Raises (errs : List PyErr) (x : Py α) : Prop := ∀ e, x = .error e → e ∈ errs

/-! ## what is returned -/

theorem bind_ok_iff {x : Py α} {f : α → Py β} {b : β} :
    (x >>= f) = .ok b ↔ ∃ a, x = .ok a ∧ f a = .ok b := by
  cases x with
  | error e => exact iff_of_false (fun h => by cases h) fun ⟨_, h, _⟩ => by cases h
  | ok a =>
    constructor
    · exact fun h => ⟨a, rfl, h⟩
    · rintro ⟨a', h, hf⟩
      rw [Except.ok.inj h]
      exact hf

theorem orRaise_ok_iff {e : PyErr} {o : Option α} {a : α} : orRaise e o = .ok a ↔ o = some a := by
  cases o with
  | none => exact iff_of_false (fun h => by cases h) fun h => by cases h
  | some b => exact ⟨fun h => congrArg some (Except.ok.inj h), fun h => congrArg _ (Option.some.inj h)⟩

theorem tryExcept_some_iff {errs : List PyErr} {x : Py (Option α)} {a : α} :
    tryExcept errs x = .ok (some a) ↔ x = .ok (some a) := by
  cases x with
  | ok o => exact Iff.rfl
  | error e =>
    refine iff_of_false (fun h => ?_) fun h => by cases h
    unfold tryExcept at h
    dsimp only at h
    split at h <;> cases h

theorem structPack_ok_iff {ws : List Nat} {vs : Vals ws} {b : Bytes} :
    structPack ws vs = .ok b ↔ Fits ws vs ∧ b = packs ws vs := by
  unfold structPack
  split
  next h => exact ⟨fun he => ⟨h, (Except.ok.inj he).symm⟩, fun he => congrArg _ he.2.symm⟩
  next h => exact iff_of_false (fun he => by cases he) fun he => h he.1

theorem packMasked_ok_iff {ws : List Nat} {vs : Vals ws} (h : Fits ws vs) {b : Bytes} :
    packMasked ws vs = .ok b ↔ b = packs ws vs := by
  unfold packMasked
  rw [masked_of_fits h, structPack_ok_iff]
  exact and_iff_right h

theorem decodeStr_ok_iff {b : Bytes} {s : Str} : decodeStr b = .ok s ↔ encodeStr s = .ok b := by
  unfold decodeStr encodeStr
  rw [orRaise_ok_iff, orRaise_ok_iff, strDecode_iff]

theorem bytesOf_ok_iff {n m : Nat} (hn : n < 256) {b : Bytes} :
    bytesOf [n, m] = .ok b ↔ m < 256 ∧ b = [UInt8.ofNat n, UInt8.ofNat m] := by
  unfold bytesOf
  have hall : ([n, m].all fun k => decide (k < 256)) = decide (m < 256) := by
    rw [List.all_cons, List.all_cons, List.all_nil, decide_eq_true hn, Bool.true_and, Bool.and_true]
  rw [hall]
  split
  next h =>
    have hm := of_decide_eq_true h
    exact ⟨fun he => ⟨hm, (Except.ok.inj he).symm⟩, fun he => congrArg _ he.2.symm⟩
  next h => exact iff_of_false (fun he => by cases he) fun he => h (decide_eq_true he.1)

/-! ## at an offset -/

theorem drop_of {d a r : Bytes} {i j : Nat} (h : d.drop i = a ++ r) (hj : j = i + a.length) :
    d.drop j = r := by
  rw [hj, ← List.drop_drop, h, List.drop_left]

theorem structUnpack_at {ws : List Nat} {d : Bytes} {i j : Nat} {vs : Vals ws} (hj : j = i + ws.sum) :
    structUnpack ws (slice d i j) = .ok vs ↔ Fits ws vs ∧ d.drop i = packs ws vs ++ d.drop j := by
  unfold structUnpack slice
  rw [orRaise_ok_iff, hj, Nat.add_sub_cancel_left, unpacks_take_iff, List.drop_drop]

/-- bytes in front of something that is there -/
theorem slice_at {d r : Bytes} {i j : Nat} (hij : i ≤ j) (hr : d.drop j = r) (hne : r ≠ []) :
    d.drop i = slice d i j ++ r ∧ (slice d i j).length = j - i := by
  have hj : j < d.length := by
    by_contra h
    rw [← hr] at hne
    exact hne (List.drop_eq_nil_of_le (by omega))
  unfold slice
  constructor
  · have h := List.take_append_drop (j - i) (d.drop i)
    rw [List.drop_drop, Nat.add_sub_cancel' hij, hr] at h
    exact h.symm
  · rw [List.length_take, List.length_drop]
    omega

theorem slice_of {d a r : Bytes} {i j : Nat} (h : d.drop i = a ++ r) (hj : j = i + a.length) :
    slice d i j = a := by
  unfold slice
  rw [h, hj, Nat.add_sub_cancel_left, List.take_left]

/-! ## what is raised -/

theorem raises_ok {errs : List PyErr} (a : α) : Raises errs (.ok a) := fun _ h => by cases h

theorem raises_orRaise {errs : List PyErr} {e : PyErr} (he : e ∈ errs) (o : Option α) :
    Raises errs (orRaise e o) := by
  intro e' h
  cases o with
  | some a => cases h
  | none => rwa [← Except.error.inj h]

theorem raises_bind {errs : List PyErr} {x : Py α} {f : α → Py β} (hx : Raises errs x)
    (hf : ∀ a, x = .ok a → Raises errs (f a)) : Raises errs (x >>= f) := by
  intro e h
  cases x with
  | error e' =>
    have he : e' = e := Except.error.inj h
    exact hx e (congrArg _ he)
  | ok a => exact hf a rfl e h

theorem raises_ite {errs : List PyErr} {p : Prop} [Decidable p] {x y : Py α} (hx : Raises errs x)
    (hy : Raises errs y) : Raises errs (if p then x else y) := by
  split
  · exact hx
  · exact hy

theorem tryExcept_total {errs : List PyErr} {x : Py (Option α)} (h : Raises errs x) :
    ∃ o, tryExcept errs x = .ok o := by
  cases x with
  | ok o => exact ⟨o, rfl⟩
  | error e => exact ⟨none, if_pos (h e rfl)⟩

end

end Py

end ShadowLan
