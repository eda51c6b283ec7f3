import Mathlib.Data.List.Basic
import ShadowLan.Wire.Bytes

/-!
# Strings and their UTF-8 form

A string of the source is a list of code points, and it may hold surrogates, which no byte string
decodes to.

* `strEncode`, `strDecode`   `str.encode()` and `bytes.decode()`: `none` stands for the error;
* `strDecode_iff`            what decodes is what was encoded;
* `isUtf8_iff`               the bytes that decode are those that `isUtf8` accepts.
-/

namespace ShadowLan

abbrev CodePoint := Fin 0x110000

abbrev Str := List CodePoint

/-- the surrogates have no UTF-8 form -/
def CodePoint.char? (c : CodePoint) : Option Char :=
  if h : c.val.isValidChar then some (Char.ofNatAux c.val h) else none

def CodePoint.ofChar (c : Char) : CodePoint := Fin.ofNat 0x110000 c.toNat

/-- the bytes of scalar values -/
def utf8 (cs : List Char) : Bytes := cs.flatMap String.utf8EncodeChar

def strEncode (s : Str) : Option Bytes := (s.mapM CodePoint.char?).map utf8

def strDecode (b : Bytes) : Option Str :=
  b.toByteArray.utf8Decode?.map fun cs => cs.toList.map CodePoint.ofChar

/-! ## both ways -/

theorem toNat_lt_codePoints (c : Char) : c.toNat < 0x110000 := by
  have h : c.toNat.isValidChar := c.valid
  obtain h | ⟨-, h⟩ := h
  · omega
  · exact h

theorem CodePoint.val_ofChar (c : Char) : (CodePoint.ofChar c).val = c.toNat :=
  Nat.mod_eq_of_lt (toNat_lt_codePoints c)

theorem CodePoint.char?_eq_some_iff {p : CodePoint} {c : Char} :
    p.char? = some c ↔ p = CodePoint.ofChar c := by
  unfold CodePoint.char?
  constructor
  · intro h
    by_cases hv : p.val.isValidChar
    · rw [dif_pos hv] at h
      apply Fin.ext
      rw [CodePoint.val_ofChar, ← Option.some.inj h]
      rfl
    · rw [dif_neg hv] at h
      cases h
  · intro h
    have hval : p.val = c.toNat := by rw [h, CodePoint.val_ofChar]
    have hv : p.val.isValidChar := by
      rw [hval]
      exact c.valid
    rw [dif_pos hv]
    refine congrArg some (Char.ext ?_)
    apply UInt32.toNat_inj.mp
    exact hval

theorem mapM_char?_iff {s : Str} {cs : List Char} :
    s.mapM CodePoint.char? = some cs ↔ s = cs.map CodePoint.ofChar := by
  induction s generalizing cs with
  | nil =>
    rw [List.mapM_nil]
    cases cs with
    | nil => exact iff_of_true rfl rfl
    | cons c cs => exact iff_of_false (fun h => by cases h) fun h => by cases h
  | cons p s ih =>
    rw [List.mapM_cons]
    cases cs with
    | nil =>
      refine iff_of_false (fun h => ?_) fun h => by cases h
      obtain ⟨c, -, h⟩ := Option.bind_eq_some_iff.mp h
      obtain ⟨cs, -, h⟩ := Option.bind_eq_some_iff.mp h
      cases h
    | cons c cs =>
      rw [List.map_cons, List.cons.injEq]
      constructor
      · intro h
        obtain ⟨c', hc, h⟩ := Option.bind_eq_some_iff.mp h
        obtain ⟨cs', hs, h⟩ := Option.bind_eq_some_iff.mp h
        obtain ⟨rfl, rfl⟩ := List.cons.inj (Option.some.inj h)
        exact ⟨CodePoint.char?_eq_some_iff.mp hc, ih.mp hs⟩
      · rintro ⟨hp, hs⟩
        rw [CodePoint.char?_eq_some_iff.mpr hp, ih.mpr hs]
        rfl

theorem strEncode_iff {s : Str} {b : Bytes} :
    strEncode s = some b ↔ ∃ cs : List Char, s = cs.map CodePoint.ofChar ∧ b = utf8 cs := by
  unfold strEncode
  rw [Option.map_eq_some_iff]
  refine exists_congr fun cs => ?_
  rw [mapM_char?_iff]
  exact and_congr_right fun _ => ⟨Eq.symm, Eq.symm⟩

theorem strDecode_utf8 (cs : List Char) : strDecode (utf8 cs) = some (cs.map CodePoint.ofChar) := by
  have h : (utf8 cs).toByteArray.utf8Decode? = some cs.toArray := List.utf8Decode?_utf8Encode
  unfold strDecode
  rw [h]
  rfl

/-- **text**: the strings that have a form are exactly what the well-formed bytes decode to -/
theorem strDecode_iff {b : Bytes} {s : Str} : strDecode b = some s ↔ strEncode s = some b := by
  rw [strEncode_iff]
  constructor
  · intro h
    have hb : b.toByteArray.utf8Decode?.isSome := by
      obtain ⟨cs, hcs, -⟩ := Option.map_eq_some_iff.mp h
      rw [hcs]
      rfl
    obtain ⟨cs, hcs⟩ := ByteArray.isSome_utf8Decode?_iff.mp hb
    have hb : b = utf8 cs := List.toByteArray_inj.mp hcs
    rw [hb, strDecode_utf8] at h
    exact ⟨cs, (Option.some.inj h).symm, hb⟩
  · rintro ⟨cs, rfl, rfl⟩
    exact strDecode_utf8 cs

/-! ## well-formed bytes -/

theorem within_iff {lo hi b : UInt8} :
    within lo hi b = true ↔ lo.toNat ≤ b.toNat ∧ b.toNat ≤ hi.toNat := by
  unfold within
  rw [Bool.and_eq_true, decide_eq_true_iff, decide_eq_true_iff, UInt8.le_iff_toNat_le,
    UInt8.le_iff_toNat_le]

/-- the second byte of three, by the first -/
def Second3 (a b : Nat) : Prop :=
  a = 0xE0 ∧ 0xA0 ≤ b ∧ b ≤ 0xBF ∨ a = 0xED ∧ 0x80 ≤ b ∧ b ≤ 0x9F ∨
    0xE1 ≤ a ∧ a ≤ 0xEF ∧ a ≠ 0xED ∧ 0x80 ≤ b ∧ b ≤ 0xBF

/-- and of four -/
def Second4 (a b : Nat) : Prop :=
  a = 0xF0 ∧ 0x90 ≤ b ∧ b ≤ 0xBF ∨ a = 0xF4 ∧ 0x80 ≤ b ∧ b ≤ 0x8F ∨
    0xF1 ≤ a ∧ a ≤ 0xF3 ∧ 0x80 ≤ b ∧ b ≤ 0xBF

/-- the bytes of one scalar value -/
inductive Scalar : Bytes → Prop
  | one {a : UInt8} (ha : a.toNat < 0x80) : Scalar [a]
  | two {a b : UInt8} (ha : 0xC2 ≤ a.toNat ∧ a.toNat ≤ 0xDF) (hb : 0x80 ≤ b.toNat ∧ b.toNat ≤ 0xBF) :
    Scalar [a, b]
  | three {a b c : UInt8} (hb : Second3 a.toNat b.toNat) (hc : 0x80 ≤ c.toNat ∧ c.toNat ≤ 0xBF) :
    Scalar [a, b, c]
  | four {a b c d : UInt8} (hb : Second4 a.toNat b.toNat) (hc : 0x80 ≤ c.toNat ∧ c.toNat ≤ 0xBF)
    (hd : 0x80 ≤ d.toNat ∧ d.toNat ≤ 0xBF) : Scalar [a, b, c, d]

theorem byte_eq_iff {a b : UInt8} : (a == b) = true ↔ a.toNat = b.toNat := by
  rw [beq_iff_eq, UInt8.toNat_inj]

theorem byte_ne_iff {a b : UInt8} : (a != b) = true ↔ a.toNat ≠ b.toNat := by
  rw [bne_iff_ne, Ne, ← UInt8.toNat_inj]

theorem second3_iff {a b : UInt8} :
    (a == 0xE0 && within 0xA0 0xBF b || a == 0xED && within 0x80 0x9F b
      || within 0xE1 0xEF a && a != 0xED && isCont b) = true ↔ Second3 a.toNat b.toNat := by
  simp only [Bool.or_eq_true, Bool.and_eq_true, within_iff, isCont, byte_eq_iff, byte_ne_iff, or_assoc,
    and_assoc]
  rfl

theorem second4_iff {a b : UInt8} :
    (a == 0xF0 && within 0x90 0xBF b || a == 0xF4 && within 0x80 0x8F b
      || within 0xF1 0xF3 a && isCont b) = true ↔ Second4 a.toNat b.toNat := by
  simp only [Bool.or_eq_true, Bool.and_eq_true, within_iff, isCont, byte_eq_iff, or_assoc, and_assoc]
  rfl

theorem lead_two_iff {a b : UInt8} : (within 0xC2 0xDF a && isCont b) = true ↔
    (0xC2 ≤ a.toNat ∧ a.toNat ≤ 0xDF) ∧ 0x80 ≤ b.toNat ∧ b.toNat ≤ 0xBF := by
  rw [Bool.and_eq_true, isCont, within_iff, within_iff]
  rfl

theorem ascii_iff {a : UInt8} : a < 0x80 ↔ a.toNat < 0x80 := UInt8.lt_iff_toNat_lt

/-- a first byte of three or four is none of ASCII and not one of two -/
theorem isUtf8_long {a b c : UInt8} (ha : 0xE0 ≤ a.toNat) (r : Bytes) :
    isUtf8 (a :: b :: c :: r) =
      if (a == 0xE0 && within 0xA0 0xBF b || a == 0xED && within 0x80 0x9F b
        || within 0xE1 0xEF a && a != 0xED && isCont b) && isCont c then isUtf8 r
      else match r with
        | [] => false
        | d :: r =>
          if (a == 0xF0 && within 0x90 0xBF b || a == 0xF4 && within 0x80 0x8F b
            || within 0xF1 0xF3 a && isCont b) && isCont c && isCont d then isUtf8 r
          else false := by
  rw [isUtf8.eq_def]
  dsimp only
  rw [if_neg (fun h => by rw [ascii_iff] at h; omega),
    if_neg (fun h => by rw [lead_two_iff] at h; omega)]
  rfl

theorem isUtf8_scalar {x : Bytes} (hx : Scalar x) (r : Bytes) : isUtf8 (x ++ r) = isUtf8 r := by
  cases hx with
  | @one a ha =>
    show isUtf8 (a :: r) = _
    rw [isUtf8.eq_def]
    exact if_pos (ascii_iff.mpr ha)
  | @two a b ha hb =>
    show isUtf8 (a :: b :: r) = _
    rw [isUtf8.eq_def]
    dsimp only
    rw [if_neg (fun h => by rw [ascii_iff] at h; omega)]
    exact if_pos (lead_two_iff.mpr ⟨ha, hb⟩)
  | @three a b c hb hc =>
    have ha : 0xE0 ≤ a.toNat := by unfold Second3 at hb; omega
    show isUtf8 (a :: b :: c :: r) = _
    rw [isUtf8_long ha, if_pos]
    rw [Bool.and_eq_true, second3_iff, isCont, within_iff]
    exact ⟨hb, hc⟩
  | @four a b c d hb hc hd =>
    have ha : 0xF0 ≤ a.toNat := by unfold Second4 at hb; omega
    show isUtf8 (a :: b :: c :: d :: r) = _
    rw [isUtf8_long (by omega), if_neg (fun h => by
      rw [Bool.and_eq_true, second3_iff] at h
      unfold Second3 at h
      omega)]
    refine if_pos ?_
    rw [Bool.and_eq_true, Bool.and_eq_true, second4_iff, isCont, isCont, within_iff, within_iff]
    exact ⟨⟨hb, hc⟩, hd⟩

/-- well-formed bytes are taken apart into scalar values -/
theorem isUtf8_split {b : Bytes} (h : isUtf8 b = true) :
    b = [] ∨ ∃ x r, Scalar x ∧ b = x ++ r ∧ isUtf8 r = true := by
  rw [isUtf8.eq_def] at h
  split at h
  · exact .inl rfl
  next a r =>
    right
    split at h
    next ha => exact ⟨[a], r, .one (ascii_iff.mp ha), rfl, h⟩
    split at h
    · cases h
    next b r =>
      split at h
      next hb => exact ⟨[a, b], r, .two (lead_two_iff.mp hb).1 (lead_two_iff.mp hb).2, rfl, h⟩
      split at h
      · cases h
      next c r =>
        split at h
        next hc =>
          rw [Bool.and_eq_true, second3_iff, isCont, within_iff] at hc
          exact ⟨[a, b, c], r, .three hc.1 hc.2, rfl, h⟩
        split at h
        · cases h
        next d r =>
          split at h
          next hd =>
            rw [Bool.and_eq_true, Bool.and_eq_true, second4_iff, isCont, isCont, within_iff,
              within_iff] at hd
            exact ⟨[a, b, c, d], r, .four hd.1.1 hd.1.2 hd.2, rfl, h⟩
          next => cases h

/-- the byte of a number below 256 -/
theorem byte_eq {c : UInt8} {n : Nat} (h : n = c.toNat) : UInt8.ofNat n = c := by
  rw [h, UInt8.ofNat_toNat]

/-- the scalar value of a number -/
theorem encode_ofNatAux {n : Nat} (h : n.isValidChar) :
    String.utf8EncodeChar (Char.ofNatAux n h) =
      if n ≤ 0x7f then [UInt8.ofNat n]
      else if n ≤ 0x7ff then [UInt8.ofNat (n / 64 % 0x20 + 0xc0), UInt8.ofNat (n % 0x40 + 0x80)]
      else if n ≤ 0xffff then
        [UInt8.ofNat (n / 4096 % 0x10 + 0xe0), UInt8.ofNat (n / 64 % 0x40 + 0x80),
          UInt8.ofNat (n % 0x40 + 0x80)]
      else
        [UInt8.ofNat (n / 262144 % 0x08 + 0xf0), UInt8.ofNat (n / 4096 % 0x40 + 0x80),
          UInt8.ofNat (n / 64 % 0x40 + 0x80), UInt8.ofNat (n % 0x40 + 0x80)] :=
  rfl

theorem scalar_encode (c : Char) : Scalar (String.utf8EncodeChar c) := by
  have hv : c.toNat.isValidChar := c.valid
  have he : String.utf8EncodeChar c = _ := encode_ofNatAux hv
  unfold Nat.isValidChar at hv
  rw [he]
  generalize c.toNat = n at hv
  split
  next h =>
    refine .one ?_
    rw [toNat_ofNat_byte (by omega)]
    omega
  split
  next h =>
    refine .two ?_ ?_
    · rw [toNat_ofNat_byte (by omega)]
      omega
    · rw [toNat_ofNat_byte (by omega)]
      omega
  split
  next h =>
    refine .three ?_ ?_
    · rw [toNat_ofNat_byte (by omega), toNat_ofNat_byte (by omega)]
      unfold Second3
      omega
    · rw [toNat_ofNat_byte (by omega)]
      omega
  next h =>
    refine .four ?_ ?_ ?_
    · rw [toNat_ofNat_byte (by omega), toNat_ofNat_byte (by omega)]
      unfold Second4
      omega
    · rw [toNat_ofNat_byte (by omega)]
      omega
    · rw [toNat_ofNat_byte (by omega)]
      omega

theorem exists_encode {x : Bytes} (hx : Scalar x) : ∃ c : Char, String.utf8EncodeChar c = x := by
  cases hx with
  | @one a ha =>
    have hv : a.toNat.isValidChar := by unfold Nat.isValidChar; omega
    refine ⟨Char.ofNatAux a.toNat hv, ?_⟩
    rw [encode_ofNatAux, if_pos (by omega), byte_eq rfl]
  | @two a b ha hb =>
    have hv : ((a.toNat - 0xC0) * 64 + (b.toNat - 0x80)).isValidChar := by
      unfold Nat.isValidChar
      omega
    refine ⟨Char.ofNatAux _ hv, ?_⟩
    rw [encode_ofNatAux, if_neg (by omega), if_pos (by omega), byte_eq (c := a) (by omega),
      byte_eq (c := b) (by omega)]
  | @three a b c hb hc =>
    unfold Second3 at hb
    have hv : ((a.toNat - 0xE0) * 4096 + (b.toNat - 0x80) * 64 + (c.toNat - 0x80)).isValidChar := by
      unfold Nat.isValidChar
      omega
    refine ⟨Char.ofNatAux _ hv, ?_⟩
    rw [encode_ofNatAux, if_neg (by omega), if_neg (by omega), if_pos (by omega),
      byte_eq (c := a) (by omega), byte_eq (c := b) (by omega), byte_eq (c := c) (by omega)]
  | @four a b c d hb hc hd =>
    unfold Second4 at hb
    have hv : ((a.toNat - 0xF0) * 262144 + (b.toNat - 0x80) * 4096 + (c.toNat - 0x80) * 64
        + (d.toNat - 0x80)).isValidChar := by
      unfold Nat.isValidChar
      omega
    refine ⟨Char.ofNatAux _ hv, ?_⟩
    rw [encode_ofNatAux, if_neg (by omega), if_neg (by omega), if_neg (by omega),
      byte_eq (c := a) (by omega), byte_eq (c := b) (by omega), byte_eq (c := c) (by omega),
      byte_eq (c := d) (by omega)]

theorem isUtf8_utf8 (cs : List Char) : isUtf8 (utf8 cs) = true := by
  induction cs with
  | nil => rfl
  | cons c cs ih =>
    show isUtf8 (String.utf8EncodeChar c ++ utf8 cs) = true
    rw [isUtf8_scalar (scalar_encode c), ih]

theorem exists_utf8 (n : Nat) {b : Bytes} (hn : b.length ≤ n) (h : isUtf8 b = true) :
    ∃ cs : List Char, b = utf8 cs := by
  induction n generalizing b with
  | zero => exact ⟨[], List.length_eq_zero_iff.mp (by omega)⟩
  | succ n ih =>
    obtain rfl | ⟨x, r, hx, rfl, hr⟩ := isUtf8_split h
    · exact ⟨[], rfl⟩
    · have hpos : 0 < x.length := by cases hx <;> exact Nat.succ_pos _
      rw [List.length_append] at hn
      obtain ⟨c, hc⟩ := exists_encode hx
      obtain ⟨cs, hcs⟩ := ih (by omega) hr
      refine ⟨c :: cs, ?_⟩
      rw [hcs, ← hc]
      rfl

theorem isUtf8_iff {b : Bytes} : isUtf8 b = true ↔ ∃ s, strDecode b = some s := by
  constructor
  · intro h
    obtain ⟨cs, rfl⟩ := exists_utf8 b.length (Nat.le_refl _) h
    exact ⟨_, strDecode_utf8 cs⟩
  · rintro ⟨s, hs⟩
    obtain ⟨cs, -, rfl⟩ := strEncode_iff.mp (strDecode_iff.mp hs)
    exact isUtf8_utf8 cs

end ShadowLan
