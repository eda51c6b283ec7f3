/-!
# Bytes and the fixed-width fields on the wire

Frames and datagrams are byte strings.  `packH`, `packI` and `unpackH`, `unpackI` are the
big-endian formats `!H` and `!I` of `struct`; an unpack wants exactly the bytes of its field and
fails on anything else, as `struct.unpack` raises.  A text field is kept as the bytes of its UTF-8
form: `decodeText` accepts exactly the well-formed byte strings, as `bytes.decode` does.
-/

namespace ShadowLan

abbrev Bytes := List UInt8

theorem toNat_ofNat_byte {n : Nat} (h : n < 256) : (UInt8.ofNat n).toNat = n := by
  rw [UInt8.toNat_ofNat']
  exact Nat.mod_eq_of_lt h

/-- `data[i:j]`: a slice past the end is cut, never an error -/
def slice (data : Bytes) (i j : Nat) : Bytes := (data.drop i).take (j - i)

/-- `!H`; the values packed here come out of `unpackH` or are masked by the caller -/
def packH (n : Nat) : Bytes := [UInt8.ofNat (n / 256), UInt8.ofNat n]

/-- `!I` -/
def packI (n : Nat) : Bytes :=
  [UInt8.ofNat (n / 16777216), UInt8.ofNat (n / 65536), UInt8.ofNat (n / 256), UInt8.ofNat n]

def unpackH : Bytes → Option Nat
  | [a, b] => some (a.toNat * 256 + b.toNat)
  | _ => none

def unpackI : Bytes → Option Nat
  | [a, b, c, d] => some (a.toNat * 16777216 + b.toNat * 65536 + c.toNat * 256 + d.toNat)
  | _ => none

def within (lo hi b : UInt8) : Bool := lo ≤ b && b ≤ hi

def isCont (b : UInt8) : Bool := within 0x80 0xBF b

/-- well-formed UTF-8: no overlong form, no surrogate, nothing above U+10FFFF -/
def isUtf8 : Bytes → Bool
  | [] => true
  | a :: r =>
    if a < 0x80 then isUtf8 r
    else match r with
      | [] => false
      | b :: r =>
        if within 0xC2 0xDF a && isCont b then isUtf8 r
        else match r with
          | [] => false
          | c :: r =>
            if (a == 0xE0 && within 0xA0 0xBF b || a == 0xED && within 0x80 0x9F b
                || within 0xE1 0xEF a && a != 0xED && isCont b) && isCont c then isUtf8 r
            else match r with
              | [] => false
              | d :: r =>
                if (a == 0xF0 && within 0x90 0xBF b || a == 0xF4 && within 0x80 0x8F b
                    || within 0xF1 0xF3 a && isCont b) && isCont c && isCont d then isUtf8 r
                else false

def decodeText (b : Bytes) : Option Bytes := if isUtf8 b then some b else none

end ShadowLan
