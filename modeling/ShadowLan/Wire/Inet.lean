import Mathlib.Data.List.TakeWhile
import Mathlib.Tactic.SplitIfs
import Mathlib.Tactic.Tauto
import ShadowLan.Wire.Bytes

/-!
# Addresses as text

`dotted` is the `"%u.%u.%u.%u"` of the hooks, `inetAddr` the C library's `inet_addr`: one to four
parts, each decimal, octal (`0...`) or hexadecimal (`0x...`), the last one filling the bytes that
are left.  An address is a number in host order.

* `inetAddr_dotted`   `inetAddr` reads back what `dotted` writes;
* `isUtf8_dotted`     which is plain ASCII.
-/

namespace ShadowLan

/-- the answer of `inet_addr` to what it cannot read; also the address 255.255.255.255 -/
def INADDR_NONE : Nat := 0xFFFFFFFF

def digit (n : Nat) : UInt8 := UInt8.ofNat (0x30 + n)

/-- `%u` of a byte -/
def decimal (n : Nat) : Bytes :=
  if n < 10 then [digit n]
  else if n < 100 then [digit (n / 10), digit (n % 10)]
  else [digit (n / 100), digit (n / 10 % 10), digit (n % 10)]

def octets (a : Nat) : List Nat := [a / 16777216 % 256, a / 65536 % 256, a / 256 % 256, a % 256]

def dotted (a : Nat) : Bytes := [0x2E].intercalate ((octets a).map decimal)

/-! ## `inet_addr` -/

def digitVal (c : UInt8) : Nat :=
  if within 0x30 0x39 c then c.toNat - 0x30
  else if within 0x61 0x66 c then c.toNat - 0x61 + 10
  else if within 0x41 0x46 c then c.toNat - 0x41 + 10
  else 16

/-- digits of one base up to the end -/
def number (base : Nat) (ds : Bytes) : Option Nat :=
  if ds ≠ [] ∧ ds.all (fun d => digitVal d < base) then
    some (ds.foldl (fun n d => n * base + digitVal d) 0)
  else none

/-- one part of an address, as `strtoul` with base 0 reads it -/
def inetPart : Bytes → Option Nat
  | 0x30 :: x :: ds => if x = 0x78 ∨ x = 0x58 then number 16 ds else number 8 (x :: ds)
  | ds => number 10 ds

/-- what ends the text: its NUL, or white space -/
def isEnd (c : UInt8) : Bool := c == 0 || c == 0x20 || within 9 13 c

def inetJoin : List Nat → Option Nat
  | [a] => if a < 4294967296 then some a else none
  | [a, b] => if a < 256 ∧ b < 16777216 then some (a * 16777216 + b) else none
  | [a, b, c] =>
    if a < 256 ∧ b < 256 ∧ c < 65536 then some (a * 16777216 + b * 65536 + c) else none
  | [a, b, c, d] =>
    if a < 256 ∧ b < 256 ∧ c < 256 ∧ d < 256 then
      some (a * 16777216 + b * 65536 + c * 256 + d)
    else none
  | _ => none

/-- `inet_addr`; `none` is `INADDR_NONE` -/
def inetAddr (text : Bytes) : Option Nat := do
  let parts ← ((text.takeWhile fun c => !isEnd c).splitOn 0x2E).mapM inetPart
  let a ← inetJoin parts
  if a = INADDR_NONE then none else return a

/-! ## reading back -/

theorem decimal_byte : ∀ n < 256, inetPart (decimal n) = some n ∧
    (decimal n).all (fun c => decide (c < 0x80) && c != 0x2E && !isEnd c) = true := by
  decide +kernel

theorem octets_lt (a : Nat) : ∀ n ∈ octets a, n < 256 := by
  intro n hn
  simp only [octets, List.mem_cons, List.not_mem_nil, or_false] at hn
  omega

theorem decimal_octet {a n : Nat} (hn : n ∈ octets a) : inetPart (decimal n) = some n ∧
    ∀ c ∈ decimal n, c < 0x80 ∧ c ≠ 0x2E ∧ isEnd c = false := by
  obtain ⟨hpart, hall⟩ := decimal_byte n (octets_lt a n hn)
  refine ⟨hpart, fun c hc => ?_⟩
  simpa [and_assoc] using List.all_eq_true.mp hall c hc

theorem mem_dotted {a : Nat} {c : UInt8} (hc : c ∈ dotted a) : c < 0x80 ∧ isEnd c = false := by
  have hcases : c = 0x2E ∨ ∃ n ∈ octets a, c ∈ decimal n := by
    simp only [dotted, octets, List.map_cons, List.map_nil, List.intercalate, List.intersperse,
      List.flatten_cons, List.flatten_nil, List.mem_append, List.mem_singleton, List.not_mem_nil,
      or_false] at hc
    simp only [octets, List.mem_cons, List.not_mem_nil, or_false, exists_eq_or_imp,
      exists_eq_left]
    tauto
  rcases hcases with rfl | ⟨n, hn, hc⟩
  · decide
  · obtain ⟨h1, -, h3⟩ := (decimal_octet hn).2 c hc
    exact ⟨h1, h3⟩

theorem inetAddr_dotted {a : Nat} (h : a < INADDR_NONE) : inetAddr (dotted a) = some a := by
  have hcut : (dotted a).takeWhile (fun c => !isEnd c) = dotted a := by
    rw [List.takeWhile_eq_self_iff]
    intro c hc
    rw [(mem_dotted hc).2]
    rfl
  have hsplit : (dotted a).splitOn 0x2E = (octets a).map decimal := by
    apply List.splitOn_intercalate
    · intro l hl hmem
      obtain ⟨n, hn, rfl⟩ := List.mem_map.mp hl
      exact ((decimal_octet hn).2 _ hmem).2.1 rfl
    · simp [octets]
  have hparts : ((octets a).map decimal).mapM inetPart = some (octets a) := by
    have hn := fun n (hn : n ∈ octets a) => (decimal_octet hn).1
    simp only [octets, List.mem_cons, List.not_mem_nil, or_false, forall_eq_or_imp,
      forall_eq] at hn
    simp [octets, hn]
  have hjoin : inetJoin (octets a) = some a := by
    unfold INADDR_NONE at h
    show (if a / 16777216 % 256 < 256 ∧ _ then _ else _) = _
    rw [if_pos (by omega)]
    exact congrArg some (by omega)
  unfold inetAddr
  rw [hcut, hsplit, hparts]
  show (inetJoin (octets a)).bind _ = some a
  rw [hjoin]
  show (if a = INADDR_NONE then none else some a) = some a
  rw [if_neg (by omega)]

theorem isUtf8_ascii {b : Bytes} (h : ∀ c ∈ b, c < 0x80) : isUtf8 b = true := by
  induction b with
  | nil => rfl
  | cons c b ih =>
    unfold isUtf8
    rw [if_pos (h c List.mem_cons_self)]
    exact ih fun d hd => h d (List.mem_cons_of_mem c hd)

theorem isUtf8_dotted (a : Nat) : isUtf8 (dotted a) = true :=
  isUtf8_ascii fun _ hc => (mem_dotted hc).1

theorem length_dotted (a : Nat) : (dotted a).length ≤ 15 := by
  have hlen : ∀ n, (decimal n).length ≤ 3 := by
    intro n
    unfold decimal
    split_ifs <;> simp
  have h0 := hlen (a / 16777216 % 256)
  have h1 := hlen (a / 65536 % 256)
  have h2 := hlen (a / 256 % 256)
  have h3 := hlen (a % 256)
  simp only [dotted, octets, List.map_cons, List.map_nil, List.intercalate, List.intersperse,
    List.flatten_cons, List.flatten_nil, List.length_append, List.length_singleton,
    List.length_nil]
  omega

end ShadowLan
