import ShadowLan.Hook.Egress
import ShadowLan.Wire.Frames
import ShadowLan.Lib.OnesComplement

/-!
# The checksum of an echo reply

`dt_icmp_cksum` adds 16-bit words in an `unsigned` of 32 bits and adds the carries in at the end.

* `words16`              the words of a packet;
* `cksumAdd`, `cksumFold`   the two loops, in machine words;
* `dtIcmpBuildRep`       the reply, byte by byte as it is written;
* `cksumAdd_toNat`       the accumulator of a packet does not wrap;
* `folded_cksumFold`     the folded sum stands for the sum of the words;
* `echo_reply_valid`     the reply is what was asked for, and its sum is all ones;
* `dtIcmpBuildRep_eq`    it is the reply that the rest of the model hands out.
-/

namespace ShadowLan

/-- the 16-bit words of a packet; an odd last byte is padded with zero -/
def words16 : Bytes → List Nat
  | a :: b :: r => (a.toNat * 256 + b.toNat) :: words16 r
  | [a] => [a.toNat * 256]
  | [] => []

/-- the loop over the words, and the odd byte behind it -/
def cksumAdd : Bytes → UInt32 → UInt32
  | a :: b :: r, sum => cksumAdd r (sum + (a.toUInt32 <<< 8 ||| b.toUInt32))
  | [a], sum => sum + (a.toUInt32 <<< 8)
  | [], sum => sum

/-- one round of the second loop -/
def foldRound (sum : UInt32) : UInt32 := (sum &&& (0xFFFF : UInt32)) + (sum >>> 16)

theorem shr16_toNat (sum : UInt32) : (sum >>> 16).toNat = sum.toNat / 65536 := by
  rw [UInt32.toNat_shiftRight]
  exact Nat.shiftRight_eq_div_pow sum.toNat 16

theorem foldRound_toNat (sum : UInt32) :
    (foldRound sum).toNat = sum.toNat % 65536 + sum.toNat / 65536 := by
  have hand : (sum &&& (0xFFFF : UInt32)).toNat = sum.toNat % 65536 := by
    rw [UInt32.toNat_and]
    exact Nat.and_two_pow_sub_one_eq_mod sum.toNat 16
  have hlt := sum.toNat_lt
  unfold foldRound
  rw [UInt32.toNat_add, hand, shr16_toNat]
  omega

theorem shr16_eq_zero {sum : UInt32} : sum >>> 16 = 0 ↔ sum.toNat < 65536 := by
  rw [← UInt32.toNat_inj, shr16_toNat]
  show sum.toNat / 65536 = 0 ↔ _
  omega

/-- the loop that adds the carries in: every round makes the sum smaller -/
def cksumFold (sum : UInt32) : UInt32 :=
  if sum >>> 16 = 0 then sum else cksumFold (foldRound sum)
termination_by sum.toNat
decreasing_by
  rename_i h
  rw [shr16_eq_zero] at h
  rw [foldRound_toNat]
  omega

/-- `dt_icmp_cksum` -/
def dtIcmpCksum (b : Bytes) : UInt16 := (~~~(cksumFold (cksumAdd b 0))).toUInt16

/-- the reply before its checksum is put in -/
def echoBlank (id seq : UInt32) (data : Bytes) : Bytes :=
  ([0, 0, 0, 0, ((id >>> 8) &&& 255).toUInt8, (id &&& 255).toUInt8,
    ((seq >>> 8) &&& 255).toUInt8, (seq &&& 255).toUInt8] : Bytes) ++ data

/-- `dt_icmp_build_rep`: what it writes, and the length that it returns -/
def dtIcmpBuildRep (id seq : UInt32) (data : Bytes) : Bytes × Nat :=
  let out := echoBlank id seq data
  let c := (dtIcmpCksum out).toUInt32
  ((out.set 2 ((c >>> 8) &&& 255).toUInt8).set 3 (c &&& 255).toUInt8, 8 + data.length)

/-! ## the sum -/

theorem odd_toNat (a : UInt8) : (a.toUInt32 <<< 8).toNat = a.toNat * 256 := by
  have ha := a.toNat_lt
  have hmod : (8 : UInt32).toNat % 32 = 8 := rfl
  rw [UInt32.toNat_shiftLeft, UInt8.toNat_toUInt32, hmod, Nat.shiftLeft_eq]
  exact Nat.mod_eq_of_lt (by omega)

theorem word_toNat (a b : UInt8) :
    (a.toUInt32 <<< 8 ||| b.toUInt32).toNat = a.toNat * 256 + b.toNat := by
  have hshl : (a.toUInt32 <<< 8).toNat = a.toNat <<< 8 := by
    rw [odd_toNat, Nat.shiftLeft_eq]
  rw [UInt32.toNat_or, hshl, UInt8.toNat_toUInt32, ← Nat.shiftLeft_add_eq_or_of_lt b.toNat_lt,
    Nat.shiftLeft_eq]

/-- **The accumulator does not wrap** as long as the sum of the words fits -/
theorem cksumAdd_toNat (b : Bytes) (sum : UInt32) (h : sum.toNat + (words16 b).sum < 2 ^ 32) :
    (cksumAdd b sum).toNat = sum.toNat + (words16 b).sum := by
  induction b, sum using cksumAdd.induct with
  | case1 a b r sum ih =>
    rw [words16, List.sum_cons] at h ⊢
    have hadd : (sum + (a.toUInt32 <<< 8 ||| b.toUInt32)).toNat =
        sum.toNat + (a.toNat * 256 + b.toNat) := by
      rw [UInt32.toNat_add, word_toNat]
      omega
    rw [cksumAdd, ih (by rw [hadd]; omega), hadd]
    omega
  | case2 a sum =>
    rw [words16, List.sum_singleton] at h ⊢
    rw [cksumAdd, UInt32.toNat_add, odd_toNat]
    omega
  | case3 sum => rfl

theorem words16_le {b : Bytes} {w : Nat} (h : w ∈ words16 b) : w ≤ 65535 := by
  induction b using words16.induct with
  | case1 a b r ih =>
    have ha := a.toNat_lt
    have hb := b.toNat_lt
    rw [words16] at h
    rcases List.mem_cons.mp h with rfl | h
    · omega
    · exact ih h
  | case2 a =>
    have ha := a.toNat_lt
    rw [words16, List.mem_singleton] at h
    omega
  | case3 => exact absurd h List.not_mem_nil

theorem length_words16 (b : Bytes) : (words16 b).length = (b.length + 1) / 2 := by
  induction b using words16.induct with
  | case1 a b r ih =>
    rw [words16, List.length_cons, ih]
    simp only [List.length_cons]
    omega
  | case2 a => rw [words16, List.length_singleton, List.length_singleton]
  | case3 => rfl

/-- words that are few enough add up to less than the accumulator holds -/
theorem sum_words_lt {ws : List Nat} (h : ∀ w ∈ ws, w ≤ 65535) (hl : ws.length ≤ 65537) :
    ws.sum < 2 ^ 32 := by
  have hsum : ws.sum ≤ ws.length * 65535 := by
    clear hl
    induction ws with
    | nil => exact Nat.zero_le _
    | cons w ws ih =>
      have hw := h w List.mem_cons_self
      have hrest := ih fun v hv => h v (List.mem_cons_of_mem _ hv)
      rw [List.sum_cons, List.length_cons, Nat.succ_mul]
      omega
  have hmul : ws.length * 65535 ≤ 65537 * 65535 := Nat.mul_le_mul_right 65535 hl
  omega

/-! ## the carries -/

/-- **The folded sum stands for the sum.** -/
theorem folded_cksumFold (sum : UInt32) : Folded 65535 (cksumFold sum).toNat sum.toNat := by
  induction sum using cksumFold.induct with
  | case1 sum h =>
    rw [cksumFold, if_pos h]
    rw [shr16_eq_zero] at h
    exact folded_self (by omega)
  | case2 sum h ih =>
    rw [cksumFold, if_neg h]
    rw [foldRound_toNat] at ih
    exact ih.carry

/-- two rounds are enough -/
theorem fold_ends (sum : UInt32) : ∃ k ≤ 2, (foldRound^[k] sum) >>> 16 = 0 := by
  refine ⟨2, Nat.le_refl 2, ?_⟩
  have hlt := sum.toNat_lt
  show foldRound (foldRound sum) >>> 16 = 0
  rw [shr16_eq_zero, foldRound_toNat, foldRound_toNat]
  omega

theorem dtIcmpCksum_toNat (b : Bytes) :
    (dtIcmpCksum b).toNat = 65535 - (cksumFold (cksumAdd b 0)).toNat := by
  have hle := (folded_cksumFold (cksumAdd b 0)).le
  unfold dtIcmpCksum
  rw [UInt32.toNat_toUInt16, UInt32.toNat_not]
  show (4294967295 - (cksumFold (cksumAdd b 0)).toNat) % 65536 = _
  omega

/-! ## the reply -/

/-- the two bytes of a number as they are written out -/
theorem two_bytes (x : UInt32) :
    ([((x >>> 8) &&& 255).toUInt8, (x &&& 255).toUInt8] : Bytes) = packH x.toNat := by
  have hand : ∀ y : UInt32, (y &&& 255).toUInt8.toNat = y.toNat % 256 := by
    intro y
    rw [UInt32.toNat_toUInt8, UInt32.toNat_and]
    show (y.toNat &&& 255) % 256 = _
    rw [show y.toNat &&& 255 = y.toNat % 256 from Nat.and_two_pow_sub_one_eq_mod y.toNat 8]
    omega
  have hshr : (x >>> 8).toNat = x.toNat / 256 := by
    rw [UInt32.toNat_shiftRight]
    exact Nat.shiftRight_eq_div_pow x.toNat 8
  have hhi : ((x >>> 8) &&& 255).toUInt8 = UInt8.ofNat (x.toNat / 256) := by
    apply UInt8.toNat_inj.mp
    rw [hand, hshr, UInt8.toNat_ofNat']
  have hlo : (x &&& 255).toUInt8 = UInt8.ofNat x.toNat := by
    apply UInt8.toNat_inj.mp
    rw [hand, UInt8.toNat_ofNat']
  rw [hhi, hlo]
  rfl

theorem echoBlank_eq (id seq : UInt32) (data : Bytes) : echoBlank id seq data =
    packH 0 ++ (packH 0 ++ (packH id.toNat ++ (packH seq.toNat ++ data))) := by
  rw [← two_bytes id, ← two_bytes seq]
  rfl

theorem buildRep_eq (id seq : UInt32) (data : Bytes) : (dtIcmpBuildRep id seq data).1 =
    packH 0 ++ (packH (dtIcmpCksum (echoBlank id seq data)).toNat ++
      (packH id.toNat ++ (packH seq.toNat ++ data))) := by
  rw [← UInt16.toNat_toUInt32, ← two_bytes, ← two_bytes id, ← two_bytes seq]
  rfl

theorem words16_packH {n : Nat} (h : n < 65536) (r : Bytes) :
    words16 (packH n ++ r) = n :: words16 r := by
  show ((UInt8.ofNat (n / 256)).toNat * 256 + (UInt8.ofNat n).toNat) :: words16 r = _
  rw [UInt8.toNat_ofNat', UInt8.toNat_ofNat']
  congr 1
  omega

/-- the words of a reply with the checksum `n` -/
theorem words16_fields {n id seq : Nat} (hn : n < 65536) (hid : id < 65536) (hseq : seq < 65536)
    (data : Bytes) : words16 (packH 0 ++ (packH n ++ (packH id ++ (packH seq ++ data)))) =
      0 :: n :: id :: seq :: words16 data := by
  rw [words16_packH (by decide), words16_packH hn, words16_packH hid, words16_packH hseq]

/-- an echo reply that carries what it is asked to, with a valid checksum -/
structure ValidReply (rep : Bytes) (id seq : Nat) (data : Bytes) : Prop where
  kind : rep.take 2 = [0, 0]
  id : dtGet16 rep 4 = id
  seq : dtGet16 rep 6 = seq
  payload : rep.drop 8 = data
  sum : osum 65535 (words16 rep) = 65535

/-- the loops of the checksum of a packet: no partial sum leaves the accumulator, which ends as the
sum of the words, and the second loop ends -/
structure Sums (b : Bytes) : Prop where
  fits : ∀ p, p <+: words16 b → p.sum < 2 ^ 32
  exact : (cksumAdd b 0).toNat = (words16 b).sum
  ends : ∃ k ≤ 2, (foldRound^[k] (cksumAdd b 0)) >>> 16 = 0

/-- the accumulator is wide enough for 128 KiB -/
theorem sums_of_length {b : Bytes} (h : b.length ≤ 131074) : Sums b where
  fits := fun p hp => by
    have hle : ∀ w ∈ p, w ≤ 65535 := fun w hw => words16_le (hp.subset hw)
    have hlen := hp.length_le
    rw [length_words16] at hlen
    exact sum_words_lt hle (by omega)
  exact := by
    have hlen := length_words16 b
    have hle : ∀ w ∈ words16 b, w ≤ 65535 := fun w hw => words16_le hw
    have hlt := sum_words_lt hle (by omega)
    rw [cksumAdd_toNat b 0 (by simpa using hlt)]
    exact Nat.zero_add _
  ends := fold_ends _

/-- **The sum is all ones.**  The checksum is the complement of the word that the other words add
up to; a sum of 0 has the complement 65535, and a sum of 65535 the complement 0. -/
theorem osum_rep {id seq : UInt32} {data : Bytes} (hid : id.toNat < 65536)
    (hseq : seq.toNat < 65536) (hs : Sums (echoBlank id seq data)) :
    osum 65535 (words16 (dtIcmpBuildRep id seq data).1) = 65535 := by
  have hfold := folded_cksumFold (cksumAdd (echoBlank id seq data) 0)
  rw [hs.exact] at hfold
  have hall := folded_compl hfold (by decide)
  rw [← dtIcmpCksum_toNat, echoBlank_eq, words16_fields (by decide) hid hseq, ← echoBlank_eq] at hall
  have hc : (dtIcmpCksum (echoBlank id seq data)).toNat < 65536 :=
    (dtIcmpCksum (echoBlank id seq data)).toNat_lt
  have hrep : words16 (dtIcmpBuildRep id seq data).1 =
      0 :: (dtIcmpCksum (echoBlank id seq data)).toNat :: id.toNat :: seq.toNat :: words16 data := by
    rw [buildRep_eq, words16_fields hc hid hseq]
  have hosum := folded_osum (m := 65535) fun w (hw : w ∈ words16 (dtIcmpBuildRep id seq data).1) =>
    words16_le hw
  apply hosum.unique
  have hsum : (words16 (dtIcmpBuildRep id seq data).1).sum =
      (0 :: 0 :: id.toNat :: seq.toNat :: words16 data).sum +
        (dtIcmpCksum (echoBlank id seq data)).toNat := by
    rw [hrep]
    simp only [List.sum_cons]
    omega
  rw [hsum]
  exact hall

theorem length_echoBlank (id seq : UInt32) (data : Bytes) :
    (echoBlank id seq data).length = 8 + data.length := by
  rw [echoBlank, List.length_append]
  rfl

/-- **Every echo reply that is built is valid**, of either parity and down to the empty one -/
theorem echo_reply_valid (id seq : UInt32) (data : Bytes) (hid : id.toNat < 65536)
    (hseq : seq.toNat < 65536) (hlen : data.length ≤ 1492) :
    (dtIcmpBuildRep id seq data).2 = 8 + data.length ∧
    (dtIcmpBuildRep id seq data).1.length = 8 + data.length ∧
    ValidReply (dtIcmpBuildRep id seq data).1 id.toNat seq.toNat data ∧
    Sums (echoBlank id seq data) := by
  have hs : Sums (echoBlank id seq data) :=
    sums_of_length (by rw [length_echoBlank]; omega)
  have hbytes := buildRep_eq id seq data
  have hfour : ([0, 0, 0, 0] : Bytes).length = 4 := rfl
  refine ⟨rfl, ?_, ⟨?_, ?_, ?_, ?_, osum_rep hid hseq hs⟩, hs⟩
  · show (((echoBlank id seq data).set 2 _).set 3 _).length = _
    rw [List.length_set, List.length_set, length_echoBlank]
  · rw [hbytes]
    rfl
  · rw [hbytes]
    exact dtGet16_at hid (packH 0 ++ packH (dtIcmpCksum (echoBlank id seq data)).toNat)
      (packH seq.toNat ++ data)
  · rw [hbytes]
    exact dtGet16_at hseq (packH 0 ++ packH (dtIcmpCksum (echoBlank id seq data)).toNat ++
      packH id.toNat) data
  · rw [hbytes]
    rfl

/-- id 1, sequence number 2 and one byte -/
theorem echo_reply_odd : (dtIcmpBuildRep 1 2 [7]).2 = 9 ∧ (dtIcmpBuildRep 1 2 [7]).1.length = 9 ∧
    ValidReply (dtIcmpBuildRep 1 2 [7]).1 1 2 [7] ∧ Sums (echoBlank 1 2 [7]) :=
  echo_reply_valid 1 2 [7] (by decide) (by decide) (by decide)

/-- a request of zeros: the sum is empty, and the checksum is all ones -/
example : osum 65535 (words16 (dtIcmpBuildRep 0 0 [0, 0, 0]).1) = 65535 :=
  osum_rep (by decide) (by decide) (sums_of_length (by decide))

/-! ## the reply of the rest of the model -/

theorem icmpSum_eq (b : Bytes) : icmpSum b = (words16 b).sum := by
  induction b using words16.induct with
  | case1 a b r ih => rw [icmpSum, words16, List.sum_cons, ih]
  | case2 a => rw [icmpSum, words16, List.sum_singleton]
  | case3 => rfl

/-- two rounds of the loop, on numbers -/
theorem folded_icmpFold {n : Nat} (h : n < 2 ^ 32) : Folded 65535 (icmpFold n) n := by
  apply Folded.carry
  apply Folded.carry
  show Folded 65535 (icmpFold n) (icmpFold n)
  apply folded_self
  unfold icmpFold
  dsimp only
  omega

theorem dtIcmpCksum_eq {b : Bytes} (h : b.length ≤ 131074) : (dtIcmpCksum b).toNat = icmpCksum b := by
  have hs := sums_of_length h
  have hfold := folded_cksumFold (cksumAdd b 0)
  rw [hs.exact] at hfold
  have hlt := hs.fits _ (List.prefix_refl _)
  rw [dtIcmpCksum_toNat, hfold.unique (folded_icmpFold hlt), icmpCksum, icmpSum_eq]

/-- **The machine's reply is the model's.** -/
theorem dtIcmpBuildRep_eq (id seq : UInt32) {data : Bytes} (h : data.length ≤ 1492) :
    (dtIcmpBuildRep id seq data).1 = icmpBuildRep id.toNat seq.toNat data := by
  have hlen : (echoBlank id seq data).length ≤ 131074 := by
    rw [length_echoBlank]
    omega
  rw [buildRep_eq, dtIcmpCksum_eq hlen, echoBlank_eq]
  rfl

end ShadowLan
