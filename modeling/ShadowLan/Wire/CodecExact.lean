import ShadowLan.Wire.Codec

/-!
# The codecs are bijections on their formats

* `datagram_iff`, `decodeTriple_iff`, `decode_node_iff`, `decodeRows_iff`   what is accepted is what
                       is written, for the parts that several kinds share;
* `Kind.exact`         each reader of a kind of message is total and the inverse of its writer.
-/

namespace ShadowLan
namespace Py

section
variable {α : Type}

/-! ## the head of a datagram -/

theorem datagram_short {n : Nat} {ops : Nat → Bool} {body : Nat → Py (Option α)} {d : Bytes}
    (h : d.length < n) : datagram n ops body d = .ok none := by
  have hb : badHeader d n = .ok true := if_pos (.inl h)
  unfold datagram
  rw [hb]
  rfl

theorem datagram_cons {n : Nat} {ops : Nat → Bool} {body : Nat → Py (Option α)} {a b c e : UInt8}
    {r : Bytes} (h : n ≤ (a :: b :: c :: e :: r).length) :
    datagram n ops body (a :: b :: c :: e :: r) =
      if [a, b] = UMAGIC ∧ c = UVER ∧ ops e.toNat = true then body e.toNat else .ok none := by
  have hslice : slice (a :: b :: c :: e :: r) 0 2 = [a, b] := rfl
  unfold datagram badHeader
  rw [hslice]
  by_cases hm : [a, b] = UMAGIC
  · rw [if_neg (fun ho => ho.elim (fun hl => by omega) fun hn => hn hm)]
    show (if decide (c.toNat ≠ UVER.toNat) then _ else _) = _
    by_cases hc : c = UVER
    · have hno : ¬ decide (c.toNat ≠ UVER.toNat) = true := by
        rw [hc, decide_eq_true_iff]
        exact fun h => h rfl
      rw [if_neg hno]
      show (if ops e.toNat = true then _ else _) = _
      by_cases ho : ops e.toNat = true
      · rw [if_pos ho, if_pos ⟨hm, hc, ho⟩]
      · rw [if_neg ho, if_neg (fun h => ho h.2.2)]
        rfl
    · have hyes : decide (c.toNat ≠ UVER.toNat) = true :=
        decide_eq_true fun h => hc (UInt8.toNat_inj.mp h)
      rw [if_pos hyes, if_neg (fun h => hc h.2.1)]
      rfl
  · rw [if_pos (.inr hm), if_neg (fun h => hm h.1)]
    rfl

/-- a datagram of four bytes or more, taken apart -/
theorem exists_head {d : Bytes} (h : 4 ≤ d.length) : ∃ a b c e r, d = a :: b :: c :: e :: r := by
  match d, h with
  | a :: b :: c :: e :: r, _ => exact ⟨a, b, c, e, r, rfl⟩

theorem datagram_iff {n : Nat} (hn : 4 ≤ n) {ops : Nat → Bool} {body : Nat → Py (Option α)}
    {d : Bytes} {x : α} : datagram n ops body d = .ok (some x) ↔
      ∃ op, n ≤ d.length ∧ op < 256 ∧ ops op = true ∧ body op = .ok (some x) ∧
        d = UMAGIC ++ [UVER, UInt8.ofNat op] ++ d.drop 4 := by
  by_cases hl : d.length < n
  · rw [datagram_short hl]
    exact iff_of_false (fun h => by cases h) fun ⟨_, h, _⟩ => by omega
  obtain ⟨a, b, c, e, r, rfl⟩ := exists_head (by omega : 4 ≤ d.length)
  rw [datagram_cons (by omega)]
  constructor
  · intro h
    split at h
    next hd =>
      obtain ⟨hm, rfl, ho⟩ := hd
      refine ⟨e.toNat, by omega, e.toNat_lt, ho, h, ?_⟩
      rw [← hm, UInt8.ofNat_toNat]
      rfl
    next => cases h
  · rintro ⟨op, -, hop, ho, h, he⟩
    have he : a :: b :: c :: e :: r = 0x56 :: 0x4E :: UVER :: UInt8.ofNat op :: r := he
    simp only [List.cons.injEq] at he
    obtain ⟨ha, hb, hc, hd, -⟩ := he
    rw [ha, hb, hc, hd, toNat_ofNat_byte hop, if_pos ⟨rfl, rfl, ho⟩]
    exact h

theorem datagram_total {n : Nat} (hn : 4 ≤ n) {ops : Nat → Bool} {body : Nat → Py (Option α)}
    (hbody : ∀ op, ∃ o, body op = .ok o) (d : Bytes) : ∃ o, datagram n ops body d = .ok o := by
  by_cases hl : d.length < n
  · exact ⟨none, datagram_short hl⟩
  obtain ⟨a, b, c, e, r, rfl⟩ := exists_head (by omega : 4 ≤ d.length)
  rw [datagram_cons (by omega)]
  split
  · exact hbody _
  · exact ⟨none, rfl⟩

theorem encodeHead_ok_iff {op : Nat} {b : Bytes} :
    encodeHead op = .ok b ↔ op < 256 ∧ b = UMAGIC ++ [UVER, UInt8.ofNat op] := by
  unfold encodeHead
  rw [bind_ok_iff]
  constructor
  · rintro ⟨a, ha, hb⟩
    obtain ⟨hop, rfl⟩ := (bytesOf_ok_iff (by decide)).mp ha
    exact ⟨hop, (Except.ok.inj hb).symm⟩
  · rintro ⟨hop, rfl⟩
    exact ⟨_, (bytesOf_ok_iff (by decide)).mpr ⟨hop, rfl⟩, rfl⟩

/-! ## the triple -/

theorem encodeTriple_ok_iff {game_port cli_port : Nat} {ipb raw t : Bytes} :
    encodeTriple game_port ipb cli_port raw = .ok t ↔
      Fits [H, H] (game_port, ipb.length, ()) ∧ Fits [H] (cli_port, ()) ∧
        t = packs [H, H] (game_port, ipb.length, ()) ++ (ipb ++ (packs [H] (cli_port, ()) ++ raw)) := by
  unfold encodeTriple
  rw [bind_ok_iff]
  constructor
  · rintro ⟨a, ha, h⟩
    obtain ⟨b, hb, h⟩ := bind_ok_iff.mp h
    obtain ⟨hg, rfl⟩ := structPack_ok_iff.mp ha
    obtain ⟨hc, rfl⟩ := structPack_ok_iff.mp hb
    refine ⟨hg, hc, ?_⟩
    rw [← Except.ok.inj h, List.append_assoc, List.append_assoc]
  · rintro ⟨hg, hc, rfl⟩
    refine ⟨_, structPack_ok_iff.mpr ⟨hg, rfl⟩, bind_ok_iff.mpr
      ⟨_, structPack_ok_iff.mpr ⟨hc, rfl⟩, ?_⟩⟩
    show Except.ok _ = Except.ok _
    rw [List.append_assoc, List.append_assoc]

theorem packs_ne_nil (v : Nat) : packs [H] (v, ()) ≠ [] := by
  intro h
  have hl := length_packs [H] (v, ())
  rw [h] at hl
  cases hl

theorem decodeTriple_ok_iff {d : Bytes} {o game_port cport : Nat} {ip : Str} {raw : Bytes} :
    decodeTriple d o = .ok (game_port, ip, cport, raw) ↔
      ∃ ipb, encodeStr ip = .ok ipb ∧ encodeTriple game_port ipb cport raw = .ok (d.drop o) := by
  unfold decodeTriple
  rw [bind_ok_iff]
  constructor
  · rintro ⟨⟨gp, iplen, _⟩, hhead, h⟩
    obtain ⟨ip', hip, h⟩ := bind_ok_iff.mp h
    obtain ⟨⟨cp, _⟩, hport, h⟩ := bind_ok_iff.mp h
    have he := Except.ok.inj h
    simp only [Prod.mk.injEq] at he
    obtain ⟨rfl, rfl, rfl, rfl⟩ := he
    obtain ⟨hfit, hhead⟩ := (structUnpack_at rfl).mp hhead
    obtain ⟨hcfit, hport⟩ := (structUnpack_at (by show _ = _ + 2; omega)).mp hport
    have hne : packs [H] (cp, ()) ++ d.drop (o + 6 + iplen) ≠ [] := fun h =>
      packs_ne_nil cp (List.append_eq_nil_iff.mp h).1
    obtain ⟨htext, hlen⟩ := slice_at (Nat.le_add_right (o + 4) iplen) hport hne
    rw [Nat.add_sub_cancel_left] at hlen
    refine ⟨_, decodeStr_ok_iff.mp hip, encodeTriple_ok_iff.mpr ⟨?_, hcfit, ?_⟩⟩
    · rw [hlen]
      exact hfit
    · rw [hlen]
      exact hhead.trans (congrArg _ htext)
  · rintro ⟨ipb, hip, h⟩
    obtain ⟨hfit, hcfit, h⟩ := encodeTriple_ok_iff.mp h
    have h4 : d.drop (o + 4) = ipb ++ (packs [H] (cport, ()) ++ raw) := drop_of h rfl
    have h5 : d.drop (o + 4 + ipb.length) = packs [H] (cport, ()) ++ raw := drop_of h4 rfl
    have h6 : d.drop (o + 6 + ipb.length) = raw := drop_of h5 (by show _ = _ + 2; omega)
    have htext : slice d (o + 4) (o + 4 + ipb.length) = ipb := slice_of h4 rfl
    refine ⟨(game_port, ipb.length, ()), (structUnpack_at rfl).mpr ⟨hfit, ?_⟩,
      bind_ok_iff.mpr ⟨ip, ?_, bind_ok_iff.mpr ⟨(cport, ()), (structUnpack_at ?_).mpr ⟨hcfit, ?_⟩, ?_⟩⟩⟩
    · rw [h, ← h4]
      rfl
    · rw [htext]
      exact decodeStr_ok_iff.mpr hip
    · show _ = _ + 2
      omega
    · rw [h5, h6]
    · rw [h6]
      rfl

theorem raises_decodeTriple (d : Bytes) (o : Nat) :
    Raises [.struct, .unicode, .index] (decodeTriple d o) := by
  refine raises_bind (raises_orRaise (by decide) _) fun a _ => ?_
  refine raises_bind (raises_orRaise (by decide) _) fun b _ => ?_
  exact raises_bind (raises_orRaise (by decide) _) fun c _ => raises_ok _

/-! ## a payload of one format -/

theorem decodeFixed_iff {n : Nat} {ws : List Nat} (hn : n = ws.sum) {d : Bytes} {vs : Vals ws} :
    decodeFixed n ws d = .ok (some vs) ↔ Fits ws vs ∧ d = packs ws vs := by
  unfold decodeFixed
  rw [tryExcept_some_iff]
  by_cases hl : d.length ≠ n
  · rw [if_pos hl]
    refine iff_of_false (fun h => by cases h) fun h => hl ?_
    rw [h.2, length_packs, hn]
  rw [if_neg hl, bind_ok_iff]
  constructor
  · rintro ⟨vs', hvs, h⟩
    rw [← Option.some.inj (Except.ok.inj h)]
    exact unpacks_eq_some_iff.mp (orRaise_ok_iff.mp hvs)
  · intro h
    exact ⟨vs, orRaise_ok_iff.mpr (unpacks_eq_some_iff.mpr h), rfl⟩

theorem decodeFixed_total (n : Nat) (ws : List Nat) (d : Bytes) :
    ∃ o, decodeFixed n ws d = .ok o := by
  apply tryExcept_total
  refine raises_ite (raises_ok _) ?_
  exact raises_bind (raises_orRaise (by decide) _) fun _ _ => raises_ok _

end

/-! ## the registration -/

theorem encode_node_ok_iff {token d : Bytes} {node udp_port flags : Nat}
    (hfit : Fits [I, H, B] (node, udp_port, flags, ())) :
    encode_node token node udp_port flags = .ok d ↔ Fits [H] (token.length, ()) ∧
      d = packs [H] (token.length, ()) ++ (token ++ packs [I, H, B] (node, udp_port, flags, ())) := by
  unfold encode_node
  rw [bind_ok_iff]
  constructor
  · rintro ⟨a, ha, h⟩
    obtain ⟨b, hb, h⟩ := bind_ok_iff.mp h
    obtain ⟨hn, rfl⟩ := structPack_ok_iff.mp ha
    obtain rfl := (packMasked_ok_iff hfit).mp hb
    refine ⟨hn, ?_⟩
    rw [← Except.ok.inj h, List.append_assoc]
  · rintro ⟨hn, rfl⟩
    refine ⟨_, structPack_ok_iff.mpr ⟨hn, rfl⟩, bind_ok_iff.mpr
      ⟨_, (packMasked_ok_iff hfit).mpr rfl, ?_⟩⟩
    show Except.ok _ = Except.ok _
    rw [List.append_assoc]

theorem decode_node_iff {d token : Bytes} {node udp_port flags : Nat} :
    decode_node d = .ok (some (token, node, udp_port, flags)) ↔
      Fits [I, H, B] (node, udp_port, flags, ()) ∧
        encode_node token node udp_port flags = .ok d := by
  unfold decode_node
  rw [tryExcept_some_iff]
  constructor
  · intro h
    split at h
    · cases h
    obtain ⟨⟨n, _⟩, hn, h⟩ := bind_ok_iff.mp h
    dsimp only at h
    split at h
    · cases h
    next hlen =>
      have hlen : d.length = 2 + n + 7 := not_not.mp hlen
      obtain ⟨⟨node', port', flags', _⟩, hf, h⟩ := bind_ok_iff.mp h
      have he := Option.some.inj (Except.ok.inj h)
      simp only [Prod.mk.injEq] at he
      obtain ⟨rfl, rfl, rfl, rfl⟩ := he
      obtain ⟨hnfit, hn⟩ := (structUnpack_at rfl).mp hn
      obtain ⟨hfit, hf⟩ := (structUnpack_at (by show _ = _ + 7; omega)).mp hf
      have hend : d.drop (9 + n) = [] := List.drop_eq_nil_of_le (by omega)
      rw [hend, List.append_nil] at hf
      have htok : (slice d 2 (2 + n)).length = n := by
        unfold slice
        rw [List.length_take, List.length_drop]
        omega
      refine ⟨hfit, (encode_node_ok_iff hfit).mpr ⟨?_, ?_⟩⟩
      · rw [htok]
        exact hnfit
      · rw [htok]
        have hrest : d.drop 2 = slice d 2 (2 + n) ++ d.drop (2 + n) := by
          have h := List.take_append_drop (2 + n - 2) (d.drop 2)
          rw [List.drop_drop, Nat.add_sub_cancel' (Nat.le_add_right 2 n)] at h
          exact h.symm
        rw [hf] at hrest
        exact hn.trans (congrArg _ hrest)
  · rintro ⟨hfit, h⟩
    obtain ⟨hnfit, he⟩ := (encode_node_ok_iff hfit).mp h
    have hlen : d.length = 2 + token.length + 7 := by
      rw [he, List.length_append, List.length_append, length_packs, length_packs]
      exact (Nat.add_assoc _ _ _).symm
    have h0 : d.drop 0 = packs [H] (token.length, ()) ++
        (token ++ packs [I, H, B] (node, udp_port, flags, ())) := he
    have h2 : d.drop 2 = token ++ packs [I, H, B] (node, udp_port, flags, ()) := drop_of h0 rfl
    have h3 : d.drop (2 + token.length) = packs [I, H, B] (node, udp_port, flags, ()) ++ [] := by
      rw [List.append_nil]
      exact drop_of h2 rfl
    have h4 : d.drop (9 + token.length) = [] := drop_of h3 (by show _ = _ + 7; omega)
    have htok : slice d 2 (2 + token.length) = token := slice_of h2 rfl
    rw [if_neg (by omega)]
    refine bind_ok_iff.mpr ⟨(token.length, ()), (structUnpack_at rfl).mpr ⟨hnfit, ?_⟩, ?_⟩
    · rw [h0, ← h2]
      rfl
    · dsimp only
      rw [if_neg (not_not.mpr hlen)]
      refine bind_ok_iff.mpr ⟨(node, udp_port, flags, ()), (structUnpack_at ?_).mpr ⟨hfit, ?_⟩, ?_⟩
      · show _ = _ + 7
        omega
      · rw [h3, h4]
      · rw [htok]
        rfl

theorem decode_node_total (d : Bytes) : ∃ o, decode_node d = .ok o := by
  apply tryExcept_total
  refine raises_ite (raises_ok _) ?_
  refine raises_bind (raises_orRaise (by decide) _) fun a _ => ?_
  refine raises_ite (raises_ok _) ?_
  exact raises_bind (raises_orRaise (by decide) _) fun b _ => raises_ok _

/-! ## the rows of an assignment -/

theorem decodeRow_ok_iff {d : Bytes} {o : Nat} {m : Nat × Nat} :
    decodeRow d o = .ok m ↔ Fits [I, I] (m.1, m.2, ()) ∧
      d.drop o = packs [I, I] (m.1, m.2, ()) ++ d.drop (o + 8) := by
  unfold decodeRow
  rw [bind_ok_iff]
  constructor
  · rintro ⟨⟨node, virt, _⟩, hf, h⟩
    rw [← Except.ok.inj h]
    exact (structUnpack_at rfl).mp hf
  · intro h
    exact ⟨(m.1, m.2, ()), (structUnpack_at rfl).mpr h, rfl⟩

/-- the rows behind one another -/
def rowsBytes (ms : List (Nat × Nat)) : Bytes := ms.flatMap fun m => packs [I, I] (m.1, m.2, ())

theorem length_rowsBytes (ms : List (Nat × Nat)) : (rowsBytes ms).length = 8 * ms.length := by
  induction ms with
  | nil => rfl
  | cons m ms ih =>
    show (packs [I, I] (m.1, m.2, ()) ++ rowsBytes ms).length = _
    rw [List.length_append, length_packs, ih, List.length_cons]
    show 8 + _ = _
    omega

theorem decodeRows_iff {d : Bytes} {o n : Nat} {ms : List (Nat × Nat)} :
    ((List.range n).mapM fun i => decodeRow d (o + 8 * i)) = .ok ms ↔
      ms.length = n ∧ (∀ m ∈ ms, Fits [I, I] (m.1, m.2, ())) ∧
        d.drop o = rowsBytes ms ++ d.drop (o + 8 * n) := by
  induction n generalizing o ms with
  | zero =>
    rw [List.range_zero, List.mapM_nil]
    constructor
    · intro h
      rw [← Except.ok.inj h]
      exact ⟨rfl, fun m hm => absurd hm List.not_mem_nil, rfl⟩
    · rintro ⟨hlen, -, -⟩
      rw [List.length_eq_zero_iff.mp hlen]
      rfl
  | succ n ih =>
    -- the first row, and the others seen from behind it
    have hshift : ((List.range n).map Nat.succ).mapM (fun i => decodeRow d (o + 8 * i))
        = (List.range n).mapM fun i => decodeRow d (o + 8 + 8 * i) := by
      rw [List.mapM_map]
      refine congrArg (List.mapM · (List.range n)) (funext fun i => ?_)
      show decodeRow d (o + 8 * (i + 1)) = _
      rw [Nat.mul_succ, Nat.add_comm (8 * i) 8, Nat.add_assoc]
    have hend : o + 8 + 8 * n = o + 8 * (n + 1) := by omega
    rw [List.range_succ_eq_map, List.mapM_cons, hshift, Nat.mul_zero, Nat.add_zero, bind_ok_iff]
    constructor
    · rintro ⟨m, hm, h⟩
      obtain ⟨ms', hms, h⟩ := bind_ok_iff.mp h
      rw [← Except.ok.inj h]
      obtain ⟨hfit, hrow⟩ := decodeRow_ok_iff.mp hm
      obtain ⟨hlen, hfits, hrows⟩ := ih.mp hms
      refine ⟨congrArg Nat.succ hlen, fun x hx => ?_, ?_⟩
      · obtain rfl | hx := List.mem_cons.mp hx
        · exact hfit
        · exact hfits x hx
      · rw [hrow, hrows, hend, ← List.append_assoc]
        rfl
    · rintro ⟨hlen, hfits, h⟩
      cases ms with
      | nil => cases hlen
      | cons m ms =>
        have h : d.drop o = packs [I, I] (m.1, m.2, ()) ++
            (rowsBytes ms ++ d.drop (o + 8 * (n + 1))) := by
          rw [← List.append_assoc]
          exact h
        have h8 : d.drop (o + 8) = rowsBytes ms ++ d.drop (o + 8 * (n + 1)) := drop_of h rfl
        refine ⟨m, decodeRow_ok_iff.mpr ⟨hfits m List.mem_cons_self, ?_⟩,
          bind_ok_iff.mpr ⟨ms, ih.mpr ⟨Nat.succ.inj hlen, fun x hx =>
            hfits x (List.mem_cons_of_mem m hx), ?_⟩, rfl⟩⟩
        · rw [h, h8]
        · rw [h8, hend]

theorem raises_decodeRow (d : Bytes) (o : Nat) : Raises [.struct] (decodeRow d o) :=
  raises_bind (raises_orRaise (by decide) _) fun _ _ => raises_ok _

theorem raises_mapM {α β : Type} {errs : List PyErr} {f : α → Py β} (hf : ∀ a, Raises errs (f a))
    (l : List α) : Raises errs (l.mapM f) := by
  induction l with
  | nil =>
    rw [List.mapM_nil]
    exact raises_ok _
  | cons a l ih =>
    rw [List.mapM_cons]
    exact raises_bind (hf a) fun _ _ => raises_bind ih fun _ _ => raises_ok _

/-! ## each kind -/

/-- what a kind has to fulfil -/
abbrev Kind.IsExact (k : Kind) : Prop := ExactCodec (fun x => k.Fit x ∧ k.Sized x) k.encode k.decode

theorem exact_fixed {n : Nat} {ws : List Nat} (hn : n = ws.sum) :
    ExactCodec (fun vs => Fits ws vs ∧ True) (packMasked ws) (decodeFixed n ws) where
  writes h := ⟨_, (packMasked_ok_iff h.1).mpr rfl⟩
  reads {d vs} := by
    rw [decodeFixed_iff hn, and_true]
    exact and_congr_right fun h => (packMasked_ok_iff h).symm
  total := decodeFixed_total n ws

theorem stopen_exact : Kind.stopen.IsExact := exact_fixed rfl

theorem streq_exact : Kind.streq.IsExact := exact_fixed rfl

theorem stjoin_exact : Kind.stjoin.IsExact := exact_fixed rfl

theorem stfail_exact : Kind.stfail.IsExact := exact_fixed rfl

/-- the payload that carries a sid alone -/
theorem sid_exact :
    ExactCodec (fun vs => Fits [I] vs ∧ True) (packMasked [I]) (decodeFixed STSID_N [I]) :=
  exact_fixed rfl

theorem stsid_exact : Kind.stsid.IsExact where
  writes h := sid_exact.writes h
  reads {d x} := by
    refine Iff.trans ?_ (sid_exact.reads (d := d) (x := (x, ())))
    show (decodeFixed STSID_N [I] d).map _ = _ ↔ _
    cases decodeFixed STSID_N [I] d with
    | error e => exact iff_of_false (fun h => by cases h) fun h => by cases h
    | ok o =>
      cases o with
      | none => exact iff_of_false (fun h => by cases h) fun h => by cases h
      | some vs =>
        refine ⟨fun h => ?_, fun h => ?_⟩
        · obtain rfl : vs.1 = x := Option.some.inj (Except.ok.inj h)
          rfl
        · rw [Option.some.inj (Except.ok.inj h)]
          rfl
  total d := by
    obtain ⟨o, ho⟩ := decodeFixed_total STSID_N [I] d
    refine ⟨o.map Prod.fst, ?_⟩
    show (decodeFixed STSID_N [I] d).map _ = _
    rw [ho]
    rfl

theorem sixteen {n : Nat} : Fits [H] (n, ()) ↔ n < 2 ^ 16 := and_iff_left trivial

theorem node_exact : Kind.node.IsExact where
  writes {x} h := ⟨_, (encode_node_ok_iff h.1).mpr ⟨sixteen.mpr h.2, rfl⟩⟩
  reads {d x} := by
    obtain ⟨token, node, udp_port, flags⟩ := x
    refine decode_node_iff.trans ⟨fun h => ⟨⟨h.1, ?_⟩, h.2⟩, fun h => ⟨h.1.1, h.2⟩⟩
    exact sixteen.mp ((encode_node_ok_iff h.1).mp h.2).1
  total := decode_node_total

theorem ctl_node_exact : Kind.ctl_node.IsExact where
  writes {x} h := by
    obtain ⟨d, hd⟩ := node_exact.writes h
    exact ⟨PVER :: d, bind_ok_iff.mpr ⟨[PVER], rfl, bind_ok_iff.mpr ⟨d, hd, rfl⟩⟩⟩
  reads {d x} := by
    have hw : ∀ f, Kind.encode .ctl_node x = .ok f ↔ ∃ r, Kind.encode .node x = .ok r ∧ f = PVER :: r := by
      intro f
      refine bind_ok_iff.trans ⟨?_, ?_⟩
      · rintro ⟨v, hv, h⟩
        obtain ⟨r, hr, h⟩ := bind_ok_iff.mp h
        obtain rfl : [PVER] = v := Except.ok.inj hv
        exact ⟨r, hr, (Except.ok.inj h).symm⟩
      · rintro ⟨r, hr, rfl⟩
        exact ⟨[PVER], rfl, bind_ok_iff.mpr ⟨r, hr, rfl⟩⟩
    rw [hw]
    show decode_ctl_node d = _ ↔ _
    unfold decode_ctl_node
    cases d with
    | nil => exact iff_of_false (fun h => by cases h) fun ⟨_, _, _, h⟩ => by cases h
    | cons c r =>
      by_cases hc : c = PVER
      · rw [hc]
        refine node_exact.reads.trans (and_congr_right fun _ => ⟨fun h => ⟨r, h, rfl⟩, ?_⟩)
        rintro ⟨r', h, he⟩
        rwa [(List.cons.inj he).2]
      · rw [if_neg (show ¬ ctlVer (c :: r) = PVER from hc)]
        refine iff_of_false (fun h => by cases h) fun ⟨_, r', _, h⟩ => hc (List.cons.inj h).1
  total d := by
    show ∃ o, decode_ctl_node d = .ok o
    unfold decode_ctl_node
    split
    · exact decode_node_total _
    · exact ⟨none, rfl⟩

theorem eight_node {token d : Bytes} {node udp_port flags : Nat}
    (hfit : Fits [I, H, B] (node, udp_port, flags, ()))
    (h : encode_node token node udp_port flags = .ok d) : 9 ≤ d.length := by
  rw [((encode_node_ok_iff hfit).mp h).2, List.length_append, List.length_append, length_packs,
    length_packs]
  show 9 ≤ 2 + (_ + 7)
  omega

/-- what a head and a body are written as -/
theorem encodeHead_bind {α : Type} {op : Nat} {f : Bytes → Py α} {x : α} :
    (encodeHead op >>= f) = .ok x ↔ op < 256 ∧ f (UMAGIC ++ [UVER, UInt8.ofNat op]) = .ok x := by
  rw [bind_ok_iff]
  constructor
  · rintro ⟨b, hb, h⟩
    obtain ⟨hop, rfl⟩ := encodeHead_ok_iff.mp hb
    exact ⟨hop, h⟩
  · rintro ⟨hop, h⟩
    exact ⟨_, encodeHead_ok_iff.mpr ⟨hop, rfl⟩, h⟩

theorem udp_node_exact : Kind.udp_node.IsExact where
  writes {x} h := by
    obtain ⟨d, hd⟩ := node_exact.writes h
    exact ⟨_, encodeHead_bind.mpr ⟨by decide, bind_ok_iff.mpr ⟨d, hd, rfl⟩⟩⟩
  reads {d x} := by
    obtain ⟨token, node, udp_port, flags⟩ := x
    refine (datagram_iff (by decide)).trans ⟨?_, ?_⟩
    · rintro ⟨op, -, hop, ho, h, hd⟩
      obtain rfl := of_decide_eq_true ho
      obtain ⟨hok, he⟩ := node_exact.reads.mp h
      refine ⟨hok, encodeHead_bind.mpr ⟨hop, bind_ok_iff.mpr ⟨_, he, ?_⟩⟩⟩
      exact congrArg _ hd.symm
    · rintro ⟨hok, h⟩
      obtain ⟨hop, h⟩ := encodeHead_bind.mp h
      obtain ⟨r, hr, h⟩ := bind_ok_iff.mp h
      obtain rfl := Except.ok.inj h
      have hl := eight_node hok.1 hr
      refine ⟨U_NODE.toNat, ?_, hop, rfl, node_exact.reads.mpr ⟨hok, hr⟩, rfl⟩
      rw [List.length_append]
      show 10 ≤ 4 + _
      omega
  total d := datagram_total (by decide) (fun _ => decode_node_total _) d

theorem six_triple {game_port cport : Nat} {ipb raw t : Bytes}
    (h : encodeTriple game_port ipb cport raw = .ok t) : 6 ≤ t.length := by
  obtain ⟨-, -, rfl⟩ := encodeTriple_ok_iff.mp h
  rw [List.length_append, List.length_append, List.length_append, length_packs, length_packs]
  show 6 ≤ 4 + (_ + (2 + _))
  omega

/-- the text that fits, and the fields around it -/
theorem textFits_iff {game_port cport : Nat} {ip : Str} :
    (Fits [H, H] (game_port, cport, ()) ∧ ∃ b, strEncode ip = some b ∧ b.length < 2 ^ 16) ↔
      ∃ ipb, encodeStr ip = .ok ipb ∧ Fits [H, H] (game_port, ipb.length, ()) ∧
        Fits [H] (cport, ()) := by
  constructor
  · rintro ⟨⟨hg, hc⟩, b, hb, hl⟩
    exact ⟨b, orRaise_ok_iff.mpr hb, ⟨hg, hl, trivial⟩, hc⟩
  · rintro ⟨b, hb, ⟨hg, hl, -⟩, hc⟩
    exact ⟨⟨hg, hc⟩, b, orRaise_ok_iff.mp hb, hl⟩

theorem udp_game_exact : Kind.udp_game.IsExact where
  writes {x} h := by
    obtain ⟨mtype, game_port, ip, cport, raw⟩ := x
    obtain ⟨⟨hm, hfit⟩, htext⟩ := h
    obtain ⟨ipb, hip, hg, hc⟩ := textFits_iff.mp ⟨hfit, htext⟩
    exact ⟨_, bind_ok_iff.mpr ⟨ipb, hip, encodeHead_bind.mpr ⟨hm, bind_ok_iff.mpr
      ⟨_, encodeTriple_ok_iff.mpr ⟨hg, hc, rfl⟩, rfl⟩⟩⟩⟩
  reads {d x} := by
    obtain ⟨mtype, game_port, ip, cport, raw⟩ := x
    refine (datagram_iff (by decide)).trans ⟨?_, ?_⟩
    · rintro ⟨op, -, hop, -, h, hd⟩
      rw [tryExcept_some_iff] at h
      obtain ⟨⟨game_port', ip', cport', raw'⟩, htri, h⟩ := bind_ok_iff.mp h
      have he := Option.some.inj (Except.ok.inj h)
      simp only [Prod.mk.injEq] at he
      obtain ⟨rfl, rfl, rfl, rfl, rfl⟩ := he
      obtain ⟨ipb, hip, henc⟩ := decodeTriple_ok_iff.mp htri
      obtain ⟨hg, hc, -⟩ := encodeTriple_ok_iff.mp henc
      obtain ⟨hfit, htext⟩ := textFits_iff.mpr ⟨ipb, hip, hg, hc⟩
      refine ⟨⟨⟨hop, hfit⟩, htext⟩, bind_ok_iff.mpr ⟨ipb, hip, encodeHead_bind.mpr
        ⟨hop, bind_ok_iff.mpr ⟨_, henc, ?_⟩⟩⟩⟩
      exact congrArg _ hd.symm
    · rintro ⟨-, h⟩
      obtain ⟨ipb, hip, h⟩ := bind_ok_iff.mp h
      obtain ⟨hop, h⟩ := encodeHead_bind.mp h
      obtain ⟨t, ht, h⟩ := bind_ok_iff.mp h
      obtain rfl := Except.ok.inj h
      refine ⟨mtype, ?_, hop, rfl, tryExcept_some_iff.mpr (bind_ok_iff.mpr
        ⟨(game_port, ip, cport, raw), decodeTriple_ok_iff.mpr ⟨ipb, hip, ht⟩, rfl⟩), rfl⟩
      have hl := six_triple ht
      rw [List.length_append]
      omega
  total d := datagram_total (by decide) (fun _ => tryExcept_total
    (raises_bind (raises_decodeTriple d 4) fun _ _ => raises_ok _)) d

theorem pdat_exact : Kind.pdat.IsExact where
  writes {x} h := by
    obtain ⟨dest, game_port, ip, cport, raw⟩ := x
    obtain ⟨⟨hdest, hfit⟩, htext⟩ := h
    have hdfit : Fits [I] (dest, ()) := ⟨hdest, trivial⟩
    obtain ⟨ipb, hip, hg, hc⟩ := textFits_iff.mp ⟨hfit, htext⟩
    exact ⟨_, bind_ok_iff.mpr ⟨ipb, hip, encodeHead_bind.mpr ⟨by decide, bind_ok_iff.mpr
      ⟨_, (packMasked_ok_iff hdfit).mpr rfl, bind_ok_iff.mpr
        ⟨_, encodeTriple_ok_iff.mpr ⟨hg, hc, rfl⟩, rfl⟩⟩⟩⟩⟩
  reads {d x} := by
    obtain ⟨dest, game_port, ip, cport, raw⟩ := x
    refine (datagram_iff (by decide)).trans ⟨?_, ?_⟩
    · rintro ⟨op, -, hop, ho, h, hd⟩
      obtain rfl := of_decide_eq_true ho
      rw [tryExcept_some_iff] at h
      obtain ⟨⟨dest', _⟩, hdest, h⟩ := bind_ok_iff.mp h
      obtain ⟨⟨game_port', ip', cport', raw'⟩, htri, h⟩ := bind_ok_iff.mp h
      have he := Option.some.inj (Except.ok.inj h)
      simp only [Prod.mk.injEq] at he
      obtain ⟨rfl, rfl, rfl, rfl, rfl⟩ := he
      obtain ⟨hdfit, hdest⟩ := (structUnpack_at rfl).mp hdest
      obtain ⟨ipb, hip, henc⟩ := decodeTriple_ok_iff.mp htri
      obtain ⟨hg, hc, -⟩ := encodeTriple_ok_iff.mp henc
      obtain ⟨hfit, htext⟩ := textFits_iff.mpr ⟨ipb, hip, hg, hc⟩
      refine ⟨⟨⟨hdfit.1, hfit⟩, htext⟩, bind_ok_iff.mpr ⟨ipb, hip, encodeHead_bind.mpr
        ⟨hop, bind_ok_iff.mpr ⟨_, (packMasked_ok_iff hdfit).mpr rfl, bind_ok_iff.mpr ⟨_, henc, ?_⟩⟩⟩⟩⟩
      refine congrArg _ (Eq.trans ?_ hd.symm)
      rw [List.append_assoc]
      exact congrArg _ hdest.symm
    · rintro ⟨⟨⟨hdest, -⟩, -⟩, h⟩
      have hdfit : Fits [I] (dest, ()) := ⟨hdest, trivial⟩
      obtain ⟨ipb, hip, h⟩ := bind_ok_iff.mp h
      obtain ⟨hop, h⟩ := encodeHead_bind.mp h
      obtain ⟨f, hf, h⟩ := bind_ok_iff.mp h
      obtain rfl := (packMasked_ok_iff hdfit).mp hf
      obtain ⟨t, ht, h⟩ := bind_ok_iff.mp h
      have h : UMAGIC ++ [UVER, UInt8.ofNat U_GAME_P2P.toNat] ++ (packs [I] (dest, ()) ++ t) = d := by
        rw [← List.append_assoc]
        exact Except.ok.inj h
      have h4 : d.drop 4 = packs [I] (dest, ()) ++ t := by
        rw [← h]
        rfl
      have h8 : d.drop 8 = t := drop_of h4 rfl
      rw [← h8] at ht
      refine ⟨U_GAME_P2P.toNat, ?_, hop, rfl, tryExcept_some_iff.mpr (bind_ok_iff.mpr
        ⟨(dest, ()), (structUnpack_at rfl).mpr ⟨hdfit, ?_⟩, bind_ok_iff.mpr
          ⟨(game_port, ip, cport, raw), decodeTriple_ok_iff.mpr ⟨ipb, hip, ht⟩, rfl⟩⟩), ?_⟩
      · have hl := six_triple ht
        rw [h8] at hl
        rw [← h, List.length_append, List.length_append, List.length_append, length_packs]
        show 10 ≤ 4 + (4 + _)
        omega
      · rw [h4, ← h8]
        rfl
      · rw [h4]
        exact h.symm
  total d := datagram_total (by decide) (fun _ => tryExcept_total
    (raises_bind (raises_orRaise (by decide) _) fun _ _ =>
      raises_bind (raises_decodeTriple d 8) fun _ _ => raises_ok _)) d

theorem icmp_exact : Kind.icmp.IsExact where
  writes {x} h := by
    obtain ⟨mtype, src, dest, iid, seq, data⟩ := x
    obtain ⟨⟨hm, hfit⟩, -⟩ := h
    have hop : mtype < 256 := by
      obtain rfl | rfl := hm <;> decide
    exact ⟨_, encodeHead_bind.mpr ⟨hop, bind_ok_iff.mpr ⟨_, (packMasked_ok_iff hfit).mpr rfl, rfl⟩⟩⟩
  reads {d x} := by
    obtain ⟨mtype, src, dest, iid, seq, data⟩ := x
    refine (datagram_iff (by decide)).trans ⟨?_, ?_⟩
    · rintro ⟨op, -, hop, ho, h, hd⟩
      rw [tryExcept_some_iff] at h
      obtain ⟨⟨src', dest', iid', seq', _⟩, hf, h⟩ := bind_ok_iff.mp h
      have he := Option.some.inj (Except.ok.inj h)
      simp only [Prod.mk.injEq] at he
      obtain ⟨rfl, rfl, rfl, rfl, rfl, rfl⟩ := he
      obtain ⟨hfit, hf⟩ := (structUnpack_at rfl).mp hf
      refine ⟨⟨⟨of_decide_eq_true ho, hfit⟩, trivial⟩, encodeHead_bind.mpr
        ⟨hop, bind_ok_iff.mpr ⟨_, (packMasked_ok_iff hfit).mpr rfl, ?_⟩⟩⟩
      refine congrArg _ (Eq.trans ?_ hd.symm)
      rw [List.append_assoc]
      exact congrArg _ hf.symm
    · rintro ⟨⟨⟨hm, hfit⟩, -⟩, h⟩
      obtain ⟨hop, h⟩ := encodeHead_bind.mp h
      obtain ⟨f, hf, h⟩ := bind_ok_iff.mp h
      obtain rfl := (packMasked_ok_iff hfit).mp hf
      have h : UMAGIC ++ [UVER, UInt8.ofNat mtype] ++
          (packs [I, I, H, H] (src, dest, iid, seq, ()) ++ data) = d := by
        rw [← List.append_assoc]
        exact Except.ok.inj h
      have h4 : d.drop 4 = packs [I, I, H, H] (src, dest, iid, seq, ()) ++ data := by
        rw [← h]
        rfl
      have h16 : d.drop 16 = data := drop_of h4 rfl
      refine ⟨mtype, ?_, hop, decide_eq_true hm, tryExcept_some_iff.mpr (bind_ok_iff.mpr
        ⟨(src, dest, iid, seq, ()), (structUnpack_at rfl).mpr ⟨hfit, ?_⟩, ?_⟩), ?_⟩
      · rw [← h, List.length_append, List.length_append, List.length_append, length_packs]
        show 16 ≤ 4 + (12 + _)
        omega
      · rw [h4, ← h16]
        rfl
      · rw [h16]
        rfl
      · rw [h4]
        exact h.symm
  total d := datagram_total (by decide) (fun _ => tryExcept_total
    (raises_bind (raises_orRaise (by decide) _) fun _ _ => raises_ok _)) d

theorem bcast_from_exact : Kind.bcast_from.IsExact where
  writes {x} h := ⟨_, bind_ok_iff.mpr ⟨_, (packMasked_ok_iff h.1).mpr rfl, rfl⟩⟩
  reads {d x} := by
    obtain ⟨node, dport, sport, raw⟩ := x
    refine tryExcept_some_iff.trans ⟨fun h => ?_, ?_⟩
    · split at h
      · cases h
      obtain ⟨⟨node', dport', sport', _⟩, hf, h⟩ := bind_ok_iff.mp h
      have he := Option.some.inj (Except.ok.inj h)
      simp only [Prod.mk.injEq] at he
      obtain ⟨rfl, rfl, rfl, rfl⟩ := he
      obtain ⟨hfit, hf⟩ := (structUnpack_at rfl).mp hf
      refine ⟨⟨hfit, trivial⟩, bind_ok_iff.mpr ⟨_, (packMasked_ok_iff hfit).mpr rfl, ?_⟩⟩
      exact congrArg _ hf.symm
    · rintro ⟨⟨hfit, -⟩, h⟩
      have hfit : Fits [I, H, H] (node, dport, sport, ()) := hfit
      obtain ⟨f, hf, h⟩ := bind_ok_iff.mp h
      obtain rfl := (packMasked_ok_iff hfit).mp hf
      have h0 : d.drop 0 = packs [I, H, H] (node, dport, sport, ()) ++ raw := (Except.ok.inj h).symm
      have h8 : d.drop 8 = raw := drop_of h0 rfl
      have hlen := length_packs [I, H, H] (node, dport, sport, ())
      have hl := congrArg List.length h0
      rw [List.drop_zero, List.length_append, hlen] at hl
      rw [if_neg (by rw [hl]; exact Nat.not_lt.mpr (Nat.le_add_right 8 _))]
      refine bind_ok_iff.mpr ⟨(node, dport, sport, ()), (structUnpack_at rfl).mpr ⟨hfit, ?_⟩, ?_⟩
      · rw [h0, ← h8]
        rfl
      · rw [h8]
        rfl
  total d := tryExcept_total (raises_ite (raises_ok _)
    (raises_bind (raises_orRaise (by decide) _) fun _ _ => raises_ok _))

theorem mapM_ok {α β : Type} {f : α → Py β} {g : α → β} {l : List α} (h : ∀ a ∈ l, f a = .ok (g a)) :
    l.mapM f = .ok (l.map g) := by
  induction l with
  | nil => rfl
  | cons a l ih =>
    rw [List.mapM_cons, h a List.mem_cons_self, ih fun b hb => h b (List.mem_cons_of_mem a hb)]
    rfl

theorem encode_assign_ok_iff {my_virt net bits : Nat} {members : List (Nat × Nat)} {d : Bytes}
    (hfit : Fits [I, I, B] (my_virt, net, bits, ()))
    (hrows : ∀ m ∈ members, Fits [I, I] (m.1, m.2, ())) :
    encode_assign my_virt net bits members = .ok d ↔ members.length < 2 ^ 16 ∧
      d = packs [I, I, B, H] (my_virt, net, bits, members.length, ()) ++ rowsBytes members := by
  obtain ⟨hv, hn, hb, -⟩ := hfit
  have hmask : (my_virt % 2 ^ 32, net % 2 ^ 32, bits % 2 ^ 8, members.length, ())
      = (my_virt, net, bits, members.length, ()) := by
    rw [Nat.mod_eq_of_lt (show my_virt < 2 ^ 32 from hv), Nat.mod_eq_of_lt (show net < 2 ^ 32 from hn),
      Nat.mod_eq_of_lt (show bits < 2 ^ 8 from hb)]
  have hmap : (members.mapM fun m => packMasked [I, I] (m.1, m.2, ()))
      = .ok (members.map fun m => packs [I, I] (m.1, m.2, ())) :=
    mapM_ok fun m hm => (packMasked_ok_iff (hrows m hm)).mpr rfl
  unfold encode_assign
  rw [bind_ok_iff, hmask, hmap]
  constructor
  · rintro ⟨hdr, hh, h⟩
    obtain ⟨⟨-, -, -, hl, -⟩, rfl⟩ := structPack_ok_iff.mp hh
    exact ⟨hl, (Except.ok.inj h).symm⟩
  · rintro ⟨hl, rfl⟩
    exact ⟨_, structPack_ok_iff.mpr ⟨⟨hv, hn, hb, hl, trivial⟩, rfl⟩, rfl⟩

theorem assign_exact : Kind.assign.IsExact where
  writes {x} h := ⟨_, (encode_assign_ok_iff h.1.1 h.1.2).mpr ⟨h.2, rfl⟩⟩
  reads {d x} := by
    obtain ⟨my_virt, net, bits, members⟩ := x
    refine tryExcept_some_iff.trans ⟨fun h => ?_, ?_⟩
    · split at h
      · cases h
      obtain ⟨⟨my_virt', net', bits', n, _⟩, hf, h⟩ := bind_ok_iff.mp h
      dsimp only at h
      split at h
      · cases h
      next hlen =>
        have hlen : d.length = ASSIGN_HDR_N + 8 * n := not_not.mp hlen
        obtain ⟨members', hm, h⟩ := bind_ok_iff.mp h
        have he := Option.some.inj (Except.ok.inj h)
        simp only [Prod.mk.injEq] at he
        obtain ⟨rfl, rfl, rfl, rfl⟩ := he
        obtain ⟨⟨hv, hn, hb, hl, -⟩, hf⟩ := (structUnpack_at rfl).mp hf
        obtain ⟨rfl, hrows, hbody⟩ := decodeRows_iff.mp hm
        have hend : d.drop (ASSIGN_HDR_N + 8 * members'.length) = [] :=
          List.drop_eq_nil_of_le (Nat.le_of_eq hlen)
        rw [hend, List.append_nil] at hbody
        have hfit : Fits [I, I, B] (my_virt', net', bits', ()) := ⟨hv, hn, hb, trivial⟩
        refine ⟨⟨⟨hfit, hrows⟩, hl⟩, (encode_assign_ok_iff hfit hrows).mpr ⟨hl, ?_⟩⟩
        exact hf.trans (congrArg _ hbody)
    · rintro ⟨⟨⟨hfit, hrows⟩, hl⟩, h⟩
      obtain ⟨-, he⟩ := (encode_assign_ok_iff hfit hrows).mp h
      obtain ⟨hv, hn, hb, -⟩ := hfit
      have hlen : d.length = ASSIGN_HDR_N + 8 * members.length := by
        rw [he, List.length_append, length_packs, length_rowsBytes]
        rfl
      have h0 : d.drop 0 = packs [I, I, B, H] (my_virt, net, bits, members.length, ())
          ++ rowsBytes members := he
      have h11 : d.drop ASSIGN_HDR_N = rowsBytes members ++ [] := by
        rw [List.append_nil]
        exact drop_of h0 rfl
      have hend : d.drop (ASSIGN_HDR_N + 8 * members.length) = [] :=
        List.drop_eq_nil_of_le (Nat.le_of_eq hlen)
      rw [if_neg (by omega)]
      refine bind_ok_iff.mpr ⟨(my_virt, net, bits, members.length, ()),
        (structUnpack_at rfl).mpr ⟨⟨hv, hn, hb, hl, trivial⟩, ?_⟩, ?_⟩
      · rw [List.append_nil] at h11
        exact h0.trans (congrArg _ h11.symm)
      · dsimp only
        rw [if_neg (not_not.mpr hlen)]
        refine bind_ok_iff.mpr ⟨members, decodeRows_iff.mpr ⟨rfl, hrows, ?_⟩, rfl⟩
        rw [h11, hend]
  total d := by
    apply tryExcept_total
    refine raises_ite (raises_ok _) ?_
    refine raises_bind (raises_orRaise (by decide) _) fun a _ => ?_
    refine raises_ite (raises_ok _) ?_
    exact raises_bind (raises_mapM (raises_decodeRow d <| ASSIGN_HDR_N + 8 * ·) _) fun _ _ =>
      raises_ok _

theorem Kind.exact (k : Kind) : k.IsExact := by
  cases k with
  | udp_game => exact udp_game_exact
  | pdat => exact pdat_exact
  | node => exact node_exact
  | ctl_node => exact ctl_node_exact
  | udp_node => exact udp_node_exact
  | assign => exact assign_exact
  | stopen => exact stopen_exact
  | streq => exact streq_exact
  | stjoin => exact stjoin_exact
  | stsid => exact stsid_exact
  | stfail => exact stfail_exact
  | icmp => exact icmp_exact
  | bcast_from => exact bcast_from_exact

/-- **the codecs are bijections on their formats**: a value comes back exactly if its numbers are in
their ranges and what is counted fits; what is accepted is written back as it was; and no byte string
makes a decoder raise -/
theorem codecs_bijective (k : Kind) :
    (∀ x, (∃ d, k.encode x = .ok d ∧ k.decode d = .ok (some x)) ↔ k.Fit x ∧ k.Sized x) ∧
    (∀ d x, k.decode d = .ok (some x) → k.encode x = .ok d) ∧
    ∀ d, ∃ o, k.decode d = .ok o :=
  ⟨k.exact.round_iff, fun _ _ => k.exact.exact, k.exact.total⟩

/-- the numbers are in range, and yet a surrogate has no UTF-8 form, and the length of a token of
65536 bytes does not fit in its field -/
theorem codec_unsized :
    (Kind.udp_game.Fit (1, 30777, [0xD800], 5001, []) ∧
      Kind.udp_game.encode (1, 30777, [0xD800], 5001, []) = .error .unicode) ∧
    Kind.node.Fit (List.replicate 65536 0, 7, 5000, 0) ∧
      Kind.node.encode (List.replicate 65536 0, 7, 5000, 0) = .error .struct := by
  have hlong : ¬ Fits [H] ((List.replicate 65536 (0 : UInt8)).length, ()) := by
    rw [List.length_replicate]
    decide
  have hpack : structPack [H] ((List.replicate 65536 (0 : UInt8)).length, ()) = .error .struct :=
    if_neg hlong
  have hfit : Fits [I, H, B] (7, 5000, 0, ()) := by decide
  refine ⟨⟨⟨by decide, by decide⟩, rfl⟩, hfit, ?_⟩
  show (structPack [H] _ >>= _) = _
  rw [hpack]
  rfl

end Py
end ShadowLan
