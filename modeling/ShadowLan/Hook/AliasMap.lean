import ShadowLan.Hook.Bind

/-!
# The alias table as a map

What the alias table should be: a map from sockets, which forgets a socket that is dropped and starts
a new one afresh.  The searches by port go through its places in order, and a new socket takes the
first empty one.  The table recycles its rows field by field, and nothing ever clears `bindv`.

* `RefMap`               the map;
* `AliasRun.step`        both go on side by side, and `own` keeps what each socket was told itself;
* `AliasRun.Faithful`    every answer of the table is the map's, and `getsockname` follows `own`;
* `AliasRun.FreshRow`    the condition on a step: a socket is added to a row without `bindv`;
* `alias_map_iff`        a run is faithful all along exactly when its steps are such.
-/

namespace ShadowLan

/-- what the hook presents of a socket -/
structure Shown where
  vport : Nat
  real : Nat
  proto : Nat
  bindv : Bool
  deriving DecidableEq

/-- a map from sockets with room for `DT_TA_MAX` -/
abbrev RefMap := Fin DT_TA_MAX → Option (Nat × Shown)

namespace RefMap
variable (m : RefMap)

def find (sock : Nat) : Option (Fin DT_TA_MAX) := first m fun e => e.any fun x => x.1 == sock

def get (sock : Nat) : Option Shown := (m.find sock).bind fun i => (m i).map Prod.snd

/-- the place of the socket, or the first empty one -/
def place (sock : Nat) : Option (Fin DT_TA_MAX) := (m.find sock).or (first m Option.isNone)

/-- a fresh entry -/
def add (sock vport real proto : Nat) : RefMap :=
  match m.place sock with
  | some i => Function.update m i (some (sock, ⟨vport, real, proto % 256, false⟩))
  | none => m

def bindv (sock : Nat) : RefMap :=
  match m.find sock with
  | some i => Function.update m i ((m i).map fun e => (e.1, { e.2 with bindv := true }))
  | none => m

/-- everything about the socket is forgotten -/
def drop (sock : Nat) : RefMap := fun i => if (m i).any (fun x => x.1 == sock) then none else m i

def vport (sock : Nat) : Option Nat :=
  (m.get sock).bind fun x => if 0 < x.vport then some x.vport else none

def isBindv (sock : Nat) : Bool := (m.get sock).any Shown.bindv

def real (vport proto : Nat) : Option Nat :=
  (first m fun e => e.any fun x =>
    x.2.vport == vport && 0 < x.2.real && (proto == 0 || x.2.proto == proto)).bind
      fun i => (m i).map fun e => e.2.real

def vportByReal (realport proto : Nat) : Option Nat :=
  (first m fun e => e.any fun x =>
    0 < x.2.vport && x.2.real == realport && (proto == 0 || x.2.proto == proto)).bind
      fun i => (m i).map fun e => e.2.vport

end RefMap

/-- `getsockname` of a socket that was not accepted, the kernel saying `sa` -/
def AliasTable.getsockname (A : AliasTable) (g_myvirt sock : Nat) (sa : SockaddrIn) : SockaddrIn :=
  match A.vport sock with
  | some vp =>
    ⟨if A.isBindv sock && g_myvirt != 0 && sa.addr == INADDR_ANY then g_myvirt else sa.addr, vp⟩
  | none => sa

/-- what the app should see of a socket that was told `x` -/
def Shown.name (g_myvirt : Nat) (sa : SockaddrIn) : Option Shown → SockaddrIn
  | some x =>
    if 0 < x.vport then
      ⟨if x.bindv && g_myvirt != 0 && sa.addr == INADDR_ANY then g_myvirt else sa.addr, x.vport⟩
    else sa
  | none => sa

inductive AliasAct where
  | add (sock vport real proto : Nat)
  | bindv (sock : Nat)
  | drop (sock : Nat)
  deriving DecidableEq

structure AliasRun where
  g_ta : AliasTable
  map : RefMap
  /-- what a socket was told by the steps that name it -/
  own : Nat → Option Shown

namespace AliasRun
variable (R : AliasRun)

def init : AliasRun := ⟨.blank, fun _ => none, fun _ => none⟩

/-- sockets are not 0, and no more than `DT_TA_MAX` of them are live -/
def step : AliasAct → Option AliasRun
  | .add sock vport real proto =>
    if sock ≠ 0 ∧ (R.map.place sock).isSome then
      some ⟨R.g_ta.add sock vport real proto, R.map.add sock vport real proto,
        Function.update R.own sock (some ⟨vport, real, proto % 256, false⟩)⟩
    else none
  | .bindv sock =>
    if sock ≠ 0 then
      some ⟨R.g_ta.bindv sock, R.map.bindv sock,
        Function.update R.own sock ((R.own sock).map fun x => { x with bindv := true })⟩
    else none
  | .drop sock =>
    if sock ≠ 0 then
      some ⟨R.g_ta.drop sock, R.map.drop sock, Function.update R.own sock none⟩
    else none

/-- the table answers as the map does, and a socket's name is a matter of its own binds -/
structure Faithful : Prop where
  vport : ∀ sock ≠ 0, R.g_ta.vport sock = R.map.vport sock
  isBindv : ∀ sock ≠ 0, R.g_ta.isBindv sock = R.map.isBindv sock
  real : ∀ vport proto, R.g_ta.real vport proto = R.map.real vport proto
  vportByReal : ∀ realport proto, R.g_ta.vportByReal realport proto =
    R.map.vportByReal realport proto
  name : ∀ sock ≠ 0, ∀ g_myvirt sa,
    R.g_ta.getsockname g_myvirt sock sa = Shown.name g_myvirt sa (R.own sock)

/-- a row that a socket is added to has no `bindv` set -/
def FreshRow : AliasAct → Prop
  | .add sock _ _ _ => ((R.g_ta.row sock).all fun i => !(R.g_ta i).bindv) = true
  | _ => True

instance (a : AliasAct) : Decidable (R.FreshRow a) := by
  unfold FreshRow
  split <;> infer_instance

end AliasRun

namespace AliasTable
variable {A : AliasTable}

/-! ## the table read as a map -/

/-- what the rows say -/
def shown (A : AliasTable) : RefMap := fun i =>
  if (A i).sock = 0 then none
  else some ((A i).sock, ⟨(A i).vport, (A i).real, (A i).proto, (A i).bindv⟩)

/-- a free row says nothing, and a socket has one row -/
structure Tidy (A : AliasTable) : Prop where
  free : ∀ i, (A i).sock = 0 → (A i).vport = 0 ∧ (A i).real = 0
  unique : ∀ i j, (A i).sock = (A j).sock → (A i).sock ≠ 0 → i = j

theorem shown_free {i : Fin DT_TA_MAX} (h : (A i).sock = 0) : A.shown i = none := if_pos h

theorem shown_used {i : Fin DT_TA_MAX} (h : (A i).sock ≠ 0) : A.shown i =
    some ((A i).sock, ⟨(A i).vport, (A i).real, (A i).proto, (A i).bindv⟩) := if_neg h

theorem shown_any (A : AliasTable) {sock : Nat} (hs : sock ≠ 0) (i : Fin DT_TA_MAX) :
    ((A.shown i).any fun x => x.1 == sock) = ((A i).sock == sock) := by
  by_cases h : (A i).sock = 0
  · rw [shown_free h, h]
    simpa using hs.symm
  · rw [shown_used h]
    rfl

theorem find_shown (A : AliasTable) {sock : Nat} (hs : sock ≠ 0) :
    A.shown.find sock = first A fun r => r.sock == sock :=
  first_congr fun i => shown_any A hs i

theorem place_shown (A : AliasTable) {sock : Nat} (hs : sock ≠ 0) :
    A.shown.place sock = A.row sock := by
  have hfree : first A.shown Option.isNone = first A fun r => r.sock == 0 := by
    refine first_congr fun i => ?_
    by_cases h : (A i).sock = 0
    · rw [shown_free h, h]
      rfl
    · rw [shown_used h]
      simpa using h
  unfold RefMap.place row
  rw [find_shown A hs, hfree]

theorem sock_of_find {sock : Nat} {i : Fin DT_TA_MAX}
    (h : (first A fun r => r.sock == sock) = some i) : (A i).sock = sock := by simpa using first_mem h

theorem get_shown (A : AliasTable) {sock : Nat} (hs : sock ≠ 0) : A.shown.get sock =
    (first A fun r => r.sock == sock).map
      fun i => ⟨(A i).vport, (A i).real, (A i).proto, (A i).bindv⟩ := by
  unfold RefMap.get
  rw [find_shown A hs]
  cases hf : first A fun r => r.sock == sock with
  | none => rfl
  | some i =>
    have hi : (A i).sock ≠ 0 := by
      rw [sock_of_find hf]
      exact hs
    rw [Option.bind_some, shown_used hi]
    rfl

theorem isBindv_shown (A : AliasTable) {sock : Nat} (hs : sock ≠ 0) :
    A.isBindv sock = A.shown.isBindv sock := by
  unfold isBindv RefMap.isBindv
  rw [get_shown A hs]
  cases first A fun r => r.sock == sock <;> rfl

theorem Tidy.vport_shown (h : A.Tidy) {sock : Nat} (hs : sock ≠ 0) :
    A.vport sock = A.shown.vport sock := by
  unfold vport RefMap.vport
  rw [get_shown A hs]
  cases hf : first A fun r => r.sock == sock with
  | none =>
    have hnone : (first A fun r => r.sock == sock && 0 < r.vport) = none :=
      first_eq_none_iff.mpr fun i => by rw [first_eq_none_iff.mp hf i, Bool.false_and]
    rw [hnone]
    rfl
  | some i =>
    have hi := sock_of_find hf
    by_cases hv : 0 < (A i).vport
    · obtain ⟨j, -, hj⟩ := first_isSome (T := A) (p := fun r => r.sock == sock && 0 < r.vport)
        (i := i) (by simp [hi, hv])
      have hji : j = i := by
        have hrow := first_mem hj
        have hsj : (A j).sock = sock := by simpa using (Bool.and_eq_true_iff.mp hrow).1
        exact h.unique j i (hsj.trans hi.symm) (by rw [hsj]; exact hs)
      rw [hj, hji]
      exact (if_pos hv).symm
    · have hnone : (first A fun r => r.sock == sock && 0 < r.vport) = none := by
        refine first_eq_none_iff.mpr fun j => Bool.eq_false_iff.mpr fun hj => ?_
        obtain ⟨h1, h2⟩ := Bool.and_eq_true_iff.mp hj
        have hsj : (A j).sock = sock := by simpa using h1
        rw [h.unique j i (hsj.trans hi.symm) (by rw [hsj]; exact hs)] at h2
        exact hv (of_decide_eq_true h2)
      rw [hnone]
      exact (if_neg hv).symm

theorem Tidy.real_shown (h : A.Tidy) (vport proto : Nat) :
    A.real vport proto = A.shown.real vport proto := by
  have hfirst : (first A.shown fun e => e.any fun x =>
      x.2.vport == vport && 0 < x.2.real && (proto == 0 || x.2.proto == proto)) =
        first A fun r => r.vport == vport && 0 < r.real && (proto == 0 || r.proto == proto) := by
    refine first_congr fun i => ?_
    by_cases hi : (A i).sock = 0
    · rw [shown_free hi, (h.free i hi).2]
      simp
    · rw [shown_used hi]
      rfl
  unfold real RefMap.real
  rw [hfirst]
  cases hf : first A fun r => r.vport == vport && 0 < r.real && (proto == 0 || r.proto == proto) with
  | none => rfl
  | some i =>
    have hrow := first_mem hf
    have hpos : 0 < (A i).real := by
      simp only [Bool.and_eq_true, decide_eq_true_eq] at hrow
      exact hrow.1.2
    have hi : (A i).sock ≠ 0 := fun hi => absurd (h.free i hi).2 hpos.ne'
    rw [Option.bind_some, shown_used hi]
    rfl

theorem vportByReal_shown (A : AliasTable) (realport proto : Nat) :
    A.vportByReal realport proto = A.shown.vportByReal realport proto := by
  have hfirst : (first A.shown fun e => e.any fun x =>
      0 < x.2.vport && x.2.real == realport && (proto == 0 || x.2.proto == proto)) =
        first A fun r => r.sock != 0 && 0 < r.vport && r.real == realport &&
          (proto == 0 || r.proto == proto) := by
    refine first_congr fun i => ?_
    by_cases hi : (A i).sock = 0
    · rw [shown_free hi, hi]
      simp
    · have hb : ((A i).sock != 0) = true := bne_iff_ne.mpr hi
      rw [shown_used hi, hb, Bool.true_and]
      rfl
  unfold vportByReal RefMap.vportByReal
  rw [hfirst]
  cases hf : first A fun r => r.sock != 0 && 0 < r.vport && r.real == realport &&
      (proto == 0 || r.proto == proto) with
  | none => rfl
  | some i =>
    have hrow := first_mem hf
    have hi : (A i).sock ≠ 0 := by
      simp only [Bool.and_eq_true, bne_iff_ne] at hrow
      exact hrow.1.1.1
    rw [Option.bind_some, shown_used hi]
    rfl

/-! ## rows come and go -/

theorem tidy_blank : Tidy blank where
  free _ _ := ⟨rfl, rfl⟩
  unique _ _ _ h := absurd rfl h

/-- the row is the socket's, or was free while the socket had none -/
theorem Tidy.row_other (h : A.Tidy) {sock : Nat} (hs : sock ≠ 0) {i j : Fin DT_TA_MAX}
    (hr : A.row sock = some i) (hj : j ≠ i) : (A j).sock ≠ sock := by
  intro hsj
  unfold row at hr
  cases hf : first A fun r => r.sock == sock with
  | none =>
    have hno := first_eq_none_iff.mp hf j
    rw [hsj] at hno
    simp at hno
  | some k =>
    rw [hf, Option.some_or] at hr
    have hki := Option.some.inj hr
    have hsk := sock_of_find hf
    exact hj ((h.unique j k (hsj.trans hsk.symm) (by rw [hsj]; exact hs)).trans hki)

theorem row_sock {sock : Nat} {i : Fin DT_TA_MAX} (hr : A.row sock = some i) :
    (A i).sock = sock ∨ (A i).sock = 0 := by
  rcases Option.or_eq_some_iff.mp hr with hf | ⟨-, hf⟩
  · exact Or.inl (sock_of_find hf)
  · exact Or.inr (by simpa using first_mem hf)

theorem add_row {sock vport real proto : Nat} {i : Fin DT_TA_MAX} (hr : A.row sock = some i) :
    A.add sock vport real proto = Function.update A i
      { A i with sock := sock, vport := vport, real := real, proto := proto % 256 } := by
  unfold add
  rw [hr]

/-- the entry is fresh but for `bindv`, which is the row's -/
theorem shown_add {sock vport real proto : Nat} (hs : sock ≠ 0) {i : Fin DT_TA_MAX}
    (hr : A.row sock = some i) : (A.add sock vport real proto).shown =
      Function.update A.shown i (some (sock, ⟨vport, real, proto % 256, (A i).bindv⟩)) := by
  rw [add_row hr]
  funext j
  unfold shown
  by_cases hj : j = i
  · subst hj
    rw [Function.update_self, Function.update_self, if_neg hs]
  · rw [Function.update_of_ne hj, Function.update_of_ne hj]

theorem Tidy.add (h : A.Tidy) {sock vport real proto : Nat} (hs : sock ≠ 0) {i : Fin DT_TA_MAX}
    (hr : A.row sock = some i) : (A.add sock vport real proto).Tidy := by
  rw [add_row hr]
  refine ⟨fun j hj => ?_, fun j k hjk hne => ?_⟩
  · by_cases hji : j = i
    · subst hji
      rw [Function.update_self] at hj
      exact absurd hj hs
    · rw [Function.update_of_ne hji] at hj ⊢
      exact h.free j hj
  · by_cases hji : j = i
    · by_cases hki : k = i
      · rw [hji, hki]
      · rw [hji, Function.update_self, Function.update_of_ne hki] at hjk
        exact absurd hjk.symm (h.row_other hs hr hki)
    · by_cases hki : k = i
      · rw [hki, Function.update_self, Function.update_of_ne hji] at hjk
        exact absurd hjk (h.row_other hs hr hji)
      · rw [Function.update_of_ne hji, Function.update_of_ne hki] at hjk
        rw [Function.update_of_ne hji] at hne
        exact h.unique j k hjk hne

/-- another flag in a row does not touch its socket -/
theorem bindv_sock (A : AliasTable) (sock : Nat) (j : Fin DT_TA_MAX) :
    ∃ b, A.bindv sock j = { A j with bindv := b } := by
  unfold bindv
  cases first A fun r => r.sock == sock with
  | none => exact ⟨(A j).bindv, rfl⟩
  | some i =>
    dsimp only
    by_cases hj : j = i
    · rw [hj, Function.update_self]
      exact ⟨true, rfl⟩
    · rw [Function.update_of_ne hj]
      exact ⟨(A j).bindv, rfl⟩

theorem Tidy.bindv (h : A.Tidy) (sock : Nat) : (A.bindv sock).Tidy := by
  refine ⟨fun j hj => ?_, fun j k hjk hne => ?_⟩
  · obtain ⟨b, hb⟩ := bindv_sock A sock j
    rw [hb] at hj ⊢
    exact h.free j hj
  · obtain ⟨b, hb⟩ := bindv_sock A sock j
    obtain ⟨c, hc⟩ := bindv_sock A sock k
    rw [hb, hc] at hjk
    rw [hb] at hne
    exact h.unique j k hjk hne

theorem shown_bindv (A : AliasTable) {sock : Nat} (hs : sock ≠ 0) :
    (A.bindv sock).shown = A.shown.bindv sock := by
  unfold bindv RefMap.bindv
  rw [find_shown A hs]
  cases hf : first A fun r => r.sock == sock with
  | none => rfl
  | some i =>
    have hi : (A i).sock ≠ 0 := by
      rw [sock_of_find hf]
      exact hs
    funext j
    dsimp only
    by_cases hj : j = i
    · subst hj
      rw [Function.update_self, shown_used hi]
      unfold shown
      rw [Function.update_self, if_neg hi]
      rfl
    · rw [Function.update_of_ne hj]
      unfold shown
      rw [Function.update_of_ne hj]

theorem drop_self {sock : Nat} {j : Fin DT_TA_MAX} (h : (A j).sock = sock) :
    A.drop sock j = { A j with sock := 0, vport := 0, real := 0 } := if_pos h

theorem drop_other {sock : Nat} {j : Fin DT_TA_MAX} (h : (A j).sock ≠ sock) :
    A.drop sock j = A j := if_neg h

theorem Tidy.drop (h : A.Tidy) (sock : Nat) : (A.drop sock).Tidy := by
  refine ⟨fun j hj => ?_, fun j k hjk hne => ?_⟩
  · by_cases hs : (A j).sock = sock
    · rw [drop_self hs]
      exact ⟨rfl, rfl⟩
    · rw [drop_other hs] at hj ⊢
      exact h.free j hj
  · by_cases hs : (A j).sock = sock
    · rw [drop_self hs] at hne
      exact absurd rfl hne
    · rw [drop_other hs] at hjk hne
      by_cases hk : (A k).sock = sock
      · rw [drop_self hk] at hjk
        exact absurd hjk hne
      · rw [drop_other hk] at hjk
        exact h.unique j k hjk hne

theorem shown_drop (A : AliasTable) {sock : Nat} (hs : sock ≠ 0) :
    (A.drop sock).shown = A.shown.drop sock := by
  funext j
  unfold RefMap.drop
  rw [shown_any A hs]
  by_cases hj : (A j).sock = sock
  · have h0 : (A.drop sock j).sock = 0 := by rw [drop_self hj]
    rw [shown_free h0, if_pos (beq_iff_eq.mpr hj)]
  · rw [if_neg (by rw [beq_iff_eq]; exact hj)]
    unfold shown
    rw [drop_other hj]

end AliasTable

namespace RefMap
variable {m m' : RefMap} {sock : Nat}

/-- what is said of other sockets does not matter -/
theorem get_congr (h : ∀ j, (m j).any (fun x => x.1 == sock) = true ∨
    (m' j).any (fun x => x.1 == sock) = true → m' j = m j) : m'.get sock = m.get sock := by
  have hfind : m'.find sock = m.find sock := by
    refine first_congr fun j => ?_
    by_cases hj : (m j).any (fun x => x.1 == sock) = true ∨ (m' j).any (fun x => x.1 == sock) = true
    · rw [h j hj]
    · rw [not_or, Bool.not_eq_true, Bool.not_eq_true] at hj
      rw [hj.1, hj.2]
  unfold get
  rw [hfind]
  cases hf : m.find sock with
  | none => rfl
  | some i =>
    have hi : (m i).any (fun x => x.1 == sock) = true := first_mem hf
    rw [Option.bind_some, Option.bind_some, h i (Or.inl hi)]

/-- the one place of the socket -/
theorem get_eq {i : Fin DT_TA_MAX} {x : Shown} (hi : m i = some (sock, x))
    (hu : ∀ j, (m j).any (fun x => x.1 == sock) = true → j = i) : m.get sock = some x := by
  obtain ⟨j, -, hj⟩ := first_isSome (T := m) (p := fun e => e.any fun x => x.1 == sock) (i := i)
    (by rw [hi]; simp)
  have hji := hu j (first_mem hj)
  unfold get find
  rw [hj, hji, Option.bind_some, hi]
  rfl

theorem get_none (h : ∀ j, (m j).any (fun x => x.1 == sock) = false) : m.get sock = none := by
  have hf : m.find sock = none := first_eq_none_iff.mpr h
  unfold get
  rw [hf]
  rfl

theorem get_drop_self (m : RefMap) (sock : Nat) : (m.drop sock).get sock = none := by
  refine get_none fun j => ?_
  unfold drop
  by_cases hj : (m j).any (fun x => x.1 == sock) = true
  · rw [if_pos hj]
    rfl
  · rw [if_neg hj]
    exact Bool.eq_false_iff.mpr hj

/-- two keys are not one -/
theorem not_any_both {e : Option (Nat × Shown)} {a b : Nat} (hab : a ≠ b)
    (ha : e.any (fun x => x.1 == a) = true) (hb : e.any (fun x => x.1 == b) = true) : False := by
  cases e with
  | none => exact absurd ha (by simp)
  | some x =>
    have h1 : x.1 = a := by simpa using ha
    have h2 : x.1 = b := by simpa using hb
    exact hab (h1.symm.trans h2)

theorem get_drop_other (m : RefMap) {s : Nat} (h : s ≠ sock) : (m.drop sock).get s = m.get s := by
  refine get_congr fun j hj => ?_
  unfold drop at hj ⊢
  by_cases hk : (m j).any (fun x => x.1 == sock) = true
  · rw [if_pos hk] at hj
    rcases hj with hj | hj
    · exact (not_any_both h hj hk).elim
    · exact absurd hj (by simp)
  · rw [if_neg hk]

/-- a place that is another socket's, or nobody's, is written for another socket -/
theorem get_update_other {i : Fin DT_TA_MAX} {e : Option (Nat × Shown)} {s : Nat}
    (hi : (m i).any (fun x => x.1 == s) = false) (he : e.any (fun x => x.1 == s) = false) :
    RefMap.get (Function.update m i e) s = m.get s := by
  refine get_congr fun j hj => ?_
  by_cases hji : j = i
  · subst hji
    rw [Function.update_self, hi, he] at hj
    exact absurd hj (by decide)
  · exact Function.update_of_ne hji ..

theorem get_bindv_self (m : RefMap) (sock : Nat) : (m.bindv sock).get sock =
    (m.get sock).map fun x => { x with bindv := true } := by
  unfold bindv
  cases hf : m.find sock with
  | none =>
    unfold get
    rw [hf]
    rfl
  | some i =>
    have hfind : find (Function.update m i
        ((m i).map fun e => (e.1, { e.2 with bindv := true }))) sock = some i := by
      have htest : ((m i).map fun e => (e.1, { e.2 with bindv := true })).any
          (fun x : Nat × Shown => x.1 == sock) = (m i).any fun x => x.1 == sock := by
        cases m i <;> rfl
      exact (first_update htest).trans hf
    dsimp only
    unfold get
    rw [hf, hfind, Option.bind_some, Option.bind_some, Function.update_self]
    cases m i <;> rfl

theorem get_bindv_other (m : RefMap) {s : Nat} (h : s ≠ sock) : (m.bindv sock).get s = m.get s := by
  unfold bindv
  cases hf : m.find sock with
  | none => rfl
  | some i =>
    have hi : (m i).any (fun x => x.1 == sock) = true := first_mem hf
    have hs : (m i).any (fun x => x.1 == s) = false :=
      Bool.eq_false_iff.mpr fun hx => not_any_both h hx hi
    refine get_update_other hs ?_
    cases hm : m i with
    | none => rfl
    | some x =>
      rw [hm] at hs
      exact hs

end RefMap

namespace AliasRun
variable {R R' : AliasRun}

/-- the map is what the rows say, and it says of a socket what that was told itself -/
structure Inv (R : AliasRun) : Prop where
  tidy : R.g_ta.Tidy
  map : R.map = R.g_ta.shown
  own : ∀ sock ≠ 0, R.map.get sock = R.own sock

theorem inv_init : init.Inv where
  tidy := AliasTable.tidy_blank
  map := by
    funext i
    exact (AliasTable.shown_free rfl).symm
  own _ _ := RefMap.get_none fun _ => rfl

theorem Inv.faithful (h : R.Inv) : R.Faithful where
  vport sock hs := by rw [h.tidy.vport_shown hs, h.map]
  isBindv sock hs := by rw [AliasTable.isBindv_shown _ hs, h.map]
  real v p := by rw [h.tidy.real_shown, h.map]
  vportByReal r p := by rw [AliasTable.vportByReal_shown, h.map]
  name sock hs g_myvirt sa := by
    have hv := h.tidy.vport_shown hs
    have hb := AliasTable.isBindv_shown R.g_ta hs
    rw [← h.map] at hv hb
    unfold RefMap.vport at hv
    unfold RefMap.isBindv at hb
    rw [h.own sock hs] at hv hb
    unfold AliasTable.getsockname
    rw [hv, hb]
    cases R.own sock with
    | none => rfl
    | some x =>
      by_cases hp : 0 < x.vport
      · simp only [Option.bind_some, if_pos hp, Shown.name, Option.any_some]
      · simp only [Option.bind_some, if_neg hp, Shown.name]

/-! ## steps -/

theorem step_add {sock vport real proto : Nat} (h : R.step (.add sock vport real proto) = some R') :
    sock ≠ 0 ∧ (R.map.place sock).isSome = true ∧
      R' = ⟨R.g_ta.add sock vport real proto, R.map.add sock vport real proto,
        Function.update R.own sock (some ⟨vport, real, proto % 256, false⟩)⟩ := by
  obtain ⟨hc, h⟩ := Option.ite_none_right_eq_some.mp h
  exact ⟨hc.1, hc.2, (Option.some.inj h).symm⟩

/-- the row that is written, and that it is the map's place -/
theorem Inv.row (h : R.Inv) {sock : Nat} (hs : sock ≠ 0) (hp : (R.map.place sock).isSome = true) :
    ∃ i, R.g_ta.row sock = some i ∧ R.map.place sock = some i := by
  obtain ⟨i, hi⟩ := Option.isSome_iff_exists.mp hp
  have hrow := AliasTable.place_shown R.g_ta hs
  rw [← h.map, hi] at hrow
  exact ⟨i, hrow.symm, hi⟩

theorem Inv.place_other (h : R.Inv) {sock : Nat} {i : Fin DT_TA_MAX}
    (hr : R.g_ta.row sock = some i) {s : Nat} (hne : s ≠ sock) (h0 : s ≠ 0) :
    (R.map i).any (fun x => x.1 == s) = false := by
  rw [h.map, AliasTable.shown_any _ h0]
  rcases AliasTable.row_sock hr with he | he
  · rw [he]
    exact beq_eq_false_iff_ne.mpr hne.symm
  · rw [he]
    exact beq_eq_false_iff_ne.mpr h0.symm

theorem get_add (h : R.Inv) {sock : Nat} (hs : sock ≠ 0) {i : Fin DT_TA_MAX}
    (hr : R.g_ta.row sock = some i) (x : Shown) :
    RefMap.get (Function.update R.map i (some (sock, x))) sock = some x := by
  refine RefMap.get_eq (i := i) (Function.update_self ..) fun j hj => ?_
  by_contra hji
  rw [Function.update_of_ne hji, h.map, AliasTable.shown_any _ hs] at hj
  exact h.tidy.row_other hs hr hji (beq_iff_eq.mp hj)

theorem freshRow_add {sock vport real proto : Nat} : R.FreshRow (.add sock vport real proto) ↔
    ((R.g_ta.row sock).all fun i => !(R.g_ta i).bindv) = true := Iff.rfl

theorem Inv.add (h : R.Inv) {sock vport real proto : Nat}
    (hok : R.FreshRow (.add sock vport real proto))
    (hst : R.step (.add sock vport real proto) = some R') : R'.Inv := by
  obtain ⟨hs, hp, rfl⟩ := step_add hst
  obtain ⟨i, hr, hi⟩ := h.row hs hp
  have hb : (R.g_ta i).bindv = false := by
    rw [freshRow_add, hr] at hok
    simpa using hok
  have hmap : R.map.add sock vport real proto =
      Function.update R.map i (some (sock, ⟨vport, real, proto % 256, false⟩)) := by
    unfold RefMap.add
    rw [hi]
  refine ⟨h.tidy.add hs hr, ?_, fun s h0 => ?_⟩
  · show R.map.add sock vport real proto = _
    rw [hmap, AliasTable.shown_add hs hr, hb, h.map]
  · show (R.map.add sock vport real proto).get s = Function.update R.own sock _ s
    rw [hmap]
    by_cases hne : s = sock
    · rw [hne, Function.update_self, get_add h hs hr]
    · rw [Function.update_of_ne hne, ← h.own s h0]
      exact RefMap.get_update_other (h.place_other hr hne h0)
        (by simpa using Ne.symm hne)

theorem Inv.step (h : R.Inv) {a : AliasAct} (hok : R.FreshRow a) (hst : R.step a = some R') :
    R'.Inv := by
  cases a with
  | add sock vport real proto => exact h.add hok hst
  | bindv sock =>
    obtain ⟨hs, he⟩ := Option.ite_none_right_eq_some.mp hst
    rw [← Option.some.inj he]
    refine ⟨h.tidy.bindv sock, ?_, fun s h0 => ?_⟩
    · show R.map.bindv sock = _
      rw [AliasTable.shown_bindv _ hs, h.map]
    · show (R.map.bindv sock).get s = Function.update R.own sock _ s
      by_cases hne : s = sock
      · rw [hne, Function.update_self, RefMap.get_bindv_self, h.own sock hs]
      · rw [Function.update_of_ne hne, RefMap.get_bindv_other _ hne, h.own s h0]
  | drop sock =>
    obtain ⟨hs, he⟩ := Option.ite_none_right_eq_some.mp hst
    rw [← Option.some.inj he]
    refine ⟨h.tidy.drop sock, ?_, fun s h0 => ?_⟩
    · show R.map.drop sock = _
      rw [AliasTable.shown_drop _ hs, h.map]
    · show (R.map.drop sock).get s = Function.update R.own sock _ s
      by_cases hne : s = sock
      · rw [hne, Function.update_self, RefMap.get_drop_self]
      · rw [Function.update_of_ne hne, RefMap.get_drop_other _ hne, h.own s h0]

/-- the flag that the row had before is the new socket's -/
theorem Inv.step_stale (h : R.Inv) {a : AliasAct} (hbad : ¬ R.FreshRow a)
    (hst : R.step a = some R') : ¬ R'.Faithful := by
  cases a with
  | add sock vport real proto =>
    obtain ⟨hs, hp, rfl⟩ := step_add hst
    obtain ⟨i, hr, hi⟩ := h.row hs hp
    have hb : (R.g_ta i).bindv = true := by
      rw [freshRow_add, hr] at hbad
      simpa using hbad
    have hold : (R.g_ta.add sock vport real proto).isBindv sock = true := by
      rw [AliasTable.isBindv_shown _ hs, AliasTable.shown_add hs hr, ← h.map]
      unfold RefMap.isBindv
      rw [get_add h hs hr]
      exact hb
    have hnew : (R.map.add sock vport real proto).isBindv sock = false := by
      unfold RefMap.isBindv RefMap.add
      rw [hi]
      dsimp only
      rw [get_add h hs hr]
      rfl
    intro hf
    have hsame := hf.isBindv sock hs
    rw [hold, hnew] at hsame
    cases hsame
  | bindv sock => exact absurd trivial hbad
  | drop sock => exact absurd trivial hbad

variable {tr : List (AliasRun × AliasAct)} {t : AliasRun}

/-- **The alias table is a map from sockets** all along a run, and the name of a socket is a matter
of its own binds, exactly when no socket is added to a row that has `bindv` set: one that was bound
to the virtual address, and has been given up or is added again. -/
theorem alias_map_iff (h : Path step init tr t) :
    (∀ R ∈ visited tr t, R.Faithful) ↔ ∀ x ∈ tr, x.1.FreshRow x.2 :=
  h.all_iff_ok inv_init (fun _ hI => hI.faithful) (fun _ _ _ hI hok hs => hI.step hok hs)
    fun _ _ _ hI hbad hs => hI.step_stale hbad hs

/-- two sockets, one bound to the virtual address; the other is closed and its row used again -/
def freshReuse : List AliasAct :=
  [.add 5 80 80 1, .bindv 5, .add 6 27015 40000 2, .drop 6, .add 7 8080 8080 1]

theorem alias_freshReuse : ∃ t, run step init freshReuse = some t ∧
    ∀ R ∈ visited (trace step init freshReuse) t, R.Faithful := by
  have hsome : (run step init freshReuse).isSome = true := by decide +kernel
  obtain ⟨t, ht⟩ := Option.isSome_iff_exists.mp hsome
  have hok : ∀ x ∈ trace step init freshReuse, x.1.FreshRow x.2 := by decide +kernel
  exact ⟨t, ht, (alias_map_iff (path_run ht)).mpr hok⟩

/-- a socket bound to the virtual address is closed, and the next one gets its row -/
def staleReuse : List AliasAct := [.add 5 80 80 1, .bindv 5, .drop 5, .add 6 8080 8080 1]

/-- `getsockname` of a socket that is bound to the wildcard address gives the virtual one -/
theorem staleReuse_name : ∃ t, run step init staleReuse = some t ∧
    t.own 6 = some ⟨8080, 8080, 1, false⟩ ∧
    t.g_ta.isBindv 6 = true ∧ t.map.isBindv 6 = false ∧
    t.g_ta.getsockname 0x0AC80001 6 ⟨INADDR_ANY, 8080⟩ = ⟨0x0AC80001, 8080⟩ ∧ ¬ t.Faithful := by
  have hsome : (run step init staleReuse).isSome = true := by decide +kernel
  obtain ⟨t, ht⟩ := Option.isSome_iff_exists.mp hsome
  have hend : ∀ t ∈ run step init staleReuse, t.own 6 = some ⟨8080, 8080, 1, false⟩ ∧
      t.g_ta.isBindv 6 = true ∧ t.map.isBindv 6 = false ∧
      t.g_ta.getsockname 0x0AC80001 6 ⟨INADDR_ANY, 8080⟩ = ⟨0x0AC80001, 8080⟩ := by
    decide +kernel
  obtain ⟨h1, h2, h3, h4⟩ := hend t ht
  refine ⟨t, ht, h1, h2, h3, h4, fun hf => ?_⟩
  have hsame := hf.isBindv 6 (by decide)
  rw [h2, h3] at hsame
  cases hsame

end AliasRun

end ShadowLan
