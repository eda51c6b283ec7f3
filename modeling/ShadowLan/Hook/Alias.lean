import ShadowLan.Lib.Rows

/-!
# The alias table

`g_ta` keeps, for every hooked bind, the port the app knows (`vport`) and the port the real stack
serves it on (`real`).  A row with `sock = 0` is free; a full table drops a new bind without a word.
-/

namespace ShadowLan

abbrev DT_TA_MAX : Nat := 64

def SOCK_STREAM : Nat := 1
def SOCK_DGRAM : Nat := 2

/-- one row of `g_ta` -/
structure TaRow where
  sock : Nat
  vport : Nat
  real : Nat
  proto : Nat
  /-- the app bound the virtual address itself -/
  bindv : Bool
  deriving DecidableEq

abbrev AliasTable := Fin DT_TA_MAX → TaRow

namespace AliasTable

/-- the table as the process starts -/
def blank : AliasTable := fun _ => ⟨0, 0, 0, 0, false⟩

variable (A : AliasTable)

/-- the row that `dt_alias_add` writes -/
def row (sock : Nat) : Option (Fin DT_TA_MAX) :=
  (first A fun r => r.sock == sock).or (first A fun r => r.sock == 0)

/-- `dt_alias_add`; the row keeps its `bindv` -/
def add (sock vport real proto : Nat) : AliasTable :=
  match A.row sock with
  | some i => Function.update A i
      { A i with sock := sock, vport := vport, real := real, proto := proto % 256 }
  | none => A

/-- `dt_alias_vport`; `none` is its -1 -/
def vport (sock : Nat) : Option Nat :=
  (first A fun r => r.sock == sock && 0 < r.vport).map fun i => (A i).vport

/-- `dt_alias_real`; `none` is its 0.  A row whose socket is gone has `real = 0`. -/
def real (vport proto : Nat) : Option Nat :=
  (first A fun r => r.vport == vport && 0 < r.real && (proto == 0 || r.proto == proto)).map
    fun i => (A i).real

/-- `dt_alias_vport_by_real`; `none` is its 0 -/
def vportByReal (realport proto : Nat) : Option Nat :=
  (first A fun r => r.sock != 0 && 0 < r.vport && r.real == realport &&
    (proto == 0 || r.proto == proto)).map fun i => (A i).vport

/-- `dt_alias_bindv` -/
def bindv (sock : Nat) : AliasTable :=
  match first A fun r => r.sock == sock with
  | some i => Function.update A i { A i with bindv := true }
  | none => A

/-- `dt_alias_is_bindv` -/
def isBindv (sock : Nat) : Bool :=
  (first A fun r => r.sock == sock).elim false fun i => (A i).bindv

/-- `dt_alias_drop` -/
def drop (sock : Nat) : AliasTable := fun i =>
  if (A i).sock = sock then { A i with sock := 0, vport := 0, real := 0 } else A i

theorem vport_pos {sock p : Nat} (h : A.vport sock = some p) : 0 < p := by
  obtain ⟨i, hi, e⟩ := Option.map_eq_some_iff.mp h
  have hrow := first_mem hi
  simp only [Bool.and_eq_true, decide_eq_true_eq] at hrow
  rw [← e]
  exact hrow.2

/-- a port that the table presents is one it was told -/
theorem vport_lt {sock p b : Nat} (hA : ∀ i, (A i).vport < b) (h : A.vport sock = some p) :
    p < b := by
  obtain ⟨i, -, e⟩ := Option.map_eq_some_iff.mp h
  rw [← e]
  exact hA i

theorem add_lt {sock vport real proto b : Nat} (hA : ∀ i, (A i).vport < b) (hv : vport < b)
    (i : Fin DT_TA_MAX) : (A.add sock vport real proto i).vport < b := by
  unfold add
  cases A.row sock with
  | none => exact hA i
  | some j =>
    dsimp only
    by_cases hj : i = j
    · rw [hj, Function.update_self]
      exact hv
    · rw [Function.update_of_ne hj]
      exact hA i

theorem drop_lt {sock b : Nat} (hA : ∀ i, (A i).vport < b) (i : Fin DT_TA_MAX) :
    (A.drop sock i).vport < b := by
  have hi := hA i
  unfold drop
  split
  · exact Nat.lt_of_le_of_lt (Nat.zero_le _) hi
  · exact hi

end AliasTable

end ShadowLan
