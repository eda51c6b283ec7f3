import Mathlib.Data.Nat.Digits.Lemmas
import Mathlib.Tactic.IntervalCases
import ShadowLan.Lib.Blocks
import ShadowLan.Lib.Runs

/-!
# One node for a tree of processes

A process that starts the tunnel takes its node from `LAN_HOOK_NODE`, or makes one up, and writes it into
its own environment.  A child inherits that environment; where the program hands an explicit block to
`CreateProcess`, the hook puts the variable into a copy of the block.

* `dtEnvWithNode`   the block that the child is given;
* `startNode`       the part of `dt_start` that settles the node;
* `env_with_node`   what the child reads in its block;
* `nodeOf_setNode`  a node is read as it was written;
* `tree_iff`        all processes are of one node, exactly when every explicit block names it or is
                    completed, and no program writes another one into its environment.

Characters are numbers, so that the block of `CREATE_UNICODE_ENVIRONMENT` and the other one are the same
here.  A child that is not injected is no process of the tree.  `unsigned long` is that of Windows.
-/

namespace ShadowLan

/-- `"LAN_HOOK_NODE="` -/
def LAN_HOOK_NODE : List Nat := [76, 65, 78, 95, 72, 79, 79, 75, 95, 78, 79, 68, 69, 61]

/-- `"LAN_HOOK_SERVER="` -/
def LAN_HOOK_SERVER : List Nat := [76, 65, 78, 95, 72, 79, 79, 75, 95, 83, 69, 82, 86, 69, 82, 61]

def ULONG_MAX : Nat := 4294967295

namespace NodeTree

def upper (c : Nat) : Nat := if 97 ≤ c ∧ c ≤ 122 then c - 32 else c

/-- `_strnicmp` and `_wcsnicmp` with a name, which is in capitals -/
def named (name s : List Nat) : Bool := (s.take name.length).map upper == name

/-- the value of the first variable of that name -/
def getenv (name : List Nat) (env : List (List Nat)) : Option (List Nat) :=
  (env.find? (named name)).map (·.drop name.length)

/-- `%u` -/
def unsignedText (n : Nat) : List Nat :=
  if n = 0 then [48] else (Nat.digits 10 n).reverse.map (· + 48)

/-! ## `strtoul` with base 0 -/

def isSpace (c : Nat) : Bool := c == 32 || (9 ≤ c && c ≤ 13)

def unitVal (c : Nat) : Nat :=
  if 48 ≤ c ∧ c ≤ 57 then c - 48
  else if 97 ≤ c ∧ c ≤ 122 then c - 97 + 10
  else if 65 ≤ c ∧ c ≤ 90 then c - 65 + 10
  else 36

/-- the digits in front, as a number -/
def digitsIn (base : Nat) (s : List Nat) : Nat :=
  (s.takeWhile fun c => unitVal c < base).foldl (fun n c => n * base + unitVal c) 0

def magnitude : List Nat → Nat
  | 48 :: x :: s => if x = 120 ∨ x = 88 then digitsIn 16 s else digitsIn 8 (x :: s)
  | s => digitsIn 10 s

def strtoul (s : List Nat) : Nat :=
  match s.dropWhile isSpace with
  | 45 :: s =>
    if ULONG_MAX < magnitude s then ULONG_MAX else (ULONG_MAX + 1 - magnitude s) % (ULONG_MAX + 1)
  | 43 :: s => min (magnitude s) ULONG_MAX
  | s => min (magnitude s) ULONG_MAX

/-! ## processes -/

/-- the number that `dt_start` reads, 0 for none -/
def nodeOf (env : List (List Nat)) : Nat :=
  match getenv LAN_HOOK_NODE env with
  | some (c :: s) => strtoul (c :: s)
  | _ => 0

/-- `SetEnvironmentVariable` -/
def setNode (env : List (List Nat)) (g_node : Nat) : List (List Nat) :=
  env.filter (fun s => !named LAN_HOOK_NODE s) ++ [LAN_HOOK_NODE ++ unsignedText g_node]

/-- `g_direct`: a relay is given -/
def direct (env : List (List Nat)) : Bool := (getenv LAN_HOOK_SERVER env).any (· ≠ [])

/-- `dt_env_with_node`; `mem` is whether there is memory for the copy -/
def dtEnvWithNode (g_node : Nat) (mem : Bool) (p : List Nat) : List Nat :=
  if g_node = 0 then p
  else if (strings 0 p).any (named LAN_HOOK_NODE) then p
  else if mem then p.take (scanLen 0 p) ++ (LAN_HOOK_NODE ++ unsignedText g_node) ++ [0, 0]
  else p

/-- a block as a program hands it over, with what lies behind it -/
structure EnvBlock where
  strs : List (List Nat)
  tail : List Nat
  terminable : Terminable 0 strs

def EnvBlock.units (b : EnvBlock) : List Nat := block 0 b.strs ++ b.tail

end NodeTree

structure HookedProc where
  /-- 0 where the tunnel was not started -/
  g_node : Nat
  env : List (List Nat)

namespace NodeTree

/-- the node in `dt_start`, with the random number that is at hand -/
def startNode (env : List (List Nat)) (rand : Nat) : HookedProc :=
  if direct env then
    let g_node := if nodeOf env ≠ 0 then nodeOf env else (rand % 2 ^ 32) ||| 1
    ⟨g_node, setNode env g_node⟩
  else ⟨0, env⟩

inductive Act where
  /-- process `p` creates a child, with its own environment or an explicit block; the child is injected
  and starts, or it is not -/
  | launch (p : Nat) (env : Option EnvBlock) (mem hooked : Bool) (rand : Nat)
  /-- the program changes its environment -/
  | putenv (p : Nat) (env : List (List Nat))

/-- what the child is given by process `x` -/
def childEnv (x : HookedProc) (env : Option EnvBlock) (mem : Bool) : List (List Nat) :=
  match env with
  | none => x.env
  | some b => strings 0 (dtEnvWithNode x.g_node mem b.units)

/-- the processes with the hook, the first one first -/
def step (procs : List HookedProc) : Act → Option (List HookedProc)
  | .launch p env mem hooked rand => procs[p]?.map fun x =>
    if hooked then procs ++ [startNode (childEnv x env mem) rand] else procs
  | .putenv p env => procs[p]?.map fun x => procs.set p { x with env := env }

/-! ## one node -/

/-- a process is of the node: it reads it in its environment, and uses it if it has a tunnel -/
def Of (root : Nat) (x : HookedProc) : Prop := nodeOf x.env = root ∧ (x.g_node = 0 ∨ x.g_node = root)

/-- The condition on a step.  An explicit block names the node, or names none and is completed; failing
that, the child has to make up the very number.  A program leaves its node in the environment. -/
def Given (root : Nat) (procs : List HookedProc) : Act → Prop
  | .launch p (some b) mem true rand => ∀ x ∈ procs[p]?,
    (if b.strs.any (named LAN_HOOK_NODE) then nodeOf b.strs = root else x.g_node ≠ 0 ∧ mem = true) ∨
      direct b.strs = true ∧ nodeOf b.strs = 0 ∧ (rand % 2 ^ 32) ||| 1 = root
  | .putenv _ env => nodeOf env = root
  | _ => True

instance (root : Nat) (procs : List HookedProc) : (a : Act) → Decidable (Given root procs a)
  | .launch p (some _) _ true _ => inferInstanceAs (Decidable (∀ x ∈ procs[p]?, _))
  | .putenv .. => inferInstanceAs (Decidable (_ = _))
  | .launch _ none _ _ _ | .launch _ (some _) _ false _ => instDecidableTrue

end NodeTree

/-! ## numbers as text -/

namespace NodeTree

theorem unitVal_digit {d : Nat} (h : d < 10) : unitVal (d + 48) = d := by
  unfold unitVal
  rw [if_pos (by omega)]
  omega

theorem digitsIn_digits {ds : List Nat} (h : ∀ d ∈ ds, d < 10) :
    digitsIn 10 (ds.reverse.map (· + 48)) = Nat.ofDigits 10 ds := by
  have hall : ∀ c ∈ ds.reverse.map (· + 48), decide (unitVal c < 10) = true := by
    intro c hc
    obtain ⟨d, hd, rfl⟩ := List.mem_map.mp hc
    have hlt := h d (List.mem_reverse.mp hd)
    rw [unitVal_digit hlt]
    exact decide_eq_true hlt
  unfold digitsIn
  rw [List.takeWhile_eq_self_iff.mpr hall, List.foldl_map, List.foldl_reverse, Nat.ofDigits_eq_foldr]
  clear hall
  induction ds with
  | nil => rfl
  | cons d ds ih =>
    have hd := unitVal_digit (h d List.mem_cons_self)
    rw [List.foldr_cons, List.foldr_cons, ih fun x hx => h x (List.mem_cons_of_mem d hx), hd]
    simp only [Nat.cast_id]
    ring

theorem strtoul_unsignedText {n : Nat} (h0 : n ≠ 0) (hlt : n ≤ ULONG_MAX) :
    strtoul (unsignedText n) = n := by
  have hdig : ∀ d ∈ Nat.digits 10 n, d < 10 := fun d hd => Nat.digits_lt_base (by decide) hd
  have hval := digitsIn_digits hdig
  rw [Nat.ofDigits_digits] at hval
  have hne : Nat.digits 10 n ≠ [] := Nat.digits_ne_nil_iff_ne_zero.mpr h0
  -- the first character is a digit from 1 to 9: no space, no sign, and no prefix of another base
  have hfirst : ∃ d s, 0 < d ∧ d < 10 ∧ (Nat.digits 10 n).reverse.map (· + 48) = (d + 48) :: s := by
    refine ⟨(Nat.digits 10 n).getLast hne, ((Nat.digits 10 n).dropLast.reverse.map (· + 48)), ?_, ?_, ?_⟩
    · exact Nat.pos_of_ne_zero (Nat.getLast_digit_ne_zero 10 h0)
    · exact hdig _ (List.getLast_mem hne)
    · conv_lhs => rw [← List.dropLast_concat_getLast hne]
      rw [List.reverse_append, List.map_append]
      rfl
  unfold unsignedText
  rw [if_neg h0]
  obtain ⟨d, s, hpos, hd, heq⟩ := hfirst
  rw [heq] at hval ⊢
  have hmag : magnitude ((d + 48) :: s) = n := by
    interval_cases d <;> exact hval
  have hspace : ((d + 48) :: s).dropWhile isSpace = (d + 48) :: s := by
    interval_cases d <;> rfl
  unfold strtoul
  rw [hspace]
  have hmin : min (magnitude ((d + 48) :: s)) ULONG_MAX = n := by
    rw [hmag]
    exact Nat.min_eq_left hlt
  interval_cases d <;> exact hmin

theorem unsignedText_ne_nil {n : Nat} (h0 : n ≠ 0) : unsignedText n ≠ [] := by
  unfold unsignedText
  rw [if_neg h0]
  simpa using Nat.digits_ne_nil_iff_ne_zero.mpr h0

theorem not_mem_unsignedText (n : Nat) : 0 ∉ unsignedText n := by
  unfold unsignedText
  split
  · decide
  · simp

/-! ## the environment -/

theorem named_append (name s : List Nat) (h : name.map upper = name) : named name (name ++ s) = true := by
  unfold named
  rw [List.take_left, h]
  exact beq_self_eq_true name

theorem getenv_snoc {name s : List Nat} {env : List (List Nat)} (h : name.map upper = name)
    (hno : env.any (named name) = false) : getenv name (env ++ [name ++ s]) = some s := by
  have hnone : env.find? (named name) = none := by
    rw [List.find?_eq_none]
    exact fun x hx => Bool.eq_false_iff.mp (List.any_eq_false.mp hno x hx |> Bool.eq_false_iff.mpr)
  unfold getenv
  rw [List.find?_append, hnone, Option.none_or, List.find?_cons_of_pos (named_append name s h)]
  simp

/-- **A node is read as it was written.** -/
theorem nodeOf_snoc {n : Nat} {env : List (List Nat)} (h0 : n ≠ 0) (hlt : n ≤ ULONG_MAX)
    (hno : env.any (named LAN_HOOK_NODE) = false) :
    nodeOf (env ++ [LAN_HOOK_NODE ++ unsignedText n]) = n := by
  have htext := strtoul_unsignedText h0 hlt
  unfold nodeOf
  rw [getenv_snoc rfl hno]
  cases hu : unsignedText n with
  | nil => exact absurd hu (unsignedText_ne_nil h0)
  | cons c s =>
    rw [hu] at htext
    exact htext

theorem nodeOf_setNode {n : Nat} (env : List (List Nat)) (h0 : n ≠ 0) (hlt : n ≤ ULONG_MAX) :
    nodeOf (setNode env n) = n := by
  apply nodeOf_snoc h0 hlt
  rw [List.any_filter]
  simp

theorem nodeOf_le (env : List (List Nat)) : nodeOf env ≤ ULONG_MAX := by
  unfold nodeOf
  split
  · unfold strtoul
    split
    · split
      · exact Nat.le_refl _
      · exact Nat.le_of_lt_succ (Nat.mod_lt _ (Nat.succ_pos _))
    · exact Nat.min_le_right _ _
    · exact Nat.min_le_right _ _
  · exact Nat.zero_le _

theorem nodeOf_eq_zero {env : List (List Nat)} (hno : env.any (named LAN_HOOK_NODE) = false) :
    nodeOf env = 0 := by
  have hnone : getenv LAN_HOOK_NODE env = none := by
    unfold getenv
    rw [Option.map_eq_none_iff, List.find?_eq_none]
    exact fun x hx => Bool.eq_false_iff.mp (List.any_eq_false.mp hno x hx |> Bool.eq_false_iff.mpr)
  unfold nodeOf
  rw [hnone]

/-- **What the child reads in its block**: the strings of the program's block, and the node behind them
unless they name one. -/
theorem env_with_node (b : EnvBlock) {g_node : Nat} (h0 : g_node ≠ 0) :
    strings 0 (dtEnvWithNode g_node true b.units) =
      if b.strs.any (named LAN_HOOK_NODE) then b.strs
      else b.strs ++ [LAN_HOOK_NODE ++ unsignedText g_node] := by
  have hstrs : strings 0 b.units = b.strs := strings_block b.terminable b.tail
  unfold dtEnvWithNode
  rw [if_neg h0, hstrs]
  split
  · exact hstrs
  · rw [if_pos rfl]
    have htake : b.units.take (scanLen 0 b.units) = b.strs.flatMap fun s => s ++ [0] :=
      take_scanLen b.terminable b.tail
    have hnode : 0 ∉ LAN_HOOK_NODE ++ unsignedText g_node := by
      intro hm
      rcases List.mem_append.mp hm with hm | hm
      · exact absurd hm (by decide)
      · exact not_mem_unsignedText g_node hm
    have hsplit : [0, 0] = [0] ++ [(0 : Nat)] := rfl
    rw [htake, List.append_assoc, strings_append b.terminable, hsplit, ← List.append_assoc,
      strings_string (by simp [LAN_HOOK_NODE]) hnode]
    rfl

/-- without a node of the parent's, or without memory, the child gets the program's own block -/
theorem env_without_node (b : EnvBlock) {g_node : Nat} {mem : Bool}
    (h : b.strs.any (named LAN_HOOK_NODE) = true ∨ g_node = 0 ∨ mem = false) :
    strings 0 (dtEnvWithNode g_node mem b.units) = b.strs := by
  have hstrs : strings 0 b.units = b.strs := strings_block b.terminable b.tail
  unfold dtEnvWithNode
  rw [hstrs]
  rcases h with h | h | h
  · rw [if_pos h, ite_self]
    exact hstrs
  · rw [if_pos h]
    exact hstrs
  · rw [h, if_neg Bool.false_ne_true, ite_self, ite_self]
    exact hstrs

/-! ## a process that starts -/

theorem or_one_ne_zero (n : Nat) : n ||| 1 ≠ 0 := by
  intro h
  have hbit : (n ||| 1).testBit 0 = true := by simp
  rw [h] at hbit
  exact absurd hbit (by decide)

theorem madeUp_le (rand : Nat) : (rand % 2 ^ 32) ||| 1 ≤ ULONG_MAX :=
  Nat.le_of_lt_succ (Nat.or_lt_two_pow (Nat.mod_lt _ (by decide)) (by decide))

theorem of_startNode {root : Nat} (env : List (List Nat)) (rand : Nat) (h0 : root ≠ 0) :
    Of root (startNode env rand) ↔
      nodeOf env = root ∨ direct env = true ∧ nodeOf env = 0 ∧ (rand % 2 ^ 32) ||| 1 = root := by
  unfold startNode
  by_cases hd : direct env = true
  · rw [if_pos hd]
    by_cases hn : nodeOf env = 0
    · have hset := nodeOf_setNode env (or_one_ne_zero (rand % 2 ^ 32)) (madeUp_le rand)
      simp only [hn, ne_eq, not_true_eq_false, if_false, Of, hset, hd, true_and]
      have hroot : ¬ 0 = root := fun h => h0 h.symm
      simp [hroot]
    · have hset := nodeOf_setNode env hn (nodeOf_le env)
      simp only [hn, ne_eq, not_false_eq_true, if_true, Of, hset, false_and, and_false, or_false]
      simp
  · rw [if_neg hd]
    simp [Of, hd]

theorem root_of_start {env : List (List Nat)} (rand : Nat) (hd : direct env = true) :
    (startNode env rand).g_node ≠ 0 ∧ Of (startNode env rand).g_node (startNode env rand) := by
  have h0 : (startNode env rand).g_node ≠ 0 := by
    unfold startNode
    rw [if_pos hd]
    by_cases hn : nodeOf env = 0
    · simp [hn]
    · simp [hn]
  refine ⟨h0, (of_startNode env rand h0).mpr ?_⟩
  unfold startNode
  rw [if_pos hd]
  by_cases hn : nodeOf env = 0
  · exact Or.inr ⟨hd, hn, by simp [hn]⟩
  · exact Or.inl (by simp [hn])

/-- **A child with an explicit block** is of its parent's node exactly under the condition. -/
theorem of_child {root : Nat} {x : HookedProc} (hx : Of root x) (h0 : root ≠ 0) (b : EnvBlock) (mem : Bool)
    (rand : Nat) :
    Of root (startNode (childEnv x (some b) mem) rand) ↔
      (if b.strs.any (named LAN_HOOK_NODE) then nodeOf b.strs = root else x.g_node ≠ 0 ∧ mem = true) ∨
        direct b.strs = true ∧ nodeOf b.strs = 0 ∧ (rand % 2 ^ 32) ||| 1 = root := by
  have hchild : childEnv x (some b) mem = strings 0 (dtEnvWithNode x.g_node mem b.units) := rfl
  rw [of_startNode _ _ h0, hchild]
  by_cases hnamed : b.strs.any (named LAN_HOOK_NODE) = true
  · rw [if_pos hnamed]
    rw [env_without_node b (Or.inl hnamed)]
  · rw [if_neg hnamed]
    by_cases hgiven : x.g_node ≠ 0 ∧ mem = true
    · -- the block is completed
      obtain ⟨hg, rfl⟩ := hgiven
      have hroot : x.g_node = root := hx.2.resolve_left hg
      have hle : x.g_node ≤ ULONG_MAX := by
        rw [hroot, ← hx.1]
        exact nodeOf_le x.env
      have hread : nodeOf (strings 0 (dtEnvWithNode x.g_node true b.units)) = root := by
        rw [env_with_node b hg, if_neg hnamed, nodeOf_snoc hg hle (Bool.eq_false_iff.mpr hnamed), hroot]
      exact iff_of_true (Or.inl hread) (Or.inl ⟨hg, rfl⟩)
    · -- the program's block, which names no node
      have hplain : strings 0 (dtEnvWithNode x.g_node mem b.units) = b.strs := by
        apply env_without_node b
        rcases not_and_or.mp hgiven with hg | hm
        · exact Or.inr (Or.inl (not_not.mp hg))
        · exact Or.inr (Or.inr (Bool.eq_false_iff.mpr hm))
      have hnone : nodeOf b.strs = 0 := nodeOf_eq_zero (Bool.eq_false_iff.mpr hnamed)
      rw [hplain, hnone]
      exact ⟨fun h => Or.inr (h.resolve_left fun h => h0 h.symm),
        fun h => Or.inr (h.resolve_left hgiven)⟩

/-! ## runs -/

theorem of_snoc {root : Nat} {procs : List HookedProc} {y : HookedProc} (h : ∀ x ∈ procs, Of root x) :
    (∀ x ∈ procs ++ [y], Of root x) ↔ Of root y := by
  constructor
  · exact fun hall => hall y (List.mem_append_right _ List.mem_cons_self)
  · intro hy x hx
    rcases List.mem_append.mp hx with hx | hx
    · exact h x hx
    · rw [List.mem_singleton.mp hx]
      exact hy

/-- one step keeps the node of the tree exactly under the condition -/
theorem of_step {root : Nat} {procs procs' : List HookedProc} {a : Act} (h0 : root ≠ 0)
    (h : ∀ x ∈ procs, Of root x) (hl : step procs a = some procs') :
    (∀ x ∈ procs', Of root x) ↔ Given root procs a := by
  cases a with
  | launch p env mem hooked rand =>
    obtain ⟨x, hp, rfl⟩ := Option.map_eq_some_iff.mp hl
    have hx : Of root x := h x (List.mem_of_getElem? hp)
    cases hooked with
    | false => exact iff_of_true h (by cases env <;> trivial)
    | true =>
      rw [if_pos rfl, of_snoc h]
      cases env with
      | none => exact iff_of_true ((of_startNode _ _ h0).mpr (Or.inl hx.1)) trivial
      | some b =>
        rw [of_child hx h0]
        show _ ↔ ∀ x ∈ procs[p]?, _
        rw [hp]
        simp only [Option.mem_def, Option.some.injEq, forall_eq']
  | putenv p env =>
    obtain ⟨x, hp, rfl⟩ := Option.map_eq_some_iff.mp hl
    have hx : Of root x := h x (List.mem_of_getElem? hp)
    have hlt : p < procs.length := (List.getElem?_eq_some_iff.mp hp).1
    constructor
    · intro hall
      exact (hall { x with env := env } (List.mem_iff_getElem?.mpr ⟨p, by simp [hlt]⟩)).1
    · intro henv y hy
      rcases List.mem_or_eq_of_mem_set hy with hy | rfl
      · exact h y hy
      · exact ⟨henv, hx.2⟩

/-- **One node for the tree.**  Along a run that a process with a relay starts, all hooked processes read
its node in their environment and use no other, exactly when every step meets the condition. -/
theorem tree_iff {env0 : List (List Nat)} {rand0 : Nat} {tr : List (List HookedProc × Act)}
    {procs : List HookedProc} (hd : direct env0 = true)
    (h : Path step [startNode env0 rand0] tr procs) :
    (∀ u ∈ visited tr procs, ∀ x ∈ u, Of (startNode env0 rand0).g_node x) ↔
      ∀ x ∈ tr, Given (startNode env0 rand0).g_node x.1 x.2 := by
  obtain ⟨h0, hof⟩ := root_of_start rand0 hd
  refine h.all_iff_ok (I := fun u => ∀ x ∈ u, Of (startNode env0 rand0).g_node x) ?_ (fun _ hu => hu) ?_ ?_
  · intro x hx
    rw [List.mem_singleton.mp hx]
    exact hof
  · exact fun u a u' hu hok hl => (of_step h0 hu hl).mpr hok
  · exact fun u a u' hu hno hl hu' => hno ((of_step h0 hu hl).mp hu')

/-- a block of the program's own: the relay, and no node -/
def relayBlock : EnvBlock where
  strs := [LAN_HOOK_SERVER ++ [49]]
  tail := []
  terminable := by simp [Terminable, LAN_HOOK_SERVER]

/-- the copy of the block is made for the first child, and there is no memory for the second -/
def twoChildren : List Act :=
  [.launch 0 (some relayBlock) true true 8, .launch 0 (some relayBlock) false true 8]

theorem tree_twoChildren : ∃ procs, run step [startNode relayBlock.strs 4] twoChildren = some procs ∧
    procs.map (·.g_node) = [5, 5, 9] ∧
    ¬ ∀ u ∈ visited (trace step [startNode relayBlock.strs 4] twoChildren) procs,
      ∀ x ∈ u, Of (startNode relayBlock.strs 4).g_node x := by
  have hrun : (run step [startNode relayBlock.strs 4] twoChildren).map (fun u => u.map (·.g_node)) =
      some [5, 5, 9] := by decide +kernel
  obtain ⟨procs, hu, hnodes⟩ := Option.map_eq_some_iff.mp hrun
  have hlost : ¬ ∀ x ∈ trace step [startNode relayBlock.strs 4] twoChildren,
      Given (startNode relayBlock.strs 4).g_node x.1 x.2 := by decide +kernel
  have hd : direct relayBlock.strs = true := by decide
  exact ⟨procs, hu, hnodes, fun hall => hlost ((tree_iff hd (path_run hu)).mp hall)⟩

end NodeTree

end ShadowLan
