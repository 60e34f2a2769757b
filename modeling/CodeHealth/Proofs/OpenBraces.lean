import CodeHealth.Check.Hook
import Mathlib.Data.List.Sort

/-!
The braces that are open at an index of a text.

A closing brace closes the nearest brace that is open before it, and none if none is open. So a
brace is open until a brace behind it closes it, and the stack of a scan from left to right holds
the open braces, the innermost on top, however many closing braces come on the empty stack.
-/

namespace CodeHealth.Proofs.OpenBraces

open CodeHealth.Check

mutual

/-- The brace at an index is opened before another index, and no brace before that one closes
it. -/
def IsOpen (text : List Char) (e o : ℕ) : Prop :=
  o < e ∧ text[o]? = some '\x7b' ∧ ∀ c < e, ¬ Closes text c o
termination_by (e, 0)

/-- A closing brace closes the nearest brace that is open before it. -/
def Closes (text : List Char) (c o : ℕ) : Prop :=
  text[c]? = some '\x7d' ∧ IsOpen text c o ∧ ∀ o', o < o' → ¬ IsOpen text c o'
termination_by (c, 1)

end

section

variable {text : List Char} {e o : ℕ}

lemma isOpen_iff :
    IsOpen text e o ↔ o < e ∧ text[o]? = some '\x7b' ∧ ∀ c < e, ¬ Closes text c o := by
  rw [IsOpen]

lemma closes_iff {c : ℕ} :
    Closes text c o ↔
      text[c]? = some '\x7d' ∧ IsOpen text c o ∧ ∀ o', o < o' → ¬ IsOpen text c o' := by
  rw [Closes]

lemma IsOpen.lt (h : IsOpen text e o) : o < e := (isOpen_iff.mp h).1

lemma isOpen_succ :
    IsOpen text (e + 1) o ↔
      o = e ∧ text[e]? = some '\x7b' ∨ IsOpen text e o ∧ ¬ Closes text e o := by
  rw [isOpen_iff (e := e + 1), isOpen_iff (e := e)]
  constructor
  · rintro ⟨hlt, hopens, hfree⟩
    rcases Nat.eq_or_lt_of_le (Nat.le_of_lt_succ hlt) with rfl | hlt
    · exact .inl ⟨rfl, hopens⟩
    · exact .inr ⟨⟨hlt, hopens, fun c hc => hfree c (by omega)⟩, hfree e (by omega)⟩
  · rintro (⟨rfl, hopens⟩ | ⟨⟨hlt, hopens, hfree⟩, hlast⟩)
    · -- nothing before a brace closes it
      refine ⟨Nat.lt_succ_self _, hopens, fun c hc hcloses => ?_⟩
      have hlt := (closes_iff.mp hcloses).2.1.lt
      omega
    · refine ⟨by omega, hopens, fun c hc => ?_⟩
      rcases Nat.eq_or_lt_of_le (Nat.le_of_lt_succ hc) with rfl | hc
      · exact hlast
      · exact hfree c hc

lemma closes_iff_of_lt {c : ℕ} :
    Closes text c o ↔
      text[c]? = some '\x7d' ∧ IsOpen text c o ∧ ∀ o' < c, o < o' → ¬ IsOpen text c o' := by
  rw [closes_iff]
  refine and_congr_right' (and_congr_right' ⟨fun h o' _ => h o', fun h o' hlt hopen => ?_⟩)
  exact h o' hopen.lt hlt hopen

instance decidableIsOpen (text : List Char) : ∀ e o, Decidable (IsOpen text e o)
  | 0, _ => isFalse fun h => absurd h.lt (Nat.not_lt_zero _)
  | e + 1, o =>
    have := decidableIsOpen text e
    have : Decidable (Closes text e o) := decidable_of_iff _ closes_iff_of_lt.symm
    decidable_of_iff _ isOpen_succ.symm

instance (text : List Char) (c o : ℕ) : Decidable (Closes text c o) :=
  decidable_of_iff _ closes_iff_of_lt.symm

end

/-! ### The stack -/

/-- The open braces at an index of a text, the innermost first. -/
def openBraces (text : List Char) (e : ℕ) : List ℕ :=
  (List.range e).reverse.filter fun o => decide (IsOpen text e o)

section

variable {text : List Char} {e : ℕ}

@[simp] lemma mem_openBraces {o : ℕ} : o ∈ openBraces text e ↔ IsOpen text e o := by
  simpa [openBraces] using IsOpen.lt

lemma openBraces_eq_nil_iff : openBraces text e = [] ↔ ∀ o, ¬ IsOpen text e o := by
  simp only [List.eq_nil_iff_forall_not_mem, mem_openBraces]

lemma pairwise_openBraces (text : List Char) (e : ℕ) : (openBraces text e).Pairwise (· > ·) :=
  (List.pairwise_reverse.mpr List.pairwise_lt_range).filter _

lemma openBraces_succ (text : List Char) (e : ℕ) :
    openBraces text (e + 1) =
      (if text[e]? = some '\x7b' then [e] else []) ++
        (openBraces text e).filter fun o => decide (¬ Closes text e o) := by
  have hself : IsOpen text (e + 1) e ↔ text[e]? = some '\x7b' := by
    rw [isOpen_succ]
    simpa using fun h : IsOpen text e e => absurd h.lt (lt_irrefl e)
  have hbefore {o : ℕ} (ho : o < e) :
      IsOpen text (e + 1) o ↔ ¬ Closes text e o ∧ IsOpen text e o := by
    rw [isOpen_succ]
    simp [ho.ne, and_comm]
  rw [openBraces, openBraces, List.range_succ, List.reverse_append, List.reverse_singleton,
    List.singleton_append, List.filter_cons, List.filter_filter]
  have hrest : (List.range e).reverse.filter (fun o => decide (IsOpen text (e + 1) o)) =
      (List.range e).reverse.filter fun o =>
        decide (¬ Closes text e o) && decide (IsOpen text e o) := by
    refine List.filter_congr fun o ho => ?_
    rw [List.mem_reverse, List.mem_range] at ho
    simp [hbefore ho]
  rw [hrest]
  simp only [decide_eq_true_eq, hself]
  split_ifs <;> rfl

lemma openBraces_open (h : text[e]? = some '\x7b') :
    openBraces text (e + 1) = e :: openBraces text e := by
  have hkeep : ∀ o ∈ openBraces text e, decide (¬ Closes text e o) = true := by
    simp [closes_iff, h]
  rw [openBraces_succ, if_pos h, List.filter_eq_self.mpr hkeep, List.singleton_append]

lemma openBraces_close (h : text[e]? = some '\x7d') :
    openBraces text (e + 1) = (openBraces text e).tail := by
  have hcloses {o : ℕ} : Closes text e o ↔
      o ∈ openBraces text e ∧ ∀ o' ∈ openBraces text e, o' ≤ o := by
    simp only [closes_iff, h, true_and, mem_openBraces]
    refine and_congr_right' ⟨fun hlast o' ho' => ?_, fun hlast o' hlt ho' => ?_⟩
    · by_contra! hlt
      exact hlast o' hlt ho'
    · exact absurd (hlast o' ho') (by omega)
  rw [openBraces_succ, if_neg (by simp [h]), List.nil_append]
  cases hstack : openBraces text e with
  | nil => rfl
  | cons top rest =>
    have hpairwise := pairwise_openBraces text e
    rw [hstack, List.pairwise_cons] at hpairwise
    obtain ⟨htop, -⟩ := hpairwise
    have hgone : Closes text e top := by
      rw [hcloses, hstack]
      refine ⟨List.mem_cons_self, List.forall_mem_cons.mpr ⟨le_rfl, fun o ho => (htop o ho).le⟩⟩
    have hkeep : ∀ o ∈ rest, decide (¬ Closes text e o) = true := by
      intro o ho
      rw [decide_eq_true_eq, hcloses, hstack]
      intro hlast
      exact absurd (hlast.2 top List.mem_cons_self) (Nat.not_le.mpr (htop o ho))
    rw [List.filter_cons_of_neg (by simp [hgone]), List.filter_eq_self.mpr hkeep, List.tail_cons]

lemma openBraces_other (hopen : text[e]? ≠ some '\x7b') (hclose : text[e]? ≠ some '\x7d') :
    openBraces text (e + 1) = openBraces text e := by
  have hkeep : ∀ o ∈ openBraces text e, decide (¬ Closes text e o) = true := by
    simp [closes_iff, hclose]
  rw [openBraces_succ, if_neg hopen, List.filter_eq_self.mpr hkeep, List.nil_append]

/-- **The stack holds the open braces.** Each brace of a line stands in the stack for what the line
is, and a line takes the stack from the braces that are open at its start to those that are open at
its end. -/
lemma pushBraces_openBraces {label : ℕ → Frame} {frame : Frame} {line : List Char}
    (hline : line <+: text.drop e) (hlabel : ∀ k < line.length, label (e + k) = frame) :
    pushBraces frame ((openBraces text e).map label) line =
      (openBraces text (e + line.length)).map label := by
  induction line generalizing e with
  | nil => rfl
  | cons c line ih =>
    obtain ⟨rest, hrest⟩ := hline
    have hc : text[e]? = some c := by
      rw [← List.head?_drop, ← hrest]
      rfl
    have hmore : line <+: text.drop (e + 1) := by
      refine ⟨rest, ?_⟩
      rw [← List.drop_drop, ← hrest]
      rfl
    have hself : label e = frame := hlabel 0 (Nat.zero_lt_succ _)
    have hstep : (if c = '\x7b' then frame :: (openBraces text e).map label
        else if c = '\x7d' then ((openBraces text e).map label).tail
        else (openBraces text e).map label) = (openBraces text (e + 1)).map label := by
      split_ifs with hopen hclose
      · rw [openBraces_open (by rw [hc, hopen]), List.map_cons, hself]
      · rw [openBraces_close (by rw [hc, hclose]), List.map_tail]
      · rw [openBraces_other (by simpa [hc] using hopen) (by simpa [hc] using hclose)]
    have hih := ih hmore fun k hk => by
      rw [← hlabel (k + 1) (Nat.succ_lt_succ hk), Nat.add_assoc, Nat.add_comm 1]
    rw [pushBraces, List.foldl_cons, hstep, ← pushBraces, hih, List.length_cons, Nat.add_assoc,
      Nat.add_comm 1]

lemma inConditional_map {os : List ℕ} (hos : os.Pairwise (· > ·)) (label : ℕ → Frame) :
    inConditional (os.map label) = true ↔
      ∃ o ∈ os, label o = .conditional ∧ ∀ o' ∈ os, o < o' → label o' = .plain := by
  -- from the innermost brace outwards: a function ends the search, a plain block does not
  induction os with
  | nil => simp [inConditional]
  | cons top os ih =>
    obtain ⟨htop, hos⟩ := List.pairwise_cons.mp hos
    rw [List.map_cons]
    cases hframe : label top with
    | function =>
      refine ⟨nofun, ?_⟩
      rintro ⟨o, ho, hcond, hplain⟩
      rcases List.mem_cons.mp ho with rfl | ho
      · cases hcond.symm.trans hframe
      · cases (hplain top List.mem_cons_self (htop o ho)).symm.trans hframe
    | conditional =>
      refine ⟨fun _ => ⟨top, List.mem_cons_self, hframe, fun o' ho' hlt => ?_⟩, fun _ => rfl⟩
      rcases List.mem_cons.mp ho' with rfl | ho'
      · exact absurd hlt (lt_irrefl _)
      · exact absurd hlt (htop o' ho').le.not_gt
    | plain =>
      rw [inConditional, ih hos]
      constructor
      · rintro ⟨o, ho, hcond, hplain⟩
        refine ⟨o, List.mem_cons_of_mem top ho, hcond, ?_⟩
        exact List.forall_mem_cons.mpr ⟨fun _ => hframe, hplain⟩
      · rintro ⟨o, ho, hcond, hplain⟩
        rcases List.mem_cons.mp ho with rfl | ho
        · cases hcond.symm.trans hframe
        · exact ⟨o, ho, hcond, fun o' ho' => hplain o' (List.mem_cons_of_mem top ho')⟩

/-- A closing brace that closes nothing, and braces that stay open. -/
example : openBraces "\x7d\x7b\x7b\x7d\x7b\x7d\x7b".toList 7 = [6, 1] := by decide +kernel

end

end CodeHealth.Proofs.OpenBraces
