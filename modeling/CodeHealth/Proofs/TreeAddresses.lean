import CodeHealth.Script.Tree
import Mathlib.Data.List.Flatten
import Mathlib.Data.List.Range

/-!
Addresses of the nodes of a tree.

An address tells for each step down from the root which child is taken. In the order of addresses a
node comes before those below it and behind those below earlier siblings, which is the order in
which a tree is visited. What a visitor is told at a node was decided by the kinds of the nodes
above it, and these are the nodes on the way to the address.
-/

namespace CodeHealth.Proofs.TreeAddresses

open CodeHealth.Script CodeHealth.Text

/-! ### Nodes -/

def nodeAt? : Tree → List ℕ → Option Tree
  | t, [] => some t
  | .node _ _ cs, i :: a => cs[i]?.bind fun c => nodeAt? c a

/-- The kinds of the nodes on the way to an address, from the root down to the parent. -/
def kindsAbove : Tree → List ℕ → List Kind
  | _, [] => []
  | .node k _ cs, i :: a => k :: (cs[i]?.map fun c => kindsAbove c a).getD []

def replaceAt (s : Tree) : Tree → List ℕ → Tree
  | _, [] => s
  | .node k p cs, i :: a => .node k p (cs.modify i fun c => replaceAt s c a)

mutual

/-- The addresses of the nodes of a tree, parents first. -/
def addresses : Tree → List (List ℕ)
  | .node _ _ cs => [] :: addressesFrom 0 cs

/-- The addresses of the nodes of some siblings, the first of which has the given number. -/
def addressesFrom : ℕ → List Tree → List (List ℕ)
  | _, [] => []
  | i, t :: ts => (addresses t).map (i :: ·) ++ addressesFrom (i + 1) ts

end

lemma nodeInduction {P : Tree → Prop}
    (node : ∀ k p cs, (∀ c ∈ cs, P c) → P (.node k p cs)) (t : Tree) : P t :=
  @Tree.rec P (fun cs => ∀ c ∈ cs, P c) node (List.forall_mem_nil P)
    (fun _ _ hc hcs => List.forall_mem_cons.mpr ⟨hc, hcs⟩) t

section Nodes

variable {t s r : Tree} {a : List ℕ}

@[simp] lemma nodeAt?_nil (t : Tree) : nodeAt? t [] = some t := by cases t; rfl

@[simp] lemma kindsAbove_nil (t : Tree) : kindsAbove t [] = [] := by cases t; rfl

lemma nodeAt?_cons {k : Kind} {p : Position} {cs : List Tree} {i : ℕ} {c : Tree}
    (h : cs[i]? = some c) (a : List ℕ) : nodeAt? (.node k p cs) (i :: a) = nodeAt? c a := by
  rw [nodeAt?, h, Option.bind_some]

lemma kindsAbove_cons {k : Kind} {p : Position} {cs : List Tree} {i : ℕ} {c : Tree}
    (h : cs[i]? = some c) (a : List ℕ) :
    kindsAbove (.node k p cs) (i :: a) = k :: kindsAbove c a := by
  rw [kindsAbove, h, Option.map_some, Option.getD_some]

lemma exists_child {k : Kind} {p : Position} {cs : List Tree} {i : ℕ}
    (h : nodeAt? (.node k p cs) (i :: a) = some s) : ∃ c, cs[i]? = some c ∧ nodeAt? c a = some s :=
  Option.bind_eq_some_iff.mp h

lemma nodeAt?_append (h : nodeAt? t a = some s) (b : List ℕ) :
    nodeAt? t (a ++ b) = nodeAt? s b := by
  induction a generalizing t with
  | nil =>
    rw [nodeAt?_nil, Option.some.injEq] at h
    rw [h, List.nil_append]
  | cons i a ih =>
    obtain ⟨k, p, cs⟩ := t
    obtain ⟨c, hc, hs⟩ := exists_child h
    rw [List.cons_append, nodeAt?_cons hc, ih hs]

lemma kindsAbove_append (h : nodeAt? t a = some s) (b : List ℕ) :
    kindsAbove t (a ++ b) = kindsAbove t a ++ kindsAbove s b := by
  induction a generalizing t with
  | nil =>
    rw [nodeAt?_nil, Option.some.injEq] at h
    rw [h, kindsAbove_nil, List.nil_append, List.nil_append]
  | cons i a ih =>
    obtain ⟨k, p, cs⟩ := t
    obtain ⟨c, hc, hs⟩ := exists_child h
    rw [List.cons_append, kindsAbove_cons hc, kindsAbove_cons hc, ih hs, List.cons_append]

lemma length_kindsAbove (h : nodeAt? t a = some s) : (kindsAbove t a).length = a.length := by
  induction a generalizing t with
  | nil => rw [kindsAbove_nil]; rfl
  | cons i a ih =>
    obtain ⟨k, p, cs⟩ := t
    obtain ⟨c, hc, hs⟩ := exists_child h
    rw [kindsAbove_cons hc, List.length_cons, ih hs, List.length_cons]

/-! ### Replacement -/

@[simp] lemma replaceAt_nil (s t : Tree) : replaceAt s t [] = s := by cases t; rfl

lemma nodeAt?_replaceAt (h : nodeAt? t a = some s) : nodeAt? (replaceAt r t a) a = some r := by
  induction a generalizing t with
  | nil => rw [replaceAt_nil, nodeAt?_nil]
  | cons i a ih =>
    obtain ⟨k, p, cs⟩ := t
    obtain ⟨c, hc, hs⟩ := exists_child h
    rw [replaceAt, nodeAt?_cons (by rw [List.getElem?_modify_eq, hc]; rfl), ih hs]

lemma kindsAbove_replaceAt (h : nodeAt? t a = some s) :
    kindsAbove (replaceAt r t a) a = kindsAbove t a := by
  induction a generalizing t with
  | nil => rw [kindsAbove_nil, kindsAbove_nil]
  | cons i a ih =>
    obtain ⟨k, p, cs⟩ := t
    obtain ⟨c, hc, hs⟩ := exists_child h
    rw [replaceAt, kindsAbove_cons (by rw [List.getElem?_modify_eq, hc]; rfl), ih hs, kindsAbove_cons hc]

end Nodes

/-! ### The order of addresses -/

lemma addressesFrom_eq (i : ℕ) (cs : List Tree) :
    addressesFrom i cs = (cs.zipIdx i).flatMap fun child => (addresses child.1).map (child.2 :: ·) := by
  induction cs generalizing i with
  | nil => rfl
  | cons c cs ih => rw [addressesFrom, ih, List.zipIdx_cons, List.flatMap_cons]

lemma addresses_node (k : Kind) (p : Position) (cs : List Tree) :
    addresses (.node k p cs) =
      [] :: cs.zipIdx.flatMap fun child => (addresses child.1).map (child.2 :: ·) := by
  rw [addresses, addressesFrom_eq]

lemma mem_addresses {t : Tree} {a : List ℕ} : a ∈ addresses t ↔ ∃ s, nodeAt? t a = some s := by
  induction t using nodeInduction generalizing a with
  | node k p cs ih =>
    rw [addresses_node]
    cases a with
    | nil => simp
    | cons i a =>
      simp only [List.mem_cons, reduceCtorEq, false_or, List.mem_flatMap, List.mem_map,
        List.cons.injEq]
      constructor
      · rintro ⟨⟨c, j⟩, hchild, b, hb, rfl, rfl⟩
        have hc := List.mem_zipIdx_iff_getElem?.mp hchild
        obtain ⟨s, hs⟩ := (ih c (List.mem_of_getElem? hc)).mp hb
        exact ⟨s, (nodeAt?_cons hc _).trans hs⟩
      · rintro ⟨s, hs⟩
        obtain ⟨c, hc, hs⟩ := exists_child hs
        exact ⟨(c, i), List.mem_zipIdx_iff_getElem?.mpr hc, a,
          (ih c (List.mem_of_getElem? hc)).mpr ⟨s, hs⟩, rfl, rfl⟩

lemma pairwise_zipIdx (cs : List Tree) : cs.zipIdx.Pairwise fun c d => c.2 < d.2 := by
  rw [← List.pairwise_map (R := (· < ·)), List.zipIdx_map_snd]
  exact List.pairwise_lt_range'

/-- **Each address comes once, and they come in order.** -/
theorem pairwise_addresses (t : Tree) : (addresses t).Pairwise (· < ·) := by
  induction t using nodeInduction with
  | node k p cs ih =>
    rw [addresses_node, List.pairwise_cons]
    refine ⟨fun a ha => ?_, List.pairwise_flatMap.mpr ⟨fun child hchild => ?_, ?_⟩⟩
    · obtain ⟨child, -, ha⟩ := List.mem_flatMap.mp ha
      obtain ⟨b, -, rfl⟩ := List.mem_map.mp ha
      exact List.nil_lt_cons _ _
    · rw [List.pairwise_map]
      refine (ih child.1 (List.fst_mem_of_mem_zipIdx hchild)).imp fun {a b} hab => ?_
      exact List.cons_lt_cons_self.mpr hab
    · refine (pairwise_zipIdx cs).imp fun {c d} hcd a ha b hb => ?_
      obtain ⟨a, -, rfl⟩ := List.mem_map.mp ha
      obtain ⟨b, -, rfl⟩ := List.mem_map.mp hb
      exact List.cons_lt_cons_iff.mpr (.inl hcd)

/-! ### Visits -/

section Visits

variable {σ α : Type} (decide : σ → Kind → σ) (look : σ → Tree → List α)

lemma visitAll_eq_flatMap (above : σ) (ts : List Tree) :
    visitAll decide look above ts = ts.flatMap (visit decide look above) := by
  induction ts with
  | nil => rfl
  | cons t ts ih => rw [visitAll, ih, List.flatMap_cons]

/-- What a visitor gives at an address. -/
def lookAt (above : σ) (t : Tree) (a : List ℕ) : List α :=
  ((nodeAt? t a).map (look ((kindsAbove t a).foldl decide above))).getD []

lemma lookAt_nil (above : σ) (t : Tree) : lookAt decide look above t [] = look above t := by
  rw [lookAt, nodeAt?_nil, kindsAbove_nil]
  rfl

lemma lookAt_cons (above : σ) {k : Kind} {p : Position} {cs : List Tree} {i : ℕ} {c : Tree}
    (h : cs[i]? = some c) (a : List ℕ) :
    lookAt decide look above (.node k p cs) (i :: a) = lookAt decide look (decide above k) c a := by
  rw [lookAt, nodeAt?_cons h, kindsAbove_cons h, List.foldl_cons, lookAt]

/-- **A visitor comes to every address, in order**, and is told there what the nodes above it
decide. -/
theorem visit_eq_flatMap (above : σ) (t : Tree) :
    visit decide look above t = (addresses t).flatMap (lookAt decide look above t) := by
  induction t using nodeInduction generalizing above with
  | node k p cs ih =>
    have hchildren : cs.flatMap (visit decide look (decide above k)) =
        cs.zipIdx.flatMap fun child => visit decide look (decide above k) child.1 := by
      conv_lhs => rw [← List.zipIdx_map_fst 0 cs, List.flatMap_map]
    rw [visit, visitAll_eq_flatMap, hchildren, addresses_node, List.flatMap_cons, lookAt_nil,
      List.flatMap_assoc]
    congr 1
    refine List.flatMap_congr fun ⟨c, i⟩ hchild => ?_
    have hc := List.mem_zipIdx_iff_getElem?.mp hchild
    rw [ih c (List.mem_of_getElem? hc), List.flatMap_map]
    exact List.flatMap_congr fun a _ => (lookAt_cons decide look above hc a).symm

end Visits

end CodeHealth.Proofs.TreeAddresses
