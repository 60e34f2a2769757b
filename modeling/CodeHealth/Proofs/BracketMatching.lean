import CodeHealth.Proofs.ByteScans
import Mathlib.Order.Bounds.Basic

/-!
The bracket that closes another, told by counts.

From an opening bracket on, more brackets of its kind are opened than closed, up to the first offset
at which as many are closed; the bracket that closes it stands there. So the stretches between
brackets of one kind lie apart or one inside the other.
-/

namespace CodeHealth.Proofs.BracketMatching

open CodeHealth.Text CodeHealth.Proofs.BracketCounts CodeHealth.Proofs.ByteScans
  CodeHealth.Proofs.Utf8Bytes

/-! ### A scan of bytes -/

section Scan

variable {opener closer : UInt8} {depth offset : ℕ} {bs : List UInt8} {found : Option ℕ}

/-- With `depth` brackets open before some bytes, one is still open behind them. -/
def StillOpen (opener closer : UInt8) (depth : ℕ) (bs : List UInt8) : Prop :=
  bs.count closer < bs.count opener + depth

/-- What a scan finds in bytes that start at an offset, with `depth` brackets open before them: the
first place at which as many are closed as were opened, or nothing if one stays open throughout. -/
inductive Finds (opener closer : UInt8) (depth offset : ℕ) (bs : List UInt8) : Option ℕ → Prop
  | closed {k : ℕ} : bs[k]? = some closer →
      (bs.take (k + 1)).count closer = (bs.take (k + 1)).count opener + depth →
      (∀ j < k, StillOpen opener closer depth (bs.take (j + 1))) →
      Finds opener closer depth offset bs (some (offset + k))
  | unclosed : (∀ j < bs.length, StillOpen opener closer depth (bs.take (j + 1))) →
      Finds opener closer depth offset bs none

/-- A byte in front that leaves brackets open puts off what is found. -/
lemma Finds.cons {b : UInt8} {left : ℕ} (hleft : 0 < left)
    (hcount : [b].count closer + left = [b].count opener + depth)
    (h : Finds opener closer left (offset + 1) bs found) :
    Finds opener closer depth offset (b :: bs) found := by
  have hcons (d : UInt8) (j : ℕ) :
      ((b :: bs).take (j + 1)).count d = [b].count d + (bs.take j).count d := by
    rw [List.take_succ_cons, ← List.singleton_append, List.count_append]
  have hopen {n : ℕ} (hn : ∀ j < n, StillOpen opener closer left (bs.take (j + 1))) :
      ∀ j < n + 1, StillOpen opener closer depth ((b :: bs).take (j + 1)) := by
    intro j hj
    rw [StillOpen, hcons, hcons]
    cases j with
    | zero =>
      rw [List.take_zero, List.count_nil, List.count_nil]
      omega
    | succ j =>
      have hstill := hn j (by omega)
      rw [StillOpen] at hstill
      omega
  cases h with
  | @closed k hbyte hclosed hn =>
    rw [Nat.add_assoc, Nat.add_comm 1]
    refine .closed hbyte ?_ (hopen hn)
    rw [hcons, hcons]
    omega
  | unclosed hn => exact .unclosed (hopen hn)

lemma closeFrom_finds (hne : opener ≠ closer) (hdepth : 0 < depth) (offset : ℕ)
    (bs : List UInt8) : ∃ found, closeFrom opener closer depth offset bs = .ok found ∧
      Finds opener closer depth offset bs found := by
  induction bs generalizing depth offset with
  | nil => exact ⟨none, rfl, .unclosed fun j hj => absurd hj (Nat.not_lt_zero j)⟩
  | cons b bs ih =>
    rw [closeFrom]
    by_cases ho : b = opener
    · obtain ⟨found, hscan, hfinds⟩ := ih (Nat.succ_pos depth) (offset + 1)
      refine ⟨found, by rw [if_pos ho, hscan], hfinds.cons (Nat.succ_pos depth) ?_⟩
      simp [ho, hne, Nat.add_comm]
    · rw [if_neg ho]
      by_cases hc : b = closer
      · rw [if_pos hc, minus_of_le hdepth]
        change ∃ found, (if depth - 1 = 0 then _ else _) = _ ∧ _
        by_cases hlast : depth - 1 = 0
        · refine ⟨some (offset + 0), by rw [if_pos hlast]; rfl, .closed (by simp [hc]) ?_ ?_⟩
          · obtain rfl : depth = 1 := by omega
            simp [hc, hne.symm]
          · exact fun j hj => absurd hj (Nat.not_lt_zero j)
        · obtain ⟨found, hscan, hfinds⟩ := ih (Nat.pos_of_ne_zero hlast) (offset + 1)
          refine ⟨found, by rw [if_neg hlast, hscan], hfinds.cons (Nat.pos_of_ne_zero hlast) ?_⟩
          simp [hc, hne.symm]
          omega
      · obtain ⟨found, hscan, hfinds⟩ := ih hdepth (offset + 1)
        refine ⟨found, by rw [if_neg hc, hscan], hfinds.cons hdepth ?_⟩
        simp [ho, hc]

end Scan

/-! ### Offsets of a text -/

variable {text : List Char} {o c : ℕ} {kind : Char × Char} {found : Option ℕ}

def kinds : List (Char × Char) := [('(', ')'), ('[', ']'), ('\x7b', '\x7d')]

def OpensAt (text : List Char) (kind : Char × Char) (o : ℕ) : Prop :=
  kind ∈ kinds ∧ (bytes text)[o]? = some kind.1.toUInt8

/-- The bytes from one offset through another. -/
def stretch (text : List Char) (start stop : ℕ) : List UInt8 :=
  ((bytes text).drop start).take (stop + 1 - start)

/-- How many brackets of a kind are opened from one offset through another. -/
def openers (text : List Char) (kind : Char × Char) (start stop : ℕ) : ℕ :=
  (stretch text start stop).count kind.1.toUInt8

/-- How many brackets of a kind are closed from one offset through another. -/
def closers (text : List Char) (kind : Char × Char) (start stop : ℕ) : ℕ :=
  (stretch text start stop).count kind.2.toUInt8

/-- The offsets behind an opening bracket through which as many are closed as are opened. -/
def balancing (text : List Char) (kind : Char × Char) (o : ℕ) : Set ℕ :=
  {c | o < c ∧ c < byteLength text ∧ closers text kind o c = openers text kind o c}

lemma closerOf_of_mem_kinds (h : kind ∈ kinds) : closerOf kind.1 = some kind.2 := by
  revert kind
  decide

lemma mem_kinds_of_closerOf {c d : Char} (h : closerOf c = some d) : (c, d) ∈ kinds := by
  unfold closerOf at h
  split at h <;> first | contradiction | (cases h; decide)

lemma toUInt8_ne_of_mem_kinds (h : kind ∈ kinds) : kind.1.toUInt8 ≠ kind.2.toUInt8 := by
  revert kind
  decide

lemma closeOf_finds (h : OpensAt text kind o) : ∃ found, closeOf text o = .ok found ∧
    Finds kind.1.toUInt8 kind.2.toUInt8 0 o ((bytes text).drop o) found := by
  obtain ⟨hkind, hbyte⟩ := h
  have hcloser := closerOf_of_mem_kinds hkind
  have hne := toUInt8_ne_of_mem_kinds hkind
  obtain ⟨hlt, hhead⟩ := List.getElem?_eq_some_iff.mp hbyte
  have hdrop : (bytes text).drop o = kind.1.toUInt8 :: (bytes text).drop (o + 1) := by
    rw [← hhead, List.cons_getElem_drop_succ]
  obtain ⟨found, hscan, hfinds⟩ :=
    closeFrom_finds hne Nat.one_pos (o + 1) ((bytes text).drop (o + 1))
  refine ⟨found, ?_, hdrop ▸ hfinds.cons Nat.one_pos (by simp [hne])⟩
  simp only [closeOf, hbyte, closerByte?_toUInt8 (isAscii_of_closerOf hcloser).1, hcloser,
    Option.map_some]
  rw [hdrop, closeFrom, if_pos rfl, hscan]

lemma stretch_add (text : List Char) (o j : ℕ) :
    stretch text o (o + j) = ((bytes text).drop o).take (j + 1) := by
  rw [stretch, Nat.add_assoc, Nat.add_sub_cancel_left]

/-- What the search for the bracket that closes another comes to, in counts of brackets. -/
inductive Outcome (text : List Char) (kind : Char × Char) (o : ℕ) : Option ℕ → Prop
  | closed {c : ℕ} : (bytes text)[c]? = some kind.2.toUInt8 → c ∈ balancing text kind o →
      (∀ k, o ≤ k → k < c → closers text kind o k < openers text kind o k) →
      Outcome text kind o (some c)
  | unclosed : (∀ k, o ≤ k → k < byteLength text →
        closers text kind o k < openers text kind o k) →
      Outcome text kind o none

lemma closeOf_outcome (h : OpensAt text kind o) :
    ∃ found, closeOf text o = .ok found ∧ Outcome text kind o found := by
  have hne := toUInt8_ne_of_mem_kinds h.1
  have hlt : o < byteLength text := by
    rw [← length_bytes]
    exact (List.getElem?_eq_some_iff.mp h.2).1
  obtain ⟨found, hsearch, hfinds⟩ := closeOf_finds h
  have hopen {n : ℕ}
      (hn : ∀ j < n, StillOpen kind.1.toUInt8 kind.2.toUInt8 0 (((bytes text).drop o).take (j + 1)))
      (k : ℕ) (ho : o ≤ k) (hk : k < o + n) : closers text kind o k < openers text kind o k := by
    obtain ⟨j, rfl⟩ := Nat.exists_eq_add_of_le ho
    rw [closers, openers, stretch_add]
    exact hn j (by omega)
  refine ⟨found, hsearch, ?_⟩
  cases hfinds with
  | @closed j hbyte hclosed hn =>
    rw [List.getElem?_drop] at hbyte
    have hlast : o + j < byteLength text := by
      rw [← length_bytes]
      exact (List.getElem?_eq_some_iff.mp hbyte).1
    -- the bracket that closes is not the one that opens
    have hpos : j ≠ 0 := by
      rintro rfl
      rw [Nat.add_zero, h.2] at hbyte
      exact hne (Option.some.inj hbyte)
    refine .closed hbyte ⟨by omega, hlast, ?_⟩ (hopen hn)
    rw [closers, openers, stretch_add]
    exact hclosed
  | unclosed hn =>
    refine .unclosed fun k ho hk => hopen hn k ho ?_
    rw [List.length_drop, length_bytes]
    omega

lemma Outcome.eq_some_iff (h : Outcome text kind o found) :
    found = some c ↔ IsLeast (balancing text kind o) c := by
  cases h with
  | @closed c' hbyte hmem hopen =>
    have hleast : IsLeast (balancing text kind o) c' := by
      refine ⟨hmem, fun k hk => Nat.le_of_not_lt fun hlt => ?_⟩
      exact (hopen k hk.1.le hlt).ne hk.2.2
    constructor
    · rintro ⟨⟩
      exact hleast
    · exact fun hc => congrArg some (hleast.unique hc)
  | unclosed hopen =>
    refine ⟨nofun, fun hc => ?_⟩
    exact absurd hc.1.2.2 (hopen c hc.1.1.le hc.1.2.1).ne

lemma Outcome.eq_none_iff (h : Outcome text kind o found) :
    found = none ↔ balancing text kind o = ∅ := by
  cases h with
  | closed _ hmem _ => exact ⟨nofun, fun hempty => absurd (hempty ▸ hmem) (Set.notMem_empty _)⟩
  | unclosed hopen =>
    refine ⟨fun _ => Set.eq_empty_of_forall_notMem fun k hk => ?_, fun _ => rfl⟩
    exact (hopen k hk.1.le hk.2.1).ne hk.2.2

/-! ### Brackets inside of brackets -/

lemma stretch_append {m : ℕ} (ho : o ≤ m) (hc : m ≤ c) :
    stretch text o c = stretch text o m ++ stretch text (m + 1) c := by
  have hlength : c + 1 - o = (m + 1 - o) + (c + 1 - (m + 1)) := by omega
  have hstart : o + (m + 1 - o) = m + 1 := by omega
  rw [stretch, hlength, List.take_add, List.drop_drop, hstart]
  rfl

/-- Up to where a bracket is closed, fewer are opened than closed behind each offset inside. -/
lemma openers_lt_closers {m : ℕ} (hc : c ∈ balancing text kind o) (ho : o ≤ m) (hm : m < c)
    (hopen : closers text kind o m < openers text kind o m) :
    openers text kind (m + 1) c < closers text kind (m + 1) c := by
  have hbalance := hc.2.2
  rw [closers, openers, stretch_append ho hm.le, List.count_append, List.count_append] at hbalance
  rw [closers, openers] at *
  omega

lemma closeOf_inside (h : Outcome text kind o (some c)) {o' : ℕ} (ho : o < o') (hc : o' < c)
    (hat : OpensAt text kind o') : ∃ c', closeOf text o' = .ok (some c') ∧ c' < c := by
  obtain ⟨m, rfl⟩ : ∃ m, o' = m + 1 := ⟨o' - 1, by omega⟩
  obtain ⟨_, hmem, hopen⟩ := h
  have hlt := openers_lt_closers hmem (by omega) (by omega) (hopen m (by omega) (by omega))
  obtain ⟨found, hsearch, houtcome⟩ := closeOf_outcome hat
  cases houtcome with
  | unclosed hinner => exact absurd (hinner c hc.le hmem.2.1) (by omega)
  | @closed c' _ hmem' hinner =>
    refine ⟨c', hsearch, Nat.lt_of_not_le fun hle => ?_⟩
    rcases Nat.lt_or_eq_of_le hle with hbefore | rfl
    · exact absurd (hinner c hc.le hbefore) (by omega)
    · exact hlt.ne hmem'.2.2.symm

lemma closeOf_of_not_opensAt (h : ∀ kind, ¬ OpensAt text kind o) : closeOf text o = .ok none := by
  refine closeOf_other fun lead c rest hsplit => ?_
  obtain ⟨rfl, rfl⟩ := eq_of_splitAtByte hsplit
  cases hcloser : closerOf c with
  | none => rfl
  | some d =>
    refine absurd ⟨mem_kinds_of_closerOf hcloser, ?_⟩ (h (c, d))
    exact getElem?_bytes_of_isAscii (isAscii_of_closerOf hcloser).1

lemma exists_of_closer (hkind : kind ∈ kinds) (h : (bytes text)[c]? = some kind.2.toUInt8) :
    ∃ before behind, text = before ++ kind.2 :: behind ∧ byteLength before = c := by
  have hascii := (isAscii_of_closerOf (closerOf_of_mem_kinds hkind)).2
  obtain ⟨before, d, behind, rfl, hlength, hd, hbyte⟩ :=
    exists_of_getElem?_bytes h (isLow_toUInt8 hascii)
  obtain rfl := (toUInt8_inj hd hascii).mp hbyte
  exact ⟨before, behind, rfl, hlength⟩

/-- **Brackets are matched by counting.** The search from an offset never faults. From an opening
bracket it comes to the first offset through which as many brackets of its kind are closed as are
opened, and it comes to nothing if there is no such offset or no bracket is opened. Before the
offset that it comes to more are opened than closed; the closing bracket stands there, between two
characters; and a bracket of the kind that is opened in between is closed in between. -/
theorem closeOf_by_counts (text : List Char) (o : ℕ) :
    ∃ found, closeOf text o = .ok found ∧
      (found = none ↔ ∀ kind, OpensAt text kind o → balancing text kind o = ∅) ∧
      ∀ kind, OpensAt text kind o → ∀ c,
        (found = some c ↔ IsLeast (balancing text kind o) c) ∧
        (found = some c →
          (∀ k, o ≤ k → k < c → closers text kind o k < openers text kind o k) ∧
          (∃ before behind, text = before ++ kind.2 :: behind ∧ byteLength before = c) ∧
          ∀ o', o < o' → o' < c → OpensAt text kind o' →
            ∃ c', closeOf text o' = .ok (some c') ∧ c' < c) := by
  obtain ⟨found, hsearch⟩ := exists_closeOf text o
  have houtcome : ∀ kind, OpensAt text kind o → Outcome text kind o found := by
    intro kind hat
    obtain ⟨found', hsearch', houtcome⟩ := closeOf_outcome hat
    obtain rfl := Except.ok.inj (hsearch.symm.trans hsearch')
    exact houtcome
  refine ⟨found, hsearch, ⟨fun hnone kind hat => (houtcome kind hat).eq_none_iff.mp hnone,
    fun hall => ?_⟩, fun kind hat c => ⟨(houtcome kind hat).eq_some_iff, fun hfound => ?_⟩⟩
  · by_cases hopens : ∃ kind, OpensAt text kind o
    · obtain ⟨kind, hat⟩ := hopens
      exact (houtcome kind hat).eq_none_iff.mpr (hall kind hat)
    · have hnone := closeOf_of_not_opensAt (not_exists.mp hopens)
      exact Except.ok.inj (hsearch.symm.trans hnone)
  · subst hfound
    have hclosed := houtcome kind hat
    refine ⟨?_, ?_, fun o' ho hc => closeOf_inside hclosed ho hc⟩
    · cases hclosed with
      | closed _ _ hopen => exact hopen
    · cases hclosed with
      | closed hbyte _ _ => exact exists_of_closer hat.1 hbyte

/-- Brackets of other kinds do not count. -/
example : closeOf "f(é[)]".toList 1 = .ok (some 5) := by decide +kernel

end CodeHealth.Proofs.BracketMatching
