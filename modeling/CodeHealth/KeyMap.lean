/-!
Tables from names to values, in the order of their names. A table is settled by what it holds: two
tables with the same entries are equal.
-/

namespace CodeHealth

/-- Entries with distinct names in ascending order. -/
structure KeyMap (α : Type) where
  entries : List (String × α)
  sorted : entries.Pairwise fun a b => a.1 < b.1
deriving DecidableEq

namespace KeyMap

variable {α β : Type}

/-- The table without entries. -/
def empty : KeyMap α := ⟨[], .nil⟩

instance : Inhabited (KeyMap α) := ⟨empty⟩

/-- The entries with the value of one name set. -/
def insertEntry (k : String) (v : α) : List (String × α) → List (String × α)
  | [] => [(k, v)]
  | (k', v') :: rest =>
    if k < k' then (k, v) :: (k', v') :: rest
    else if k = k' then (k, v) :: rest
    else (k', v') :: insertEntry k v rest

theorem mem_insertEntry {k : String} {v : α} {es : List (String × α)} {e : String × α}
    (h : e ∈ insertEntry k v es) : e = (k, v) ∨ e ∈ es := by
  induction es with
  | nil => simpa [insertEntry] using h
  | cons x es ih =>
    rw [insertEntry] at h
    split at h
    · simpa using h
    · split at h
      · rcases List.mem_cons.1 h with h | h
        · exact .inl h
        · exact .inr (List.mem_cons_of_mem _ h)
      · rcases List.mem_cons.1 h with h | h
        · exact .inr (h ▸ List.mem_cons_self)
        · exact (ih h).imp id (List.mem_cons_of_mem _)

theorem sorted_insertEntry {k : String} {v : α} {es : List (String × α)}
    (h : es.Pairwise fun a b => a.1 < b.1) :
    (insertEntry k v es).Pairwise fun a b => a.1 < b.1 := by
  induction es with
  | nil => simp [insertEntry]
  | cons x es ih =>
    obtain ⟨hx, hes⟩ := List.pairwise_cons.1 h
    rw [insertEntry]
    split
    · rename_i hk
      refine List.pairwise_cons.2 ⟨fun y hy => ?_, h⟩
      rcases List.mem_cons.1 hy with rfl | hy
      · exact hk
      · exact String.lt_trans hk (hx y hy)
    · split
      · rename_i hk
        exact List.pairwise_cons.2 ⟨fun y hy => hk ▸ hx y hy, hes⟩
      · rename_i hlt hne
        refine List.pairwise_cons.2 ⟨fun y hy => ?_, ih hes⟩
        rcases mem_insertEntry hy with rfl | hy
        · exact Decidable.byContradiction fun hn =>
            hne (String.le_antisymm (String.not_lt.1 hn) (String.not_lt.1 hlt))
        · exact hx y hy

/-- The table with the value of one name set. -/
def insert (t : KeyMap α) (k : String) (v : α) : KeyMap α :=
  ⟨insertEntry k v t.entries, sorted_insertEntry t.sorted⟩

def get? (t : KeyMap α) (k : String) : Option α := t.entries.lookup k

def contains (t : KeyMap α) (k : String) : Bool := (t.get? k).isSome

/-- The table with a value put behind those that a name has. -/
def push (t : KeyMap (List α)) (k : String) (v : α) : KeyMap (List α) :=
  t.insert k ((t.get? k).getD [] ++ [v])

/-- The values of a list by their names; a value without a name is left out. -/
def groupBy (name : α → Option String) (vs : List α) : KeyMap (List α) :=
  vs.foldl (fun t v => match name v with
    | some k => t.push k v
    | none => t) empty

/-- The names, in ascending order. -/
def keys (t : KeyMap α) : List String := t.entries.map (·.1)

/-- The entries whose name is kept. -/
def keepKeys (t : KeyMap α) (keep : String → Bool) : KeyMap α :=
  ⟨t.entries.filter fun e => keep e.1, t.sorted.filter _⟩

def isEmpty (t : KeyMap α) : Bool := t.entries.isEmpty

/-- The table of a list of entries; of equal names the last one counts. -/
def ofList (es : List (String × α)) : KeyMap α := es.foldl (fun t e => t.insert e.1 e.2) empty

/-! ### Looking up -/

theorem lookup_cons (k q : String) (v : α) (es : List (String × α)) :
    ((k, v) :: es).lookup q = if q = k then some v else es.lookup q := by
  by_cases h : q = k
  · subst h
    simp
  · rw [List.lookup_cons, beq_eq_false_iff_ne.2 h, if_neg h]

theorem lookup_insertEntry (k q : String) (v : α) (es : List (String × α)) :
    (insertEntry k v es).lookup q = if q = k then some v else es.lookup q := by
  induction es with
  | nil => exact lookup_cons k q v []
  | cons x es ih =>
    obtain ⟨k', v'⟩ := x
    rw [insertEntry]
    split
    · exact lookup_cons k q v _
    · split
      · next hk =>
        rw [lookup_cons, lookup_cons, ← hk]
        split <;> rfl
      · next hk =>
        rw [lookup_cons, lookup_cons, ih]
        by_cases h : q = k'
        · subst h
          simp [Ne.symm hk]
        · simp [h]

theorem get?_insert (t : KeyMap α) (k q : String) (v : α) :
    (t.insert k v).get? q = if q = k then some v else t.get? q :=
  lookup_insertEntry k q v t.entries

theorem lookup_eq_some_iff {es : List (String × α)} (h : es.Pairwise fun a b => a.1 < b.1)
    {k : String} {v : α} : es.lookup k = some v ↔ (k, v) ∈ es := by
  induction es with
  | nil => simp
  | cons x es ih =>
    obtain ⟨k', v'⟩ := x
    obtain ⟨hx, hes⟩ := List.pairwise_cons.1 h
    rw [lookup_cons]
    split
    · next hk =>
      subst hk
      have hnot : (k, v) ∉ es := fun hm => String.lt_irrefl _ (hx (k, v) hm)
      simp [hnot, eq_comm]
    · next hk => simp [hk, ih hes]

theorem mem_entries_iff {t : KeyMap α} {k : String} {v : α} :
    (k, v) ∈ t.entries ↔ t.get? k = some v := (lookup_eq_some_iff t.sorted).symm

theorem lookup_filter (keep : String → Bool) (q : String) (es : List (String × α)) :
    (es.filter fun e => keep e.1).lookup q = if keep q then es.lookup q else none := by
  induction es with
  | nil => simp
  | cons x es ih =>
    obtain ⟨k, v⟩ := x
    rw [List.filter_cons, lookup_cons]
    by_cases hq : q = k
    · subst hq
      cases hk : keep q with
      | true => rw [if_pos rfl, lookup_cons, if_pos rfl, if_pos rfl, if_pos rfl]
      | false => simpa [hk] using ih
    · cases keep k with
      | true => rw [if_pos rfl, lookup_cons, if_neg hq, if_neg hq, ih]
      | false => rw [if_neg Bool.false_ne_true, if_neg hq, ih]

theorem get?_keepKeys (t : KeyMap α) (keep : String → Bool) (q : String) :
    (t.keepKeys keep).get? q = if keep q then t.get? q else none :=
  lookup_filter keep q t.entries

/-! ### Setting a value -/

/-- The value of a new name is put between the others. -/
theorem exists_insertEntry {k : String} {es : List (String × α)} (h : es.lookup k = none) (v : α) :
    ∃ a b, es = a ++ b ∧ insertEntry k v es = a ++ (k, v) :: b := by
  induction es with
  | nil => exact ⟨[], [], rfl, rfl⟩
  | cons x es ih =>
    obtain ⟨k', v'⟩ := x
    rw [lookup_cons] at h
    split at h
    · cases h
    · next hk =>
      obtain ⟨a, b, hes, hins⟩ := ih h
      rw [insertEntry]
      split
      · exact ⟨[], (k', v') :: es, rfl, rfl⟩
      · exact ⟨(k', v') :: a, b, by rw [hes]; rfl, by rw [hins]; rfl⟩

/-- The value of a name that is not kept does not show. -/
theorem filter_insertEntry {keep : String → Bool} {k : String} (hk : keep k = false) (v : α)
    (es : List (String × α)) :
    (insertEntry k v es).filter (fun e => keep e.1) = es.filter fun e => keep e.1 := by
  induction es with
  | nil => simp [insertEntry, hk]
  | cons x es ih =>
    obtain ⟨k', v'⟩ := x
    rw [insertEntry]
    split
    · rw [List.filter_cons_of_neg (by simp [hk])]
    · split
      · next heq =>
        subst heq
        rw [List.filter_cons_of_neg (by simp [hk]), List.filter_cons_of_neg (by simp [hk])]
      · rw [List.filter_cons, List.filter_cons, ih]

/-! ### Tables of lists -/

theorem insertEntry_of_last {k : String} {v : α} {es : List (String × α)}
    (h : ∀ e ∈ es, e.1 < k) : insertEntry k v es = es ++ [(k, v)] := by
  induction es with
  | nil => rfl
  | cons x es ih =>
    obtain ⟨hx, hes⟩ := List.forall_mem_cons.1 h
    rw [insertEntry, if_neg (String.lt_asymm hx), if_neg (Ne.symm (String.ne_of_lt hx)), ih hes]
    rfl

theorem entries_foldl_insert (t : KeyMap α) (es : List (String × α))
    (h : (t.entries ++ es).Pairwise fun a b => a.1 < b.1) :
    (es.foldl (fun t e => t.insert e.1 e.2) t).entries = t.entries ++ es := by
  induction es generalizing t with
  | nil => simp
  | cons e es ih =>
    have hlast : (t.insert e.1 e.2).entries = t.entries ++ [e] :=
      insertEntry_of_last fun x hx => (List.pairwise_append.1 h).2.2 x hx e List.mem_cons_self
    rw [List.foldl_cons, ih _ (by simpa [hlast] using h), hlast]
    simp

theorem ext_entries {s t : KeyMap α} (h : s.entries = t.entries) : s = t := by
  cases s
  cases t
  cases h
  rfl

theorem ofList_entries (t : KeyMap α) : ofList t.entries = t :=
  ext_entries (entries_foldl_insert empty t.entries t.sorted)

end KeyMap

end CodeHealth
