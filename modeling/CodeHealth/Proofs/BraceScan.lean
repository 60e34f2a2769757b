import CodeHealth.Advice.Payload
import CodeHealth.Proofs.JsonLeaves

/-!
The scan for the brace that closes a block, as a one-pass machine.

The machine knows how many braces are open and whether it stands in a string, and it is stricter
than the search for a block: it gets stuck at a line break within a string, at a character outside
of strings that no JSON text has there, and at a brace where none is open. Where it does not get
stuck, the search goes on with it. A JSON value leaves it where it was, whatever stands in its
strings.
-/

namespace CodeHealth.Proofs.BraceScan

open CodeHealth.Advice CodeHealth.Json CodeHealth.Proofs.JsonText CodeHealth.Proofs.JsonLeaves

/-- Where the scan stands, with the number of open braces. -/
inductive Place
  | outside (depth : ℕ)
  | quoted (depth : ℕ)
  | escaped (depth : ℕ)
  /-- All braces are closed, or the text is none of JSON. -/
  | ended

/-- Whether a character may stand outside of strings, braces and quotes apart. -/
def isPlain (c : Char) : Bool := isSpace c || c.isDigit || ",:[]+-.eEtrufalsn".toList.contains c

def step : Place → Char → Place
  | .outside n, c =>
    if c = '"' then .quoted n
    else if c = '\x7b' then if n = 0 then .ended else .outside (n + 1)
    else if c = '\x7d' then if n ≤ 1 then .ended else .outside (n - 1)
    else if isPlain c then .outside n
    else .ended
  | .quoted n, c =>
    if c = '\\' then .escaped n
    else if c = '"' then .outside n
    else if c.toNat < 0x20 then .ended
    else .quoted n
  | .escaped n, _ => .quoted n
  | .ended, _ => .ended

def run (s : Place) (cs : List Char) : Place := cs.foldl step s

@[simp] lemma run_nil (s : Place) : run s [] = s := rfl
@[simp] lemma run_cons (s : Place) (c : Char) (cs : List Char) :
    run s (c :: cs) = run (step s c) cs := rfl
lemma run_append (s : Place) (u v : List Char) : run s (u ++ v) = run (run s u) v := by
  simp [run, List.foldl_append]

@[simp] lemma run_ended (cs : List Char) : run .ended cs = .ended := by
  induction cs with
  | nil => rfl
  | cons c cs ih => exact ih

/-! ### The search for the closing brace -/

/-- The search for the closing brace from a place on. -/
def search : Place → List Char → Option ℕ
  | .outside n, cs => balancedLength false false n cs
  | .quoted n, cs => balancedLength true false n cs
  | .escaped n, cs => balancedLength true true n cs
  | .ended, _ => none

lemma search_step {s : Place} {c : Char} {cs : List Char} (h : step s c ≠ .ended) :
    search s (c :: cs) = (search (step s c) cs).map (· + 1) := by
  cases s with
  | ended => exact absurd rfl h
  | escaped n => simp [search, balancedLength, step]
  | quoted n =>
    by_cases hb : c = '\\'
    · simp [search, balancedLength, step, hb]
    by_cases hq : c = '"'
    · simp [search, balancedLength, step, hq]
    have hne : (c != '"') = true := by simpa using hq
    by_cases hc : c.toNat < 0x20
    · exact absurd (by simp [step, hb, hq, hc]) h
    · simp [search, balancedLength, step, hb, hq, hc, hne]
  | outside n =>
    simp only [search, balancedLength, step] at h ⊢
    split_ifs at h ⊢ <;> simp_all

lemma search_append {s : Place} {u : List Char} (t : List Char) (h : run s u ≠ .ended) :
    search s (u ++ t) = (search (run s u) t).map (· + u.length) := by
  induction u generalizing s with
  | nil => simp
  | cons c u ih =>
    have hstep : step s c ≠ .ended := by
      intro hs
      rw [run_cons, hs, run_ended] at h
      exact h rfl
    rw [List.cons_append, search_step hstep, ih h, run_cons]
    cases search (run (step s c) u) t <;> simp [Nat.add_assoc]

/-! ### JSON values -/

/-- A text of characters that may stand outside of strings, braces and quotes apart. -/
def Plain (u : List Char) : Prop := ∀ c ∈ u, isPlain c = true

section

variable {u v : List Char}

@[simp] lemma plain_nil : Plain [] := List.forall_mem_nil _

lemma plain_cons {c : Char} : Plain (c :: u) ↔ isPlain c = true ∧ Plain u := List.forall_mem_cons

lemma plain_append : Plain (u ++ v) ↔ Plain u ∧ Plain v := List.forall_mem_append

lemma plain_of_spaces (h : Spaces u) : Plain u := fun c hc => by simp [isPlain, h c hc]

lemma plain_of_digits (h : Digits u) : Plain u := fun c hc => by simp [isPlain, h.2 c hc]

lemma plain_of_sep {first : Bool} (h : Sep first u) : Plain u := by
  cases h with
  | first h => exact plain_of_spaces h
  | next h h' =>
    exact plain_append.mpr ⟨plain_of_spaces h, plain_cons.mpr ⟨rfl, plain_of_spaces h'⟩⟩

lemma plain_of_unsigned {negative : Bool} {n : Numeral} (h : Unsigned negative u n) : Plain u := by
  obtain ⟨hw, hf, he⟩ := h
  refine plain_append.mpr ⟨?_, plain_append.mpr ⟨?_, ?_⟩⟩
  · cases hw with
    | zero => exact plain_cons.mpr ⟨rfl, plain_nil⟩
    | digits hd => exact plain_of_digits hd
  · cases hf with
    | none => exact plain_nil
    | some hd => exact plain_cons.mpr ⟨rfl, plain_of_digits hd⟩
  · cases he with
    | none => exact plain_nil
    | some hc hs hd =>
      refine plain_cons.mpr ⟨by rcases hc with rfl | rfl <;> rfl,
        plain_append.mpr ⟨?_, plain_of_digits hd⟩⟩
      cases hs <;> simp [Plain, isPlain]

/-- A text that leaves the scan outside of strings, with as many braces open as before, if `least`
or more are. -/
def Neutral (least : ℕ) (u : List Char) : Prop :=
  ∀ n, least ≤ n → run (.outside n) u = .outside n

variable {least : ℕ}

lemma Neutral.append (hu : Neutral least u) (hv : Neutral least v) : Neutral least (u ++ v) := by
  intro n hn
  rw [run_append, hu n hn, hv n hn]

lemma step_plain {c : Char} (n : ℕ) (h : isPlain c = true) :
    step (.outside n) c = .outside n := by
  have hq : c ≠ '"' := by rintro rfl; exact absurd h (by decide)
  have ho : c ≠ '\x7b' := by rintro rfl; exact absurd h (by decide)
  have hc : c ≠ '\x7d' := by rintro rfl; exact absurd h (by decide)
  simp [step, hq, ho, hc, h]

lemma neutral_of_plain (h : Plain u) : Neutral least u := by
  intro n _
  induction u with
  | nil => rfl
  | cons c u ih =>
    obtain ⟨hc, hu⟩ := plain_cons.mp h
    rw [run_cons, step_plain n hc, ih hu]

lemma Neutral.cons {c : Char} (hc : isPlain c = true) (hu : Neutral least u) :
    Neutral least (c :: u) :=
  (neutral_of_plain (plain_cons.mpr ⟨hc, plain_nil⟩)).append hu

lemma neutral_of_spaces (h : Spaces u) : Neutral least u := neutral_of_plain (plain_of_spaces h)

end

/-! Within a string, braces and quotes behind a backslash mean nothing. -/

lemma step_quoted {c : Char} {n : ℕ} (hb : c ≠ '\\') (hq : c ≠ '"') (hc : 0x20 ≤ c.toNat) :
    step (.quoted n) c = .quoted n := by
  simp [step, hb, hq, Nat.not_lt.mpr hc]

lemma step_quoted_of_le {a c : Char} {n : ℕ} (ha : 0x20 ≤ a.toNat) (h : a ≤ c) (hb : c ≠ '\\')
    (hq : c ≠ '"') : step (.quoted n) c = .quoted n :=
  step_quoted hb hq (ha.trans (UInt32.le_iff_toNat_le.mp h))

lemma step_hex {c : Char} {w n : ℕ} (h : hexValue? c = some w) :
    step (.quoted n) c = .quoted n := by
  have hb : c ≠ '\\' := by rintro rfl; simp [hexValue?] at h
  have hq : c ≠ '"' := by rintro rfl; simp [hexValue?] at h
  unfold hexValue? at h
  split_ifs at h with h0 ha hA
  · exact step_quoted_of_le (by decide) h0.1 hb hq
  · exact step_quoted_of_le (by decide) ha.1 hb hq
  · exact step_quoted_of_le (by decide) hA.1 hb hq

lemma step_language {c : Char} {n : ℕ} (h : isLanguageChar c = true) :
    step (.quoted n) c = .quoted n := by
  have hb : c ≠ '\\' := by rintro rfl; exact absurd h (by decide)
  have hq : c ≠ '"' := by rintro rfl; exact absurd h (by decide)
  simp only [isLanguageChar, Text.isAsciiLetter, Text.isCapital, Char.isDigit, Bool.or_eq_true,
    Bool.and_eq_true, decide_eq_true_eq, beq_iff_eq] at h
  rcases h with (((⟨hA, -⟩ | ⟨ha, -⟩) | ⟨h0, -⟩) | rfl) | rfl
  · exact step_quoted_of_le (by decide) hA hb hq
  · exact step_quoted_of_le (by decide) ha hb hq
  · exact step_quoted_of_le (by decide) h0 hb hq
  · exact step_quoted hb hq (by decide)
  · exact step_quoted hb hq (by decide)

lemma run_unit16 {hs : List Char} {m n : ℕ} (h : Unit16 hs m) :
    run (.quoted n) hs = .quoted n := by
  cases h with
  | mk ha hb hc hd => simp [step_hex ha, step_hex hb, step_hex hc, step_hex hd]

lemma run_escape {e : List Char} {d : Char} {n : ℕ} (h : Escape e d) :
    run (.escaped n) e = .quoted n := by
  cases h with
  | letter => rfl
  | unicode h =>
    cases h with
    | single hu => exact run_unit16 hu
    | pair hu _ _ hv =>
      rw [run_cons, run_append]
      simp [step, run_unit16 hu, run_unit16 hv]

lemma run_chars {u ds : List Char} {n : ℕ} (h : Chars u ds) :
    run (.quoted n) u = .quoted n := by
  induction h with
  | nil => rfl
  | plain hq hb hc _ ih => rw [run_cons, step_quoted hb hq hc, ih]
  | escape he _ ih =>
    rw [run_cons, run_append]
    simp [step, run_escape he, ih]

lemma neutral_string {least : ℕ} {u ds t : List Char} (hu : Chars u ds) (ht : Neutral least t) :
    Neutral least ('"' :: (u ++ '"' :: t)) := by
  intro n hn
  rw [run_cons, run_append]
  simp [step, run_chars hu, ht n hn]

def isFlat : Json → Bool
  | .array items => items.all fun j => (asString? j).isSome
  | .object _ => false
  | _ => true

/-- Whether a stretch of a text holds flat values alone, and items that are strings. -/
def isFlatPart : Part → Bool
  | .value j => isFlat j
  | .items _ js => js.all fun j => (asString? j).isSome
  | .fields _ fs => fs.all fun f => isFlat f.2

lemma isFlat_of_asString? {j : Json} (h : (asString? j).isSome = true) : isFlat j = true := by
  cases j <;> simp_all [asString?, isFlat]

/-- **A JSON value leaves the scan where it was**, and a flat one opens no brace. -/
theorem neutral_of_written {least d : ℕ} {part : Part} {u : List Char} (h : Written d part u)
    (hleast : 1 ≤ least ∨ isFlatPart part = true) : Neutral least u := by
  induction h with
  | null | true | false => exact neutral_of_plain (List.all_eq_true.mp rfl)
  | string hu => exact neutral_string hu fun _ _ => rfl
  | number h =>
    obtain ⟨n, hn, -⟩ := h
    exact neutral_of_plain (plain_of_unsigned hn)
  | negative h =>
    obtain ⟨n, hn, -⟩ := h
    exact .cons rfl (neutral_of_plain (plain_of_unsigned hn))
  | array _ hws ih =>
    exact .cons rfl ((ih hleast).append ((neutral_of_spaces hws).append (.cons rfl fun _ _ => rfl)))
  | object _ hws ih =>
    intro n hn
    -- within an open brace, the end of an object is not the end of the block
    have hone : 1 ≤ least := by simpa [isFlatPart, isFlat] using hleast
    have hbody := ((ih (.inl hone)).append (neutral_of_spaces hws)) (n + 1) (by omega)
    have hn0 : n ≠ 0 := by omega
    rw [run_cons, ← List.append_assoc, run_append]
    simp [step, hbody, hn0]
  | noItems | noFields => exact fun _ _ => rfl
  | item hs _ _ ihu ihv =>
    simp only [isFlatPart, List.all_cons, Bool.and_eq_true] at hleast ihu ihv
    exact (neutral_of_plain (plain_of_sep hs)).append
      ((ihu (hleast.imp_right fun h => isFlat_of_asString? h.1)).append
        (ihv (hleast.imp_right And.right)))
  | field hs hk hws hws' _ _ ihu ihv =>
    simp only [isFlatPart, List.all_cons, Bool.and_eq_true] at hleast ihu ihv
    refine (neutral_of_plain (plain_of_sep hs)).append (neutral_string hk ?_)
    exact (neutral_of_spaces hws).append (.cons rfl ((neutral_of_spaces hws').append
      ((ihu (hleast.imp_right And.left)).append (ihv (hleast.imp_right And.right)))))

lemma neutral_of_document {j : Json} {cs : List Char} (h : Document j cs) : Neutral 1 cs := by
  obtain ⟨ws, u, ws', hws, hu, hws', rfl⟩ := h
  exact (neutral_of_spaces hws).append
    ((neutral_of_written hu (.inl le_rfl)).append (neutral_of_spaces hws'))

/-! ### Blocks in a reply -/

lemma search_close {v : List Char} (hv : Neutral 1 v) (t : List Char) :
    balancedLength false false 1 (v ++ '\x7d' :: t) = some (v.length + 1) := by
  have hrun : run (.outside 1) v = .outside 1 := hv 1 le_rfl
  have := search_append ('\x7d' :: t) (s := .outside 1) (u := v) (by simp [hrun])
  rw [hrun] at this
  simpa [search, balancedLength, Nat.add_comm] using this

lemma take_close (v t : List Char) : (v ++ '\x7d' :: t).take (v.length + 1) = v ++ ['\x7d'] := by
  rw [← List.singleton_append, ← List.append_assoc]
  exact List.take_left' (by simp)

lemma outerBlock?_of_first {p : List Char} (hp : '\x7b' ∉ p) (cs : List Char) :
    outerBlock? (p ++ '\x7b' :: cs) =
      (balancedLength false false 1 cs).map fun n => '\x7b' :: cs.take n := by
  have hskip : ∀ c ∈ p, (c != '\x7b') = true := by
    intro c hc
    rw [bne_iff_ne]
    rintro rfl
    exact hp hc
  rw [outerBlock?, List.dropWhile_append_of_pos hskip, List.dropWhile_cons_of_neg (by simp)]
  simp only [List.take_succ_cons]

/-- **The first block of braces is the first object**, if no brace stands in front of it. -/
theorem outerBlock?_append {d : ℕ} {fs : List (String × Json)} {p u : List Char}
    (hp : '\x7b' ∉ p) (h : Written d (.value (.object fs)) u) (t : List Char) :
    outerBlock? (p ++ (u ++ t)) = some u := by
  obtain ⟨_, v, ws, hv, hws, rfl⟩ := exists_fields_of_object h
  have hbody : Neutral 1 (v ++ ws) :=
    (neutral_of_written hv (.inl le_rfl)).append (neutral_of_spaces hws)
  have htext : p ++ ('\x7b' :: (v ++ (ws ++ ['\x7d'])) ++ t) =
      p ++ '\x7b' :: ((v ++ ws) ++ '\x7d' :: t) := by simp
  rw [htext, outerBlock?_of_first hp, search_close hbody, Option.map_some, take_close,
    List.append_assoc]

lemma run_fenceLine {lang : List Char} (h : ∀ c ∈ lang, isLanguageChar c = true) (s : Place)
    (t : List Char) : run s ('`' :: (lang ++ '\n' :: t)) = .ended := by
  have hlang (n : ℕ) : run (.quoted n) (lang ++ '\n' :: t) = .ended := by
    induction lang with
    | nil => simp [step]
    | cons c lang ih =>
      rw [List.forall_mem_cons] at h
      rw [List.cons_append, run_cons, step_language h.1, ih h.2]
  have htick : isPlain '`' = false := by decide
  cases s with
  | outside n => simp [step, htick]
  | quoted n => simpa [step] using hlang n
  | escaped n => simpa [step] using hlang n
  | ended => exact run_ended _

end CodeHealth.Proofs.BraceScan
