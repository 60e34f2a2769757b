import CodeHealth.Proofs.FlatBlocks

/-!
The places of a reply where an object is sought, told without the searches.

A fenced block reaches from the first fence to the next one. A block of braces reaches from its
brace to the partner of that brace, and strings within it may hold what they like. A flat block is
a pair of braces with no brace between. Each search finds what is told here, and whatever text it is
given, it finds all of it.
-/

namespace CodeHealth.Proofs.ReplyPlaces

open CodeHealth.Advice CodeHealth.Text CodeHealth.Proofs.BraceScan CodeHealth.Proofs.FlatBlocks
open CodeHealth.Proofs.ReplyText

/-! ### Marks -/

/-- A text that a mark follows, with no earlier occurrence of the mark. -/
def Before (mark u cs : List Char) : Prop :=
  u ++ mark <+: cs ∧ ∀ v, v ++ mark <+: cs → u.length ≤ v.length

section Marks

variable {mark u cs rest : List Char}

lemma before_nil (h : mark <+: cs) : Before mark u cs ↔ u = [] := by
  constructor
  · intro hu
    exact List.length_eq_zero_iff.mp (Nat.le_zero.mp (hu.2 [] h))
  · rintro rfl
    exact ⟨h, fun v _ => Nat.zero_le _⟩

lemma before_cons {c : Char} (h : ¬ mark <+: c :: cs) :
    Before mark u (c :: cs) ↔ ∃ v, u = c :: v ∧ Before mark v cs := by
  constructor
  · rintro ⟨hpre, hfirst⟩
    cases u with
    | nil => exact absurd hpre h
    | cons d v =>
      obtain ⟨rfl, hv⟩ := List.cons_prefix_cons.mp hpre
      refine ⟨v, rfl, hv, fun w hw => ?_⟩
      have hlen := hfirst (d :: w) (List.cons_prefix_cons.mpr ⟨rfl, hw⟩)
      simpa using hlen
  · rintro ⟨v, rfl, hpre, hfirst⟩
    refine ⟨List.cons_prefix_cons.mpr ⟨rfl, hpre⟩, fun w hw => ?_⟩
    cases w with
    | nil => exact absurd hw h
    | cons d w =>
      have hlen := hfirst w (List.cons_prefix_cons.mp hw).2
      simpa using hlen

/-- **A text is split at the first occurrence of a mark**, if there is one. -/
theorem splitAtMark?_eq_some_iff (hm : mark ≠ []) : splitAtMark? mark cs = some (u, rest) ↔
    Before mark u cs ∧ cs = u ++ (mark ++ rest) := by
  induction cs generalizing u rest with
  | nil => simp [splitAtMark?, hm, Before]
  | cons c cs ih =>
    by_cases hpre : mark <+: c :: cs
    · obtain ⟨left, hleft⟩ := hpre
      rw [before_nil ⟨left, hleft⟩, splitAtMark?, ← hleft, afterWord?_append]
      simp only [Option.some.injEq, Prod.mk.injEq]
      constructor
      · rintro ⟨rfl, rfl⟩
        exact ⟨rfl, rfl⟩
      · rintro ⟨rfl, h⟩
        exact ⟨rfl, List.append_cancel_left h⟩
    · rw [before_cons hpre, splitAtMark?, afterWord?_eq_none hpre]
      simp only [Option.map_eq_some_iff, Prod.exists, Prod.mk.injEq, ih]
      constructor
      · rintro ⟨v, left, ⟨hv, rfl⟩, rfl, rfl⟩
        exact ⟨⟨v, rfl, hv⟩, rfl⟩
      · rintro ⟨⟨v, rfl, hv⟩, h⟩
        rw [List.cons_append, List.cons.injEq] at h
        exact ⟨v, rest, ⟨hv, h.2⟩, rfl, rfl⟩

end Marks

/-! ### Fenced blocks -/

/-- **What stands in the first fenced block of a text**, behind the name of a language. -/
def Fenced (text body : List Char) : Prop :=
  ∃ p lang rest, Before fence p text ∧ text = p ++ (fence ++ (lang ++ rest)) ∧
    (∀ c ∈ lang, isLanguageChar c = true) ∧ (∀ c ∈ rest.head?, isLanguageChar c = false) ∧
    Before fence body rest

section Fences

variable {text lang rest w u t : List Char}

lemma fence_ne_nil : fence ≠ [] := List.cons_ne_nil _ _

/-- Blanks are no part of a fence, so the next fence is the one behind them. -/
lemma before_fence_append (hw : Blank w) :
    Before fence u (w ++ rest) ↔ ∃ v, u = w ++ v ∧ Before fence v rest := by
  induction w generalizing u with
  | nil => simp
  | cons c w ih =>
    obtain ⟨hc, hw⟩ := List.forall_mem_cons.mp hw
    have hno : ¬ fence <+: c :: (w ++ rest) := by
      intro h
      obtain rfl : '`' = c := (List.cons_prefix_cons.mp h).1
      exact absurd hc (by decide)
    rw [List.cons_append, before_cons hno]
    constructor
    · rintro ⟨v, rfl, hv⟩
      obtain ⟨v', rfl, hv'⟩ := (ih hw).mp hv
      exact ⟨v', rfl, hv'⟩
    · rintro ⟨v, rfl, hv⟩
      exact ⟨w ++ v, rfl, (ih hw).mpr ⟨v, rfl, hv⟩⟩

lemma exists_dropOne {c : Char} (hc : isBlank c = true) (cs : List Char) :
    ∃ w, Blank w ∧ cs = w ++ dropOne c cs := by
  cases cs with
  | nil => exact ⟨[], List.forall_mem_nil _, rfl⟩
  | cons d cs =>
    by_cases hd : d = c
    · exact ⟨[d], by simpa [Blank, hd] using hc, by simp [dropOne, hd]⟩
    · exact ⟨[], List.forall_mem_nil _, by simp [dropOne, hd]⟩

lemma isBlank_of_isIndent {c : Char} (h : isIndent c = true) : isBlank c = true := by
  simp only [isIndent, Bool.or_eq_true, beq_iff_eq] at h
  rcases h with rfl | rfl <;> decide

/-- Behind the name of a language nothing but blanks is dropped. -/
lemma exists_dropLanguage (hlang : ∀ c ∈ lang, isLanguageChar c = true)
    (hrest : ∀ c ∈ rest.head?, isLanguageChar c = false) :
    ∃ w, Blank w ∧ rest = w ++ dropLanguage (lang ++ rest) := by
  have hname : (lang ++ rest).dropWhile isLanguageChar = rest := by
    rw [List.dropWhile_append_of_pos hlang]
    cases rest with
    | nil => rfl
    | cons c rest => exact List.dropWhile_cons_of_neg (by simpa using hrest)
  obtain ⟨a, ha, hra⟩ := exists_dropOne (c := '\r') (by decide) (rest.dropWhile isIndent)
  obtain ⟨b, hb, hrb⟩ := exists_dropOne (c := '\n') (by decide)
    (dropOne '\r' (rest.dropWhile isIndent))
  have hindent : Blank (rest.takeWhile isIndent) := fun c hc =>
    isBlank_of_isIndent (List.mem_takeWhile_imp hc)
  refine ⟨rest.takeWhile isIndent ++ (a ++ b),
    blank_append.mpr ⟨hindent, blank_append.mpr ⟨ha, hb⟩⟩, ?_⟩
  rw [dropLanguage, hname, List.append_assoc, List.append_assoc, ← hrb, ← hra,
    List.takeWhile_append_dropWhile]

/-- **A text between two fences is found**, up to the blanks around it, and nothing else is. -/
theorem fencedBlock?_eq_some_iff :
    (fencedBlock? text).map trim = some t ↔ ∃ body, Fenced text body ∧ trim body = t := by
  constructor
  · intro h
    obtain ⟨b, hb, rfl⟩ := Option.map_eq_some_iff.mp h
    unfold fencedBlock? at hb
    split at hb
    · next p rest hsplit =>
      obtain ⟨⟨b, left⟩, hsplit', rfl⟩ := Option.map_eq_some_iff.mp hb
      obtain ⟨hp, rfl⟩ := (splitAtMark?_eq_some_iff fence_ne_nil).mp hsplit
      have hlang : ∀ c ∈ rest.takeWhile isLanguageChar, isLanguageChar c = true :=
        fun c hc => List.mem_takeWhile_imp hc
      have hrest : ∀ c ∈ (rest.dropWhile isLanguageChar).head?, isLanguageChar c = false := by
        intro c hc
        obtain ⟨t, ht⟩ := List.head?_eq_some_iff.mp hc
        exact stop_of_dropWhile ht
      -- the language is dropped, and at most blanks with it
      obtain ⟨w, hw, hdrop⟩ := exists_dropLanguage hlang hrest
      rw [List.takeWhile_append_dropWhile] at hdrop
      have hb := ((splitAtMark?_eq_some_iff fence_ne_nil).mp hsplit').1
      refine ⟨w ++ b, ⟨p, _, _, hp, by rw [List.takeWhile_append_dropWhile], hlang, hrest, ?_⟩,
        trim_blank_append hw⟩
      rw [hdrop]
      exact (before_fence_append hw).mpr ⟨b, rfl, hb⟩
    · cases hb
  · rintro ⟨body, ⟨p, lang, rest, hp, rfl, hlang, hrest, hbody⟩, rfl⟩
    obtain ⟨w, hw, hdrop⟩ := exists_dropLanguage hlang hrest
    rw [hdrop] at hbody
    obtain ⟨b, rfl, hb⟩ := (before_fence_append hw).mp hbody
    obtain ⟨left, hleft⟩ := hb.1
    have hsplit := (splitAtMark?_eq_some_iff fence_ne_nil).mpr ⟨hp, rfl⟩
    have hsplit' := (splitAtMark?_eq_some_iff fence_ne_nil).mpr
      ⟨hb, (hleft.symm.trans (List.append_assoc _ _ _))⟩
    rw [fencedBlock?, hsplit]
    simp [hsplit', trim_blank_append hw]

end Fences

/-! ### The first block of braces -/

/-- What may stand between the quotes of a string: a quote only behind a backslash. -/
inductive Quoted : List Char → Prop
  | nil : Quoted []
  | char {c : Char} {u : List Char} : c ≠ '"' → c ≠ '\\' → Quoted u → Quoted (c :: u)
  | escape {c : Char} {u : List Char} : Quoted u → Quoted ('\\' :: c :: u)

/-- What may stand between a brace and its partner. -/
inductive Inside : List Char → Prop
  | nil : Inside []
  | char {c : Char} {u : List Char} :
      c ≠ '"' → c ≠ '\x7b' → c ≠ '\x7d' → Inside u → Inside (c :: u)
  | string {q u : List Char} : Quoted q → Inside u → Inside ('"' :: (q ++ '"' :: u))
  | block {v u : List Char} : Inside v → Inside u → Inside ('\x7b' :: (v ++ '\x7d' :: u))

/-- **The block from the first opening brace of a text to the partner of that brace.** -/
def OuterBlock (text block : List Char) : Prop :=
  ∃ p v s, text = p ++ (block ++ s) ∧ '\x7b' ∉ p ∧ Inside v ∧ block = '\x7b' :: (v ++ ['\x7d'])

/-- A text that ends with the partner of the last of `depth` open braces. -/
inductive Closes : ℕ → List Char → Prop
  | done : Closes 0 []
  | close {d : ℕ} {v u : List Char} : Inside v → Closes d u → Closes (d + 1) (v ++ '\x7d' :: u)

section Braces

variable {text b u v q : List Char} {c : Char} {d : ℕ}

lemma Closes.char (hq : c ≠ '"') (ho : c ≠ '\x7b') (hc : c ≠ '\x7d') (h : Closes (d + 1) u) :
    Closes (d + 1) (c :: u) := by
  obtain _ | ⟨hv, hu⟩ := h
  exact .close (.char hq ho hc hv) hu

lemma Closes.string (hq : Quoted q) (h : Closes (d + 1) u) :
    Closes (d + 1) ('"' :: (q ++ '"' :: u)) := by
  obtain _ | @⟨_, v, u, hv, hu⟩ := h
  have := Closes.close (.string hq hv) hu
  simpa using this

lemma Closes.block (h : Closes (d + 2) u) : Closes (d + 1) ('\x7b' :: u) := by
  obtain _ | @⟨_, v, u, hv, hu⟩ := h
  obtain _ | @⟨_, v', u, hv', hu⟩ := hu
  have := Closes.close (.block hv hv') hu
  simpa using this

/-- What the search for the closing brace passes over, outside of a string, in one, and behind a
backslash in one. -/
structure Passes (cs : List Char) : Prop where
  outside {d n : ℕ} : balancedLength false false (d + 1) cs = some n → Closes (d + 1) (cs.take n)
  quoted {d n : ℕ} : balancedLength true false (d + 1) cs = some n →
    ∃ q u, Quoted q ∧ Closes (d + 1) u ∧ cs.take n = q ++ '"' :: u
  escaped {d n : ℕ} : balancedLength true true (d + 1) cs = some n →
    ∃ c q u, Quoted q ∧ Closes (d + 1) u ∧ cs.take n = c :: (q ++ '"' :: u)

lemma Passes.outside_cons {cs : List Char} {n : ℕ} (hcs : Passes cs)
    (h : balancedLength false false (d + 1) (c :: cs) = some n) :
    Closes (d + 1) ((c :: cs).take n) := by
  simp only [balancedLength, Bool.false_eq_true, if_false] at h
  split_ifs at h with hq ho hc hd
  · obtain ⟨m, hm, rfl⟩ := Option.map_eq_some_iff.mp h
    obtain ⟨q, u, hquoted, hu, htake⟩ := hcs.quoted hm
    rw [List.take_succ_cons, htake, hq]
    exact hu.string hquoted
  · obtain ⟨m, hm, rfl⟩ := Option.map_eq_some_iff.mp h
    rw [List.take_succ_cons, ho]
    exact (hcs.outside hm).block
  · obtain rfl : d = 0 := by omega
    obtain rfl : 1 = n := Option.some.inj h
    rw [List.take_succ_cons, hc]
    exact .close .nil .done
  · obtain ⟨m, hm, rfl⟩ := Option.map_eq_some_iff.mp h
    obtain ⟨d, rfl⟩ : ∃ k, d = k + 1 := ⟨d - 1, by omega⟩
    rw [List.take_succ_cons, hc]
    exact .close .nil (hcs.outside hm)
  · obtain ⟨m, hm, rfl⟩ := Option.map_eq_some_iff.mp h
    rw [List.take_succ_cons]
    exact (hcs.outside hm).char hq ho hc

lemma Passes.quoted_cons {cs : List Char} {n : ℕ} (hcs : Passes cs)
    (h : balancedLength true false (d + 1) (c :: cs) = some n) :
    ∃ q u, Quoted q ∧ Closes (d + 1) u ∧ (c :: cs).take n = q ++ '"' :: u := by
  simp only [balancedLength, if_true, Bool.false_eq_true, if_false] at h
  split_ifs at h with hb
  · obtain ⟨m, hm, rfl⟩ := Option.map_eq_some_iff.mp h
    obtain ⟨e, q, u, hquoted, hu, htake⟩ := hcs.escaped hm
    exact ⟨'\\' :: e :: q, u, hquoted.escape, hu, by rw [List.take_succ_cons, htake, hb]; rfl⟩
  · obtain ⟨m, hm, rfl⟩ := Option.map_eq_some_iff.mp h
    by_cases hq : c = '"'
    · have hclosed : (c != '"') = false := by simp [hq]
      rw [hclosed] at hm
      exact ⟨[], cs.take m, .nil, hcs.outside hm, by rw [List.take_succ_cons, hq]; rfl⟩
    · have hopen : (c != '"') = true := by simp [hq]
      rw [hopen] at hm
      obtain ⟨q, u, hquoted, hu, htake⟩ := hcs.quoted hm
      exact ⟨c :: q, u, hquoted.char hq hb, hu, by rw [List.take_succ_cons, htake]; rfl⟩

lemma Passes.escaped_cons {cs : List Char} {n : ℕ} (hcs : Passes cs)
    (h : balancedLength true true (d + 1) (c :: cs) = some n) :
    ∃ e q u, Quoted q ∧ Closes (d + 1) u ∧ (c :: cs).take n = e :: (q ++ '"' :: u) := by
  simp only [balancedLength, if_true] at h
  obtain ⟨m, hm, rfl⟩ := Option.map_eq_some_iff.mp h
  obtain ⟨q, u, hquoted, hu, htake⟩ := hcs.quoted hm
  exact ⟨c, q, u, hquoted, hu, by rw [List.take_succ_cons, htake]⟩

lemma passes (cs : List Char) : Passes cs := by
  induction cs with
  | nil => constructor <;> simp [balancedLength]
  | cons c cs ih => exact ⟨ih.outside_cons, ih.quoted_cons, ih.escaped_cons⟩

lemma balancedLength_quoted (hq : Quoted q) (d : ℕ) (t : List Char) :
    balancedLength true false d (q ++ '"' :: t) =
      (balancedLength false false d t).map (· + (q.length + 1)) := by
  induction hq with
  | nil => simp [balancedLength]
  | @char c _ hq hb _ ih =>
    have hopen : (c != '"') = true := by simp [hq]
    simp [balancedLength, hb, hopen, ih, Function.comp_def, Nat.add_assoc]
  | escape _ ih => simp [balancedLength, ih, Function.comp_def, Nat.add_assoc]

lemma balancedLength_inside (hv : Inside v) (d : ℕ) (t : List Char) :
    balancedLength false false (d + 1) (v ++ t) =
      (balancedLength false false (d + 1) t).map (· + v.length) := by
  induction hv generalizing d t with
  | nil => simp
  | char hq ho hc _ ih =>
    simp [balancedLength, hq, ho, hc, ih, Function.comp_def, Nat.add_assoc]
  | string hq _ ih =>
    simp [balancedLength, balancedLength_quoted hq, ih, Function.comp_def, Nat.add_assoc,
      Nat.add_comm, Nat.add_left_comm]
  | block _ _ ihv ihu =>
    simp [balancedLength, ihv, ihu, Function.comp_def, Nat.add_assoc, Nat.add_comm,
      Nat.add_left_comm]

/-- **The block of the first brace is found if that brace has a partner**, and nothing else is. -/
theorem outerBlock?_eq_some_iff : outerBlock? text = some b ↔ OuterBlock text b := by
  constructor
  · intro h
    -- without a brace there is no block
    have hmem : '\x7b' ∈ text := by
      by_contra hno
      have hnil : text.dropWhile (· != '\x7b') = [] := by
        rw [List.dropWhile_eq_nil_iff]
        intro c hc
        rw [bne_iff_ne]
        rintro rfl
        exact hno hc
      simp [outerBlock?, hnil] at h
    obtain ⟨p, cs, rfl, hp⟩ := List.eq_append_cons_of_mem hmem
    rw [outerBlock?_of_first hp, Option.map_eq_some_iff] at h
    obtain ⟨n, hn, rfl⟩ := h
    obtain ⟨v, hv, htake⟩ : ∃ v, Inside v ∧ cs.take n = v ++ ['\x7d'] := by
      generalize cs.take n = u, (passes cs).outside hn = hu
      obtain _ | ⟨hv, hu⟩ := hu
      obtain _ | _ := hu
      exact ⟨_, hv, rfl⟩
    refine ⟨p, v, cs.drop n, ?_, hp, hv, by rw [htake]⟩
    rw [List.cons_append, List.take_append_drop]
  · rintro ⟨p, v, s, rfl, hp, hv, rfl⟩
    have htext : p ++ ('\x7b' :: (v ++ ['\x7d']) ++ s) = p ++ '\x7b' :: (v ++ '\x7d' :: s) := by
      simp
    have hlen : balancedLength false false 1 (v ++ '\x7d' :: s) = some (v.length + 1) := by
      rw [balancedLength_inside hv 0]
      simp [balancedLength, Nat.add_comm]
    rw [htext, outerBlock?_of_first hp, hlen, Option.map_some, take_close]

end Braces

/-! ### Flat blocks -/

lemma flatBlocksFrom_open (since : Option (List Char)) (a t : List Char) :
    ∃ found, flatBlocksFrom since (a ++ '\x7b' :: t) =
      found ++ flatBlocksFrom (some ['\x7b']) t := by
  induction a generalizing since with
  | nil => exact ⟨[], by simp [flatBlocksFrom]⟩
  | cons c a ih =>
    simp only [List.cons_append, flatBlocksFrom]
    split_ifs
    · exact ih _
    · cases since with
      | none => exact ih _
      | some before =>
        obtain ⟨found, hfound⟩ := ih none
        exact ⟨(c :: before).reverse :: found, by simp [hfound]⟩
    · exact ih _

/-- **Every pair of braces with no brace between is found**, and nothing else is. -/
theorem mem_flatBlocks_iff {text f : List Char} : f ∈ flatBlocks text ↔
    ∃ x, Braceless x ∧ f = '\x7b' :: (x ++ ['\x7d']) ∧ f <:+: text := by
  constructor
  · intro h
    obtain ⟨a, x, b, hx, rfl, rfl⟩ := mem_flatBlocks h
    exact ⟨x, hx, rfl, a, b, by simp⟩
  · rintro ⟨x, hx, rfl, a, b, rfl⟩
    have htext : a ++ '\x7b' :: (x ++ ['\x7d']) ++ b = a ++ '\x7b' :: (x ++ '\x7d' :: b) := by
      simp
    obtain ⟨found, hfound⟩ := flatBlocksFrom_open none a (x ++ '\x7d' :: b)
    rw [flatBlocks, htext, hfound, List.mem_append, flatBlocksFrom_braceless hx]
    exact .inr (by simp [flatBlocksFrom])

end CodeHealth.Proofs.ReplyPlaces
