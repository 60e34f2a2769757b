import CodeHealth.Json.Writer
import CodeHealth.Proofs.JsonReader

/-!
What is written is read.

A value that is written with one item a line is a text of that value, whatever stands in its
strings, so reading gives it back. Numbers are the exception: a whole number has to fit its word,
and a floating point number has to be one that its digits stand for.
-/

namespace CodeHealth.Proofs.JsonWriter

open CodeHealth.Json CodeHealth.Proofs.JsonText CodeHealth.Proofs.JsonLeaves
open CodeHealth.Proofs.JsonReader

/-! ### Strings -/

lemma hexValue?_hexDigit : ∀ n < 16, hexValue? (hexDigit n) = some n := by decide

lemma unicode_control {c : Char} (hc : c.toNat < 0x20) :
    Unicode ['0', '0', hexDigit (c.toNat / 16), hexDigit (c.toNat % 16)] c := by
  have hzero : hexValue? '0' = some 0 := by decide
  have hhigh := hexValue?_hexDigit (c.toNat / 16) (by omega)
  have hlow := hexValue?_hexDigit (c.toNat % 16) (by omega)
  have hunit := Unit16.mk hzero hzero hhigh hlow
  have hvalue : ((0 * 16 + 0) * 16 + c.toNat / 16) * 16 + c.toNat % 16 = c.toNat := by omega
  rw [hvalue] at hunit
  have hsingle := Unicode.single hunit (by simp [isTrailing]; omega) (by simp [isLeading]; omega)
  rwa [Char.ofNat_toNat] at hsingle

lemma chars_escapeChar (c : Char) {u ds : List Char} (h : Chars u ds) :
    Chars (escapeChar c ++ u) (c :: ds) := by
  unfold escapeChar
  split_ifs with hq hb hn hr ht hbs hff hctl
  · subst hq; exact .escape (.letter rfl) h
  · subst hb; exact .escape (.letter rfl) h
  · subst hn; exact .escape (.letter rfl) h
  · subst hr; exact .escape (.letter rfl) h
  · subst ht; exact .escape (.letter rfl) h
  · subst hbs; exact .escape (.letter rfl) h
  · subst hff; exact .escape (.letter rfl) h
  · exact .escape (.unicode (unicode_control hctl)) h
  · exact .plain hq hb (Nat.not_lt.mp hctl) h

lemma chars_escape (cs : List Char) : Chars (cs.flatMap escapeChar) cs := by
  induction cs with
  | nil => exact .nil
  | cons c cs ih => exact chars_escapeChar c ih

lemma toList_quote (s : String) :
    (quote s).toList = '"' :: (s.toList.flatMap escapeChar ++ ['"']) := by
  simp [quote]

/-! ### Numbers -/

lemma digits_toDigits (n : ℕ) : Digits (Nat.toDigits 10 n) :=
  ⟨Nat.toDigits_ne_nil, fun _ => Nat.isDigit_of_mem_toDigits (by decide) (by decide)⟩

lemma digitsValue_toDigits (n : ℕ) : digitsValue (Nat.toDigits 10 n) = n := by
  have hvalue := Nat.ofDigitChars_toDigits (b := 10) (n := n) (by decide) (by decide)
  rw [Nat.ofDigitChars_eq_foldl] at hvalue
  simpa [digitsValue, Nat.mul_comm] using hvalue

lemma whole_toDigits (n : ℕ) : Whole (Nat.toDigits 10 n) := by
  induction n using Nat.strong_induction_on with
  | _ n ih =>
    by_cases hn : n < 10
    · rw [Nat.toDigits_of_lt_base hn]
      have hall : ∀ n < 10, n = 0 ∨ (Nat.digitChar n).isDigit = true ∧ Nat.digitChar n ≠ '0' := by
        decide
      rcases hall n hn with rfl | ⟨hdigit, hne⟩
      · exact .zero
      · exact .digits ⟨by simp, by simpa using hdigit⟩ (by simpa using hne)
    · have hdigits := digits_toDigits n
      rw [Nat.toDigits_eq_if (by decide), if_neg hn] at hdigits ⊢
      refine .digits hdigits ?_
      have hvalue := digitsValue_toDigits (n / 10)
      have hdiv := ih (n / 10) (by omega)
      generalize Nat.toDigits 10 (n / 10) = ds at hdiv hvalue ⊢
      cases hdiv with
      | zero =>
        have hzero : n / 10 = 0 := hvalue.symm
        omega
      | digits hds hne =>
        obtain ⟨c, cs, rfl⟩ := List.exists_cons_of_ne_nil hds.1
        simpa using hne

lemma number_natural {n : ℕ} (h : n < Word.bound64) :
    Number false (toString (n : ℤ)).toList (.integer n) := by
  have htext : (toString (n : ℤ)).toList = Nat.toDigits 10 n ++ ([] ++ []) := by
    change (toString n).toList = _
    simp
  rw [htext]
  refine ⟨_, .mk (whole_toDigits n) .none .none, ?_⟩
  simp [Numeral.toJson?, digitsValue_toDigits, h]

/-- Values that are read back once they are written, with containers nested less than the given
depth. -/
inductive Readable : ℕ → Json → Prop
  | null {d : ℕ} : Readable d .null
  | bool {d : ℕ} (b : Bool) : Readable d (.bool b)
  | natural {d n : ℕ} : n < Word.bound64 → Readable d (.integer n)
  | float {d : ℕ} {x : Float} : Number false (writeFloat x).toList (.float x) →
      Readable d (.float x)
  | string {d : ℕ} (s : String) : Readable d (.string s)
  | array {d : ℕ} {items : List Json} : (∀ j ∈ items, Readable (d + 1) j) →
      Readable (d + 2) (.array items)
  | object {d : ℕ} {fields : List (String × Json)} : (∀ f ∈ fields, Readable (d + 1) f.2) →
      Readable (d + 2) (.object fields)

/-! ### Values -/

lemma spaces_newline (depth : ℕ) : Spaces (newline depth).toList := by
  have hbreak : isSpace '\n' = true := rfl
  have hblank : isSpace ' ' = true := rfl
  simp [Spaces, newline, hbreak, hblank]

section

variable {d depth : ℕ}

lemma written_prettyItems {items : List Json} (hne : items ≠ [])
    (h : ∀ j ∈ items, Written d (.value j) (prettyAt depth j).toList) :
    Written d (.items true items) (prettyItems depth items).toList ∧
      Written d (.items false items) (',' :: (prettyItems depth items).toList) := by
  induction items with
  | nil => exact absurd rfl hne
  | cons j rest ih =>
    obtain ⟨hj, hrest⟩ := List.forall_mem_cons.mp h
    obtain ⟨v, hv, htext⟩ : ∃ v, Written d (.items false rest) v ∧
        (prettyItems depth (j :: rest)).toList =
          (newline depth).toList ++ ((prettyAt depth j).toList ++ v) := by
      cases rest with
      | nil => exact ⟨[], .noItems, by simp [prettyItems]⟩
      | cons k rest => exact ⟨_, (ih (List.cons_ne_nil k rest) hrest).2, by simp [prettyItems]⟩
    rw [htext]
    have hspaces := spaces_newline depth
    exact ⟨.item (.first hspaces) hj hv, .item (.next spaces_nil hspaces) hj hv⟩

lemma written_prettyFields {fields : List (String × Json)} (hne : fields ≠ [])
    (h : ∀ f ∈ fields, Written d (.value f.2) (prettyAt depth f.2).toList) :
    Written d (.fields true fields) (prettyFields depth fields).toList ∧
      Written d (.fields false fields) (',' :: (prettyFields depth fields).toList) := by
  induction fields with
  | nil => exact absurd rfl hne
  | cons f rest ih =>
    obtain ⟨k, j⟩ := f
    obtain ⟨hj, hrest⟩ := List.forall_mem_cons.mp h
    obtain ⟨v, hv, htext⟩ : ∃ v, Written d (.fields false rest) v ∧
        (prettyFields depth ((k, j) :: rest)).toList = (newline depth).toList ++
          '"' :: (k.toList.flatMap escapeChar ++ '"' :: ([] ++ ':' :: ([' '] ++
            ((prettyAt depth j).toList ++ v)))) := by
      cases rest with
      | nil => exact ⟨[], .noFields, by simp [prettyFields, toList_quote]⟩
      | cons f rest =>
        exact ⟨_, (ih (List.cons_ne_nil f rest) hrest).2, by simp [prettyFields, toList_quote]⟩
    have hspaces := spaces_newline depth
    have hblank : Spaces [' '] := List.forall_mem_singleton.mpr rfl
    have hname := chars_escape k.toList
    have hfirst := Written.field (.first hspaces) hname spaces_nil hblank hj hv
    have hnext := Written.field (.next spaces_nil hspaces) hname spaces_nil hblank hj hv
    rw [String.ofList_toList] at hfirst hnext
    rw [htext]
    exact ⟨hfirst, hnext⟩

/-- **A readable value is written as a text of it.** -/
theorem written_prettyAt {j : Json} (h : Readable d j) (depth : ℕ) :
    Written d (.value j) (prettyAt depth j).toList := by
  -- an empty list and an empty object are written without a break
  induction h generalizing depth with
  | null => simpa [prettyAt] using Written.null
  | bool b =>
    cases b
    · simpa [prettyAt] using Written.false
    · simpa [prettyAt] using Written.true
  | natural hn => exact .number (number_natural hn)
  | float hx => exact .number hx
  | string s =>
    have hs := chars_escape s.toList
    rw [prettyAt, toList_quote]
    simpa using Written.string hs
  | @array d items _ ih =>
    cases items with
    | nil => simpa [prettyAt] using Written.array .noItems spaces_nil
    | cons j rest =>
      have hitems := (written_prettyItems (List.cons_ne_nil j rest)
        fun k hk => ih k hk (depth + 1)).1
      simpa [prettyAt] using Written.array hitems (spaces_newline depth)
  | @object d fields _ ih =>
    cases fields with
    | nil => simpa [prettyAt] using Written.object .noFields spaces_nil
    | cons f rest =>
      have hfields := (written_prettyFields (List.cons_ne_nil f rest)
        fun g hg => ih g hg (depth + 1)).1
      simpa [prettyAt] using Written.object hfields (spaces_newline depth)

/-- **Reading what was written** gives the value back. -/
theorem read?_pretty {j : Json} (h : Readable depthLimit j) : read? j.pretty.toList = some j :=
  read?_of_written (written_prettyAt h 0)

end

end CodeHealth.Proofs.JsonWriter
