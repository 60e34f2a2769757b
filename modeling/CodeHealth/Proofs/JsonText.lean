import CodeHealth.Json.Reader
import Mathlib.Data.List.Basic

/-!
JSON texts, and what they stand for.

A text is described without regard to how it is read: blanks between the parts, the characters of
strings, the digits of numbers, and values within values. Containers may be nested as deep as the
depth allows. A value is written without the blanks around it.
-/

namespace CodeHealth.Proofs.JsonText

open CodeHealth.Json

/-- Blanks between the parts of a text. -/
def Spaces (ws : List Char) : Prop := ∀ c ∈ ws, isSpace c = true

@[simp] lemma spaces_nil : Spaces [] := by simp [Spaces]

lemma spaces_append {u v : List Char} (hu : Spaces u) (hv : Spaces v) : Spaces (u ++ v) :=
  List.forall_mem_append.mpr ⟨hu, hv⟩

/-! ### Strings -/

/-- The four digits of a 16-bit unit, and its value. -/
inductive Unit16 : List Char → ℕ → Prop
  | mk {a b c d : Char} {w x y z : ℕ} : hexValue? a = some w → hexValue? b = some x →
      hexValue? c = some y → hexValue? d = some z →
      Unit16 [a, b, c, d] (((w * 16 + x) * 16 + y) * 16 + z)

/-- The digits behind `\u`, and the character they stand for. -/
inductive Unicode : List Char → Char → Prop
  | single {hs : List Char} {n : ℕ} : Unit16 hs n → isTrailing n = false → isLeading n = false →
      Unicode hs (Char.ofNat n)
  | pair {hs ls : List Char} {n m : ℕ} : Unit16 hs n → isTrailing n = false →
      isLeading n = true → Unit16 ls m → isTrailing m = true →
      Unicode (hs ++ '\\' :: 'u' :: ls)
        (Char.ofNat (0x10000 + (n - 0xD800) * 0x400 + (m - 0xDC00)))

/-- What stands behind a backslash, and the character it stands for. -/
inductive Escape : List Char → Char → Prop
  | letter {e d : Char} : escaped? e = some d → Escape [e] d
  | unicode {hs : List Char} {d : Char} : Unicode hs d → Escape ('u' :: hs) d

/-- What stands between the quotes of a string, and the characters it stands for. -/
inductive Chars : List Char → List Char → Prop
  | nil : Chars [] []
  | plain {c : Char} {u ds : List Char} : c ≠ '"' → c ≠ '\\' → 0x20 ≤ c.toNat → Chars u ds →
      Chars (c :: u) (c :: ds)
  | escape {e u ds : List Char} {d : Char} : Escape e d → Chars u ds →
      Chars ('\\' :: (e ++ u)) (d :: ds)

/-! ### Numbers -/

def Digits (ds : List Char) : Prop := ds ≠ [] ∧ ∀ c ∈ ds, c.isDigit = true

/-- Digits before the point: a leading zero stands alone. -/
inductive Whole : List Char → Prop
  | zero : Whole ['0']
  | digits {ds : List Char} : Digits ds → ds.head? ≠ some '0' → Whole ds

inductive Fraction : List Char → Option (List Char) → Prop
  | none : Fraction [] none
  | some {ds : List Char} : Digits ds → Fraction ('.' :: ds) (some ds)

/-- The sign of an exponent, and whether it is negative. -/
inductive Sign : List Char → Bool → Prop
  | none : Sign [] false
  | plus : Sign ['+'] false
  | minus : Sign ['-'] true

inductive Exponent : List Char → Option (Bool × List Char) → Prop
  | none : Exponent [] none
  | some {e : Char} {s ds : List Char} {down : Bool} : e = 'e' ∨ e = 'E' → Sign s down →
      Digits ds → Exponent (e :: (s ++ ds)) (some (down, ds))

/-- A number without its sign. -/
inductive Unsigned (negative : Bool) : List Char → Numeral → Prop
  | mk {w f e : List Char} {fraction : Option (List Char)} {exponent : Option (Bool × List Char)} :
      Whole w → Fraction f fraction → Exponent e exponent →
      Unsigned negative (w ++ (f ++ e)) ⟨negative, w, fraction, exponent⟩

def Number (negative : Bool) (u : List Char) (j : Json) : Prop :=
  ∃ n, Unsigned negative u n ∧ n.toJson? = some j

/-! ### Values -/

/-- What stands before an item or a field: blanks, and a comma unless it is the first one. -/
inductive Sep : Bool → List Char → Prop
  | first {ws : List Char} : Spaces ws → Sep true ws
  | next {ws ws' : List Char} : Spaces ws → Spaces ws' → Sep false (ws ++ ',' :: ws')

lemma sep_append {first : Bool} {s ws : List Char} (hs : Sep first s) (hws : Spaces ws) :
    Sep first (s ++ ws) := by
  cases hs with
  | first h => exact .first (spaces_append h hws)
  | next h h' =>
    rw [List.append_assoc, List.cons_append]
    exact .next h (spaces_append h' hws)

/-- What a stretch of a text stands for: a value, or the items or fields of a container, with
whether the first of them is the first of all. -/
inductive Part
  | value (j : Json)
  | items (first : Bool) (js : List Json)
  | fields (first : Bool) (fs : List (String × Json))

/-- **How values are written**, with containers nested less than the given depth. -/
inductive Written : ℕ → Part → List Char → Prop
  | null {d : ℕ} : Written d (.value .null) ['n', 'u', 'l', 'l']
  | true {d : ℕ} : Written d (.value (.bool true)) ['t', 'r', 'u', 'e']
  | false {d : ℕ} : Written d (.value (.bool false)) ['f', 'a', 'l', 's', 'e']
  | string {d : ℕ} {u ds : List Char} : Chars u ds →
      Written d (.value (.string (String.ofList ds))) ('"' :: (u ++ ['"']))
  | number {d : ℕ} {u : List Char} {j : Json} : Number Bool.false u j → Written d (.value j) u
  | negative {d : ℕ} {u : List Char} {j : Json} : Number Bool.true u j →
      Written d (.value j) ('-' :: u)
  | array {d : ℕ} {u ws : List Char} {js : List Json} : Written (d + 1) (.items Bool.true js) u →
      Spaces ws → Written (d + 2) (.value (.array js)) ('[' :: (u ++ (ws ++ [']'])))
  | object {d : ℕ} {u ws : List Char} {fs : List (String × Json)} :
      Written (d + 1) (.fields Bool.true fs) u → Spaces ws →
      Written (d + 2) (.value (.object fs)) ('\x7b' :: (u ++ (ws ++ ['\x7d'])))
  | noItems {d : ℕ} {first : Bool} : Written d (.items first []) []
  | item {d : ℕ} {first : Bool} {s u v : List Char} {j : Json} {js : List Json} : Sep first s →
      Written d (.value j) u → Written d (.items Bool.false js) v →
      Written d (.items first (j :: js)) (s ++ (u ++ v))
  | noFields {d : ℕ} {first : Bool} : Written d (.fields first []) []
  | field {d : ℕ} {first : Bool} {s k ks ws ws' u v : List Char} {j : Json}
      {fs : List (String × Json)} : Sep first s → Chars k ks → Spaces ws → Spaces ws' →
      Written d (.value j) u → Written d (.fields Bool.false fs) v →
      Written d (.fields first ((String.ofList ks, j) :: fs))
        (s ++ '"' :: (k ++ '"' :: (ws ++ ':' :: (ws' ++ (u ++ v)))))

/-- A whole text: a value and blanks around it. -/
def Document (j : Json) (text : List Char) : Prop :=
  ∃ ws u ws', Spaces ws ∧ Written depthLimit (.value j) u ∧ Spaces ws' ∧
    text = ws ++ (u ++ ws')

end CodeHealth.Proofs.JsonText
