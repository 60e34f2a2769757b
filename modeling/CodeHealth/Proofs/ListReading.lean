import CodeHealth.Proofs.ValueReading

/-!
The script parser reads lists: items in round brackets, arguments of calls and members of objects.

The loops over the items have the same shape, so one notion says how each of them goes on.
-/

namespace CodeHealth.Proofs.ListReading

open CodeHealth.Script CodeHealth.Text CodeHealth.Proofs.ScriptReading
  CodeHealth.Proofs.ValuePhrases CodeHealth.Proofs.ValueReading

variable {g : Grammar} {c c' : Cursor}

/-! ### Items in round brackets -/

/-- The marks that items and members may start with. -/
def itemMarks : List Char := ['(', '\x7b', '.']

/-- A loop over items with commas between them: it ends at the closing mark or behind an item, and
goes on behind a comma. It keeps `Inv` of what it has found, and comes to something of which `Out`
holds. -/
structure ListLoop {α σ ρ : Type} (closer : Char) (item : Parser α) (loop : ℕ → σ → Parser ρ)
    (Item : α → Prop) (Inv : σ → Prop) (Out : ρ → Prop) : Prop where
  done {n : ℕ} {found : σ} {c c' : Cursor} : Inv found → accept [closer] c = .ok (true, c') →
    ∃ out, loop (n + 1) found c = .ok (out, c') ∧ Out out
  last {n : ℕ} {found : σ} {a : α} {c c' c'' : Cursor} : Inv found →
    [closer].isPrefixOf c.rest = false → [','].isPrefixOf c.rest = false →
    item c = .ok (a, c') → Item a → [','].isPrefixOf c'.rest = false →
    expect [closer] c' = .ok ((), c'') → ∃ out, loop (n + 1) found c = .ok (out, c'') ∧ Out out
  next {n : ℕ} {found : σ} {a : α} {c c' c'' : Cursor} : Inv found →
    [closer].isPrefixOf c.rest = false → [','].isPrefixOf c.rest = false →
    item c = .ok (a, c') → Item a → accept [','] c' = .ok (true, c'') →
    ∃ found', Inv found' ∧ loop (n + 1) found c = loop n found' c''

/-- A loop over items reads a text up to its closing mark and the blanks behind it. -/
def ReadsList {σ ρ : Type} (closer : Char) (loop : ℕ → σ → Parser ρ) (Inv : σ → Prop)
    (Out : Position → ρ → Prop) (s : List Char) : Prop :=
  ∀ n found c gap rest, s.length < n → Inv found → c.rest = s ++ closer :: (gap ++ rest) →
    gap.all isAsciiBlank = true → isSolid rest = true →
      ∃ out, loop n found c = .ok (out, past (behind c.place (s ++ [closer])) gap rest) ∧
        Out c.place out

section Lists

variable {α σ ρ : Type} {closer : Char} {item : Parser α} {loop : ℕ → σ → Parser ρ}
  {Item : α → Prop} {Inv : σ → Prop} {Out : ρ → Prop} {s : List Char}

lemma mark_behind {mark : Char} {gap rest : List Char} {p : Position}
    (h : c'.rest = mark :: (gap ++ rest)) (hplace : c'.place = behind p s)
    (hgap : gap.all isAsciiBlank = true) (hrest : isSolid rest = true) :
    accept [mark] c' = .ok (true, past (behind p (s ++ [mark])) gap rest) ∧
      expect [mark] c' = .ok ((), past (behind p (s ++ [mark])) gap rest) := by
  have hc' : c'.rest = [mark] ++ (gap ++ rest) := h
  rw [accept_of hc' hgap hrest, expect_of hc' hgap hrest, hplace, behind_append]
  exact ⟨rfl, rfl⟩

lemma not_opening_of_closes {m : Char} (h : closes [m] = true) :
    (!isWordStart m && !itemMarks.contains m) = true := by
  obtain ⟨d, cs, heq, hd⟩ := exists_of_closes h
  obtain ⟨rfl, -⟩ := List.cons.inj heq
  rcases hd with rfl | rfl | rfl | rfl <;> decide

lemma ListLoop.nil (h : ListLoop closer item loop Item Inv Out) :
    ReadsList closer loop Inv (fun _ => Out) [] := by
  intro n found c gap rest hn hfound hc hgap hrest
  obtain ⟨n, rfl⟩ := Nat.exists_eq_succ_of_ne_zero hn.ne'
  have hc' : c.rest = [closer] ++ (gap ++ rest) := hc
  exact h.done hfound (accept_of hc' hgap hrest)

lemma ListLoop.cons {gap' s' : List Char} (h : ListLoop closer item loop Item Inv Out)
    (hcloser : closes [closer] = true) (hopens : opensWith itemMarks s = true)
    (hitem : ReadsBefore closer item s Item) (hgap' : gap'.all isAsciiBlank = true)
    (hsolid : ∀ rest, isSolid (s' ++ closer :: rest) = true)
    (hmore : ReadsList closer loop Inv (fun _ => Out) s') :
    ReadsList closer loop Inv (fun _ => Out) (s ++ ',' :: (gap' ++ s')) := by
  intro n found c gap rest hn hfound hc hgap hrest
  obtain ⟨n, rfl⟩ := Nat.exists_eq_succ_of_ne_zero (Nat.ne_zero_of_lt hn)
  have hc' : c.rest = s ++ ',' :: (gap' ++ (s' ++ closer :: (gap ++ rest))) := by
    rw [hc]
    simp
  obtain ⟨a, c', hread, hrest', hplace', ha⟩ := hitem c _ hc' (.inr rfl)
  have hstart (m : Char) (hm : closes [m] = true) : [m].isPrefixOf c.rest = false := by
    rw [hc']
    exact isPrefixOf_of_opensWith hopens (not_opening_of_closes hm) _ _
  obtain ⟨found', hfound', hnext⟩ := h.next hfound (hstart closer hcloser) (hstart ',' rfl) hread ha
    (mark_behind hrest' hplace' hgap' (hsolid _)).1
  -- the text behind the comma is shorter, so the fuel lasts
  obtain ⟨out, hloop, hout⟩ := hmore n found'
    (past (behind c.place (s ++ [','])) gap' (s' ++ closer :: (gap ++ rest))) gap rest
    (by simp only [List.length_append, List.length_cons] at hn; omega) hfound' rfl hgap hrest
  refine ⟨out, ?_, hout⟩
  rw [hnext, hloop]
  change Except.ok (_, past (behind (behind _ gap') _) gap rest) = _
  simp only [← behind_append, List.append_assoc, List.cons_append, List.nil_append]

end Lists

section Loops

variable {P : Tree → Prop}

end Loops

/-! ### Items -/

section Items

variable {gap v : List Char} {P : Position → Tree → Prop}

end Items

/-! ### Members of objects -/

section Members

variable {w gap rest : List Char}

end Members

end CodeHealth.Proofs.ListReading
