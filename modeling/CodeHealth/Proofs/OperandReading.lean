import CodeHealth.Proofs.ListReading

/-!
The script parser reads values: names, objects, values in round brackets and arrow functions, with
the accesses and calls behind them.
-/

namespace CodeHealth.Proofs.OperandReading

open CodeHealth.Script CodeHealth.Text CodeHealth.Proofs.ListReading
  CodeHealth.Proofs.ScriptReading CodeHealth.Proofs.ValuePhrases CodeHealth.Proofs.ValueReading

variable {g : Grammar} {c c' : Cursor}

/-! ### Suffixes -/

section Suffixes

variable {gap gap' rest : List Char} {n : ℕ}

end Suffixes

/-! ### Values -/

section Values

variable {gap gap' gap'' : List Char}

lemma unaryLength?_of_opensWith {s : List Char} (h : opensWith ['(', '\x7b', '<'] s = true)
    (rest : List Char) : unaryLength? (s ++ rest) = none := by
  have hne (m : Char) (hm : (!isWordStart m && !(['(', '\x7b', '<'].contains m)) = true) (ms cs) :
      s ++ rest ≠ m :: ms ++ cs := by
    intro heq
    have hprefix : (m :: ms).isPrefixOf (s ++ rest) = true :=
      List.isPrefixOf_iff_prefix.mpr ⟨cs, heq.symm⟩
    rw [isPrefixOf_of_opensWith h hm] at hprefix
    cases hprefix
  unfold unaryLength?
  split
  · rename_i heq
    exact absurd heq (hne '+' (by decide) ['+'] _)
  · rename_i heq
    exact absurd heq (hne '-' (by decide) ['-'] _)
  · rename_i heq
    exact absurd heq (hne '+' (by decide) [] _)
  · rename_i heq
    exact absurd heq (hne '-' (by decide) [] _)
  · rename_i heq
    exact absurd heq (hne '!' (by decide) [] _)
  · rename_i heq
    exact absurd heq (hne '~' (by decide) [] _)
  · rfl

/-- A word at a cursor that is no operator and gives no generator. -/
def IsOperandWord (w : String) : Prop := w ≠ "yield" ∧ unaryWords.contains w = false

lemma isOperandWord_empty : IsOperandWord "" := by
  unfold IsOperandWord
  decide

lemma reads_operand {head ss : List Char} {P : Position → Tree → Prop}
    {Q : Position → Position → Tree → Prop} (hopens : opensWith ['(', '\x7b', '<'] head = true)
    (hfuel : 0 < g.fuel)
    (hhead : ∀ c rest, c.rest = head ++ (gap ++ (ss ++ rest)) → closes rest = true →
      IsOperandWord c.word ∧ ∃ t, g.primary false false c =
        .ok (t, past (behind c.place head) gap (ss ++ rest)) ∧ Grammar.isArrow t = false ∧
          P c.place t)
    (hss : ∀ p t, P p t → Reads (g.postfixFrom false p g.fuel t) ss (Q p)) :
    Reads (g.assignmentRule false false) (head ++ (gap ++ ss))
      fun p => Q p (behind p (head ++ gap)) := by
  intro c rest hc hrest
  have hc' : c.rest = head ++ (gap ++ (ss ++ rest)) := by
    rw [hc]
    simp
  obtain ⟨hword, t, hprimary, harrow, ht⟩ := hhead c rest hc' hrest
  have hmark : unaryLength? c.rest = none := by
    rw [hc']
    exact unaryLength?_of_opensWith hopens _
  obtain ⟨u, c', hpostfix, hrest', hplace', hu⟩ := hss c.place t ht
    (past (behind c.place head) gap (ss ++ rest)) rest rfl hrest
  have hcloses : closes c'.rest = true := by rw [hrest', hrest]
  refine ⟨u, c', ?_, hrest', ?_, ?_⟩
  · refine assignmentRule_of_unary hword.1 hfuel ?_ hcloses
    rw [unary_of_primary hmark hword.2 hprimary, harrow]
    exact hpostfix
  · rw [hplace']
    simp only [past, behind_append]
  · change Q c.place (behind c.place (head ++ gap)) u
    rw [behind_append]
    exact hu

lemma reads_object {b : Bool} {ms ss : List Char} {Q : Position → Position → Tree → Prop}
    (hlist : ReadsList '\x7d' (commaListFrom ['\x7d'] g.objectMember) (∀ t ∈ ·, Fits b t)
      (fun _ out => ∀ t ∈ out, Fits b t) ms)
    (hsolid : ∀ rest, isSolid (ms ++ '\x7d' :: rest) = true) (hlength : ms.length < g.fuel)
    (hgap : gap.all isAsciiBlank = true) (hgap' : gap'.all isAsciiBlank = true)
    (hstops : ∀ rest, closes rest = true → stops (ss ++ rest) = true)
    (hss : ∀ p t, Fits b t → Reads (g.postfixFrom false p g.fuel t) ss (Q p)) :
    Reads (g.assignmentRule false false) ('\x7b' :: (gap ++ (ms ++ ['\x7d'])) ++ (gap' ++ ss))
      fun p => Q p (behind p ('\x7b' :: (gap ++ (ms ++ ['\x7d'])) ++ gap')) := by
  refine reads_operand (P := fun _ => Fits b) rfl
    ((Nat.zero_le _).trans_lt hlength) (fun c rest hc hrest => ?_) ?_
  · have hc' : c.rest = '\x7b' :: (gap ++ (ms ++ '\x7d' :: (gap' ++ (ss ++ rest)))) := by
      rw [hc]
      simp
    have hword : c.word = "" := word_of_endsWord (by rw [hc']; rfl)
    have hskip : Script.skip 1 c =
        .ok ((), past (behind c.place ['\x7b']) gap (ms ++ '\x7d' :: (gap' ++ (ss ++ rest)))) :=
      skip_of (show c.rest = ['\x7b'] ++ _ from hc') hgap (hsolid _)
    obtain ⟨ts, hmembers, hts⟩ := hlist g.fuel []
      (past (behind c.place ['\x7b']) gap (ms ++ '\x7d' :: (gap' ++ (ss ++ rest)))) gap' (ss ++ rest)
      hlength nofun rfl hgap' (isSolid_of_stops (hstops rest hrest))
    refine ⟨hword ▸ isOperandWord_empty, .node .object c.place ts, ?_, rfl, fits_object hts⟩
    rw [primary_object hc', bind_ok hskip]
    change (commaListFrom ['\x7d'] g.objectMember g.fuel [] >>= _) _ = _
    rw [bind_ok hmembers]
    change Except.ok _ = _
    simp only [past, behind_append, behind_cons, behind_nil]
  · exact hss

end Values

end CodeHealth.Proofs.OperandReading
