import CommandTemplate.Proofs.Untouched

/-!
# Tokens met on the turns

What a text resolves to is decided by the tokens that its variables meet, each in the text that
those before it have left. A variable that meets none is never asked for a value, so nothing needs
to be known of its values.
-/
namespace CommandTemplate

/-- The variable finds the occurrence in the text that the variables before it have left. -/
def Meets (escaper : Option Escaper) (vs : List Variable) (s : List Char) (v : Variable)
    (o : Occurrence) : Prop :=
  ∃ done more t n, vs = done ++ v :: more ∧ turns escaper done s = .ok (t, n) ∧ o ∈ v.found t

section
variable {escaper : Option Escaper} {v w : Variable} {vs : List Variable} {s t : List Char}
  {n : Nat} {o : Occurrence}

theorem Meets.mem (h : Meets escaper vs s w o) : w ∈ vs := by
  obtain ⟨done, more, -, -, rfl, -, -⟩ := h
  simp

theorem Meets.exists_found (h : Meets escaper vs s w o) : ∃ t, o ∈ w.found t := by
  obtain ⟨-, -, t, -, -, -, ho⟩ := h
  exact ⟨t, ho⟩

theorem meets_cons_iff : Meets escaper (v :: vs) s w o ↔ w = v ∧ o ∈ v.found s ∨
    ∃ t n, v.turn escaper s = .ok (t, n) ∧ Meets escaper vs t w o := by
  constructor
  · rintro ⟨done, more, t, n, hsplit, hdone, ho⟩
    cases done with
    | nil =>
      obtain ⟨rfl, -⟩ := List.cons.inj hsplit
      obtain ⟨rfl, -⟩ := Prod.mk.inj (Except.ok.inj hdone)
      exact .inl ⟨rfl, ho⟩
    | cons v' done =>
      obtain ⟨rfl, rfl⟩ := List.cons.inj hsplit
      obtain ⟨u, k, m, hturn, hrest, -⟩ := turns_cons_eq_ok_iff.1 hdone
      exact .inr ⟨u, k, hturn, done, more, t, m, rfl, hrest, ho⟩
  · rintro (⟨rfl, ho⟩ | ⟨u, k, hturn, done, more, t, m, rfl, hrest, ho⟩)
    · exact ⟨[], vs, s, 0, rfl, rfl, ho⟩
    · exact ⟨v :: done, more, t, k + m, rfl,
        turns_cons_eq_ok_iff.2 ⟨u, k, m, hturn, hrest, rfl⟩, ho⟩

/-- The last variable sees what all others have left. -/
theorem meets_concat_iff : Meets escaper (vs ++ [v]) s w o ↔ Meets escaper vs s w o ∨
    w = v ∧ ∃ t n, turns escaper vs s = .ok (t, n) ∧ o ∈ v.found t := by
  constructor
  · rintro ⟨done, more, t, n, hsplit, hdone, ho⟩
    rcases List.eq_nil_or_concat more with rfl | ⟨more, u, rfl⟩
    · obtain ⟨rfl, hlast⟩ := List.append_inj' hsplit rfl
      obtain rfl := List.singleton_inj.1 hlast
      exact .inr ⟨rfl, t, n, hdone, ho⟩
    · rw [List.concat_eq_append, ← List.cons_append, ← List.append_assoc] at hsplit
      obtain ⟨rfl, -⟩ := List.append_inj' hsplit rfl
      exact .inl ⟨done, more, t, n, rfl, hdone, ho⟩
  · rintro (⟨done, more, t, n, rfl, hdone, ho⟩ | ⟨rfl, t, n, hdone, ho⟩)
    · exact ⟨done, more ++ [v], t, n, by simp, hdone, ho⟩
    · exact ⟨vs, [], t, n, rfl, hdone, ho⟩

/-! ## What is found -/

theorem Variable.exists_pattern_of_mem_found (ho : o ∈ v.found s) :
    ∃ p, v.pattern = .ok p ∧ o ∈ p.occurrences s := by
  rw [found] at ho
  split at ho
  · rename_i p hp
    exact ⟨p, hp, ho⟩
  · cases ho

theorem Variable.isTokenOf_of_mem_found (ho : o ∈ v.found s) :
    IsTokenOf v.name v.parameters o.token := by
  obtain ⟨p, hp, ho⟩ := exists_pattern_of_mem_found ho
  obtain ⟨slots, hslots, hof⟩ := TokenPattern.ofSchema_eq_ok v.name (v.exists_pattern_iff.1 ⟨p, hp⟩)
  obtain rfl := Except.ok.inj (hp.symm.trans hslots)
  obtain ⟨before, after, hpieces, -, -⟩ := mem_occurrencesFrom ho
  have hmem : .token o.token ∈ TokenPattern.pieces ⟨v.name.toList, slots⟩ s := by simp [hpieces]
  exact (TokenPattern.derives_iff v.name hof _).1 (TokenPattern.derives_of_mem_pieces hmem)

theorem Variable.exists_argument_of_mem_found {p : Parameter} (hv : v.parameters = [p])
    (ho : o ∈ v.found s) : ∃ a, o.token.arguments = [a] ∧ p.Takes a := by
  have harguments := (isTokenOf_of_mem_found ho).arguments
  rw [hv] at harguments
  generalize o.token.arguments = given at harguments ⊢
  cases harguments with
  | @cons _ a _ rest ha hrest =>
    cases hrest
    exact ⟨a, rfl, ha⟩

/-! ## Whether a text resolves -/

theorem turns_append (h : turns escaper vs s = .ok (t, n)) (ws : List Variable) :
    turns escaper (vs ++ ws) s = (turns escaper ws t).map fun (u, m) => (u, n + m) := by
  induction vs generalizing s n with
  | nil =>
    obtain ⟨rfl, rfl⟩ := Prod.mk.inj (Except.ok.inj h)
    rw [List.nil_append]
    cases turns escaper ws s <;> simp
  | cons v vs ih =>
    obtain ⟨u, k, m, hturn, hrest, rfl⟩ := turns_cons_eq_ok_iff.1 h
    rw [List.cons_append, turns, hturn]
    dsimp only
    rw [ih hrest]
    cases turns escaper ws t <;> simp [Nat.add_assoc]

/-- A turn succeeds just when every occurrence has an answer. -/
theorem Variable.exists_turn_eq_ok_iff : (∃ t n, v.turn escaper s = .ok (t, n)) ↔
    ∀ o ∈ v.found s, ∃ value, v.answerAt o = .ok value := by
  have hout : (∃ out, v.turn escaper s = .ok out) ↔ ∃ t n, v.turn escaper s = .ok (t, n) :=
    Prod.exists
  rw [← hout, turn, exists_map_eq_ok_iff, exists_mapM_eq_ok_iff]
  simp only [replacement, exists_map_eq_ok_iff]

/-- A text resolves if and only if every token that is met has a value. -/
theorem exists_turns_eq_ok_iff : (∃ t n, turns escaper vs s = .ok (t, n)) ↔
    ∀ v o, Meets escaper vs s v o → ∃ value, v.answerAt o = .ok value := by
  induction vs generalizing s with
  | nil => simp [turns, Meets]
  | cons v vs ih =>
    constructor
    · rintro ⟨t, n, h⟩ w o hmeets
      obtain ⟨u, k, m, hturn, hrest, -⟩ := turns_cons_eq_ok_iff.1 h
      rcases meets_cons_iff.1 hmeets with ⟨rfl, ho⟩ | ⟨u', k', hturn', hmeets⟩
      · exact Variable.exists_turn_eq_ok_iff.1 ⟨u, k, hturn⟩ o ho
      · obtain ⟨rfl, rfl⟩ := Prod.mk.inj (Except.ok.inj (hturn'.symm.trans hturn))
        exact ih.1 ⟨t, m, hrest⟩ w o hmeets
    · intro h
      obtain ⟨u, k, hturn⟩ : ∃ u k, v.turn escaper s = .ok (u, k) :=
        Variable.exists_turn_eq_ok_iff.2 fun o ho => h v o (meets_cons_iff.2 (.inl ⟨rfl, ho⟩))
      obtain ⟨t, m, hrest⟩ : ∃ t m, turns escaper vs u = .ok (t, m) :=
        ih.2 fun w o hmeets => h w o (meets_cons_iff.2 (.inr ⟨u, k, hturn, hmeets⟩))
      exact ⟨t, k + m, turns_cons_eq_ok_iff.2 ⟨u, k, m, hturn, hrest, rfl⟩⟩

/-! ## Characters -/

theorem cutAt_parts (n : Nat) (s : List Char) : (cutAt n s).1 ++ (cutAt n s).2 = s := by
  induction s generalizing n with
  | nil => cases n <;> rfl
  | cons c s ih =>
    cases n with
    | zero => rfl
    | succ n => exact congrArg (c :: ·) (ih _)

/-- A spliced text has no characters but its own and those of the values. -/
theorem mem_of_mem_splice {c : Char} {start : Nat} {values : List (Occurrence × List Char)}
    (h : c ∈ splice start values s) : c ∈ s ∨ ∃ e ∈ values, c ∈ e.2 := by
  induction values generalizing start s with
  | nil => exact .inl h
  | cons e values ih =>
    obtain ⟨o, value⟩ := e
    rw [splice] at h
    generalize hkept : cutAt (o.start - start) s = kept at h
    have hs : kept.1 ++ kept.2 = s := by rw [← hkept, cutAt_parts]
    have hrest := cutAt_parts (o.stop - o.start) kept.2
    rcases List.mem_append.1 h with h | h
    · rcases List.mem_append.1 h with h | h
      · exact .inl (hs ▸ List.mem_append_left _ h)
      · exact .inr ⟨(o, value), List.mem_cons_self .., h⟩
    · rcases ih h with h | ⟨e, he, h⟩
      · have hkept2 : c ∈ kept.2 := hrest ▸ List.mem_append_right _ h
        exact .inl (hs ▸ List.mem_append_right _ hkept2)
      · exact .inr ⟨e, List.mem_cons_of_mem _ he, h⟩

/-- A turn brings no characters into a text but those of the values. -/
theorem Variable.mem_of_mem_turn {c : Char} (h : v.turn escaper s = .ok (t, n)) (hc : c ∈ t) :
    c ∈ s ∨ ∃ o ∈ v.found s, ∃ value, v.answerAt o = .ok value ∧
      c ∈ insertedText escaper o.token value := by
  obtain ⟨values, hvalues, hout⟩ := map_eq_ok_iff.1 h
  obtain ⟨rfl, -⟩ := Prod.mk.inj hout
  rcases mem_of_mem_splice hc with hs | ⟨e, he, hc⟩
  · exact .inl hs
  · obtain ⟨o, ho, hreplaced⟩ := mem_of_mapM_eq_ok hvalues he
    obtain ⟨value, hvalue, rfl⟩ := map_eq_ok_iff.1 hreplaced
    exact .inr ⟨o, ho, value, hvalue, hc⟩

theorem Token.mem_text_of_mem_argument {t : Token} {a : List Char} {c : Char}
    (h : some a ∈ t.arguments) (hc : c ∈ a) : c ∈ t.text := by
  have htail : c ∈ tailText t.arguments :=
    List.mem_append_left _ (List.mem_flatMap.2 ⟨some a, h, List.mem_cons_of_mem _ hc⟩)
  simp [text, htail]

theorem Variable.mem_of_mem_found {c : Char} (ho : o ∈ v.found s) (hc : c ∈ o.token.text) :
    c ∈ s := by
  obtain ⟨p, hp, ho⟩ := exists_pattern_of_mem_found ho
  obtain ⟨before, after, hpieces, -, -⟩ := mem_occurrencesFrom ho
  rw [← p.flatMap_text_pieces s, hpieces]
  simp [hc]

/-- A character that is neither in the text nor in the values of the tokens that are met is in
none of these tokens. -/
theorem Meets.not_mem {c : Char} (h : Meets escaper vs s w o) (hs : c ∉ s)
    (hvalues : ∀ v o value, Meets escaper vs s v o → v.answerAt o = .ok value →
      c ∉ insertedText escaper o.token value) : c ∉ o.token.text := by
  induction vs generalizing s with
  | nil => simp [Meets] at h
  | cons v vs ih =>
    rcases meets_cons_iff.1 h with ⟨rfl, ho⟩ | ⟨t, n, hturn, h⟩
    · exact fun hc => hs (Variable.mem_of_mem_found ho hc)
    · refine ih h (fun hc => ?_) fun v' o' value hmeets =>
        hvalues v' o' value (meets_cons_iff.2 (.inr ⟨t, n, hturn, hmeets⟩))
      rcases Variable.mem_of_mem_turn hturn hc with hc | ⟨o', ho', value, hvalue, hc⟩
      · exact hs hc
      · exact hvalues v o' value (meets_cons_iff.2 (.inl ⟨rfl, ho'⟩)) hvalue hc

end

/-! ## Instances -/

/-- Only the variables that meet tokens have to be regular. -/
theorem exists_resolveText_of_met (escaper : Option Escaper) {vs : List Instance} {s : List Char}
    (hvs : ∀ v ∈ vs, WellFormed v.base.parameters)
    (hmet : ∀ v o, Meets escaper (vs.map (·.base)) s v o → v.Regular) :
    ∃ left, resolveText escaper vs s = .ok (left, turns escaper (vs.map (·.base)) s) := by
  induction vs generalizing s with
  | nil => exact ⟨[], rfl⟩
  | cons v vs ih =>
    obtain ⟨hv, hvs⟩ := List.forall_mem_cons.1 hvs
    obtain ⟨p, hp⟩ := v.base.exists_pattern_iff.2 hv
    rw [List.map_cons] at hmet ⊢
    have hturn : (v.substitute escaper (p.pieces s)).2 = v.base.turn escaper s := by
      -- a variable that finds nothing is not asked, so only the other case looks at its values
      cases hfound : v.base.found s with
      | nil =>
        rw [Variable.pieces_of_found_eq_nil hp hfound, Instance.substitute_chars,
          Variable.turn_of_found_eq_nil hfound]
      | cons o os =>
        have hregular := hmet v.base o (meets_cons_iff.2 (.inl ⟨rfl, by simp [hfound]⟩))
        rw [Instance.substitute_eq_substituted escaper hregular.determined,
          Variable.substituted_eq_turn escaper hregular.names hp]
    rcases hsub : v.substitute escaper (p.pieces s) with ⟨w, messages | ⟨t, n⟩⟩
    · rw [hsub] at hturn
      rw [resolveText_cons_of_failed hp hsub, turns, ← hturn]
      exact ⟨w :: vs, rfl⟩
    · rw [hsub] at hturn
      obtain ⟨left, hleft⟩ := ih hvs fun v' o hmeets =>
        hmet v' o (meets_cons_iff.2 (.inr ⟨t, n, hturn.symm, hmeets⟩))
      rw [resolveText_cons_of_ok hp hsub, hleft, map_ok, turns, ← hturn]
      exact ⟨w :: left, rfl⟩

/-- Variables that meet no token may be of any kind. -/
theorem exists_resolveContent_of_met (escaper : Option Escaper) {vs : List Instance}
    {content : String} (hvs : ∀ v ∈ vs, WellFormed v.base.parameters)
    (hmet : ∀ v o, Meets escaper (vs.map (·.base)) content.toList v o → v.Regular) :
    ∃ left, resolveContent escaper vs content =
      .ok (left, .ofOutcome content (turns escaper (vs.map (·.base)) content.toList)) := by
  obtain ⟨left, hleft⟩ := exists_resolveText_of_met escaper hvs hmet
  refine ⟨left, ?_⟩
  rw [resolveContent, hleft]
  cases turns escaper (vs.map (·.base)) content.toList <;> rfl

end CommandTemplate
