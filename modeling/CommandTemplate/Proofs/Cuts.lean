import CommandTemplate.Proofs.History
import Mathlib.Data.List.Induction

/-!
# Cutting a list of variables

A list of variables does the same to a content wherever it is cut, within one set and from one phase
to the next: those behind a cut see nothing of those before it but the text. Only the count of a
failure tells where the cut was.
-/
namespace CommandTemplate

/-- The same is said of a content, and of a success also the number of tokens. -/
structure Resolution.Agrees (r r' : Resolution) : Prop where
  content : r.content = r'.content
  resolved : r.resolved = r'.resolved
  succeeded : r.succeeded = r'.succeeded
  messages : r.messages = r'.messages
  count : r.succeeded = true → r.count = r'.count

/-- Resolves a content with one set and then, unless that has failed, what it left with another. -/
def resolveInTurn (escaper : Option Escaper) (vs ws : List Instance) (content : String) :
    Except TemplateError Resolution :=
  match resolveContent escaper vs content with
  | .error e => .error e
  | .ok (_, first) =>
    match first.resolved with
    | none => .ok first
    | some text => (resolveContent escaper ws text).map fun (_, second) => first.merge second

namespace Resolution

variable {r r' r'' : Resolution}

theorem Agrees.refl (r : Resolution) : r.Agrees r := ⟨rfl, rfl, rfl, rfl, fun _ => rfl⟩

theorem Agrees.trans (h : r.Agrees r') (h' : r'.Agrees r'') : r.Agrees r'' where
  content := h.content.trans h'.content
  resolved := h.resolved.trans h'.resolved
  succeeded := h.succeeded.trans h'.succeeded
  messages := h.messages.trans h'.messages
  count hr := (h.count hr).trans (h'.count (h.succeeded ▸ hr))

/-- Successes that agree still agree when both are resolved further. -/
theorem Agrees.merge (h : r.Agrees r') (hr : r.succeeded = true) (next : Resolution) :
    (r.merge next).Agrees (r'.merge next) where
  content := h.content
  resolved := rfl
  succeeded := by simp [h.succeeded]
  messages := by simp [h.messages]
  count _ := by simp [h.count hr]

end Resolution

/-! ## Two sets -/

section

variable {escaper : Option Escaper} {vs left left' : List Instance} {s : List Char}
  {content : String} {first second : Resolution}

/-- More variables go on from the text that is there when all before them have had their turns. -/
theorem resolveText_append {t : List Char} {n : Nat}
    (h : resolveText escaper vs s = .ok (left, .ok (t, n))) (ws : List Instance) :
    resolveText escaper (vs ++ ws) s = (resolveText escaper ws t).map fun (left', o) =>
      (left ++ left', o.map fun (u, m) => (u, n + m)) := by
  induction vs generalizing s left n with
  | nil =>
    simp only [resolveText, Except.ok.injEq, Prod.mk.injEq] at h
    obtain ⟨rfl, rfl, rfl⟩ := h
    rw [List.nil_append]
    cases resolveText escaper ws s with
    | error e => rfl
    | ok out =>
      obtain ⟨left', o⟩ := out
      cases o <;> simp
  | cons v vs ih =>
    obtain ⟨p, w, hp, ⟨messages, -, -, ho⟩ | ⟨u, k, left', o', hsub, hrest, rfl, ho⟩⟩ :=
      resolveText_cons_cases h
    · cases ho
    · obtain ⟨⟨t', m⟩, rfl, ht⟩ := map_eq_ok_iff.1 ho.symm
      obtain ⟨rfl, rfl⟩ := Prod.mk.inj ht
      rw [List.cons_append, resolveText_cons_of_ok hp hsub, ih hrest]
      cases resolveText escaper ws t' with
      | error e => rfl
      | ok out =>
        obtain ⟨left'', o⟩ := out
        cases o <;> simp [Nat.add_assoc]

/-- What has failed is not touched by more variables, and these are not touched either. -/
theorem resolveText_append_of_failed {messages : List String}
    (h : resolveText escaper vs s = .ok (left, .error messages)) (ws : List Instance) :
    resolveText escaper (vs ++ ws) s = .ok (left ++ ws, .error messages) := by
  induction vs generalizing s left with
  | nil => simp [resolveText] at h
  | cons v vs ih =>
    obtain ⟨p, w, hp, ⟨messages', hsub, rfl, ho⟩ | ⟨u, k, left', o', hsub, hrest, rfl, ho⟩⟩ :=
      resolveText_cons_cases h
    · obtain rfl := Except.error.inj ho
      exact resolveText_cons_of_failed hp hsub (vs ++ ws)
    · obtain rfl : o' = .error messages := map_eq_error_iff.1 ho.symm
      rw [List.cons_append, resolveText_cons_of_ok hp hsub, ih hrest]
      rfl

/-- A resolution is a success with a text and its tokens, or a failure with its messages. -/
theorem resolveContent_cases (h : resolveContent escaper vs content = .ok (left, first)) :
    (∃ s n, resolveText escaper vs content.toList = .ok (left, .ok (s, n)) ∧
        first = .success content (String.ofList s) n) ∨
      ∃ messages, resolveText escaper vs content.toList = .ok (left, .error messages) ∧
        first = .failure content messages := by
  rw [resolveContent] at h
  split at h
  · cases h
  · rename_i htext
    cases h
    exact .inl ⟨_, _, htext, rfl⟩
  · rename_i htext
    cases h
    exact .inr ⟨_, htext, rfl⟩

/-- Behind a failure no further set is tried. -/
theorem resolveContent_append_of_failed (h : resolveContent escaper vs content = .ok (left, first))
    (hfailed : first.succeeded = false) (ws : List Instance) :
    resolveContent escaper (vs ++ ws) content = .ok (left ++ ws, first) := by
  rcases resolveContent_cases h with ⟨s, n, -, rfl⟩ | ⟨messages, htext, rfl⟩
  · cases hfailed
  · rw [resolveContent, resolveText_append_of_failed htext]

/-- More variables resolve the text that a success has left. -/
theorem resolveContent_append {ws : List Instance} {text : String}
    (h : resolveContent escaper vs content = .ok (left, first))
    (htext : first.resolved = some text)
    (hnext : resolveContent escaper ws text = .ok (left', second)) :
    ∃ whole, resolveContent escaper (vs ++ ws) content = .ok (left ++ left', whole) ∧
      whole.Agrees (first.merge second) := by
  rcases resolveContent_cases h with ⟨s, n, hres, rfl⟩ | ⟨messages, -, rfl⟩
  · obtain rfl := Option.some.inj htext
    rw [resolveContent, resolveText_append hres]
    rcases resolveContent_cases hnext with ⟨t, m, hres', rfl⟩ | ⟨messages, hres', rfl⟩
    all_goals
      rw [String.toList_ofList] at hres'
      rw [hres']
    · exact ⟨_, rfl, .refl _⟩
    · exact ⟨_, rfl, rfl, rfl, rfl, rfl, by simp⟩
  · cases htext

/-- A success has a text, and only a success has one. -/
theorem exists_resolved_iff (h : resolveContent escaper vs content = .ok (left, first)) :
    (∃ text, first.resolved = some text) ↔ first.succeeded = true := by
  have hnone := (decided_resolveContent h).1.resolved_eq_none_iff
  rw [← Option.isSome_iff_exists, Option.isSome_iff_ne_none, Ne, hnone, Bool.not_eq_false]

end

/-- Two sets in turn say of a content what they say of it together. -/
theorem exists_resolveInTurn (escaper : Option Escaper) {vs ws : List Instance}
    (hschemas : ∀ v ∈ vs ++ ws, WellFormed v.base.parameters) (content : String) :
    ∃ left whole parts, resolveContent escaper (vs ++ ws) content = .ok (left, whole) ∧
      resolveInTurn escaper vs ws content = .ok parts ∧ whole.Agrees parts := by
  obtain ⟨hvs, hws⟩ := List.forall_mem_append.1 hschemas
  obtain ⟨left, first, hfirst⟩ := exists_resolveContent escaper hvs content
  have hsome := exists_resolved_iff hfirst
  rw [resolveInTurn, hfirst]
  dsimp only
  cases htext : first.resolved with
  | none =>
    have hfailed : first.succeeded = false := by simpa [htext] using hsome
    exact ⟨_, first, first, resolveContent_append_of_failed hfirst hfailed ws, rfl, .refl first⟩
  | some text =>
    obtain ⟨left', second, hsecond⟩ := exists_resolveContent escaper hws text
    obtain ⟨whole, hwhole, hagrees⟩ := resolveContent_append hfirst htext hsecond
    exact ⟨_, whole, first.merge second, hwhole, by simp [hsecond], hagrees⟩

/-! ## Any number of sets -/

/-- The fold over sets agrees with their variables in one set, as long as it goes on from successes
only. -/
theorem foldSets_agrees (escaper : Option Escaper) (content : String)
    {sets : List (List Variable)} (hschemas : ∀ v ∈ sets.flatten, WellFormed v.parameters)
    (hclean : ∀ m < sets.length, ∀ r,
      foldSets escaper content (sets.take m) = .ok (some r) → r.succeeded = true) :
    ∃ left whole last, resolveContent escaper (sets.flatten.map .of) content = .ok (left, whole) ∧
      foldSets escaper content sets = .ok last ∧
      whole.Agrees (last.getD (.success content content 0)) ∧ (last = none ↔ sets = []) := by
  induction sets using List.reverseRecOn with
  | nil =>
    have hempty : resolveContent escaper [] content = .ok ([], .success content content 0) := by
      simp [resolveContent, resolveText]
    exact ⟨[], _, none, hempty, rfl, .refl _, by simp⟩
  | append_singleton sets vs ih =>
    rw [List.flatten_append, List.flatten_singleton] at hschemas ⊢
    obtain ⟨hsets, hvs⟩ := List.forall_mem_append.1 hschemas
    obtain ⟨left, whole, last, hwhole, hfold, hagrees, -⟩ := ih hsets fun m hm r hr =>
      hclean m (by simp; omega) r (by rwa [List.take_append_of_le_length (Nat.le_of_lt hm)])
    -- what is there so far has not failed, and its text goes into the next set
    have hsucceeded : whole.succeeded = true := by
      rw [hagrees.succeeded]
      cases hlast : last with
      | none => rfl
      | some r =>
        refine hclean sets.length (by simp) r ?_
        rw [List.take_left, hfold, hlast]
    obtain ⟨text, htext⟩ := (exists_resolved_iff hwhole).2 hsucceeded
    have hinput : (last.bind (·.resolved)).getD content = text := by
      have hresolved := hagrees.resolved.symm.trans htext
      cases last with
      | none => exact Option.some.inj hresolved
      | some r =>
        rw [Option.getD_some] at hresolved
        rw [Option.bind_some, hresolved, Option.getD_some]
    have hfresh : ∀ v ∈ vs.map Instance.of, WellFormed v.base.parameters :=
      List.forall_mem_map.2 hvs
    obtain ⟨left', next, hnext⟩ := exists_resolveContent escaper hfresh text
    obtain ⟨whole', hwhole', hagrees'⟩ := resolveContent_append hwhole htext hnext
    refine ⟨left ++ left', whole', some (next.after last), ?_, ?_, hagrees'.trans ?_, by simp⟩
    · rw [List.map_append]
      exact hwhole'
    · rw [foldSets_append_singleton, hfold]
      simp only [bind_ok, further, hinput, hnext, map_ok]
    · have hmerge := hagrees.merge hsucceeded next
      cases last with
      | some r => exact hmerge
      | none =>
        -- no set so far: the content is the text, and the next result is the first
        have hcontent : next.content = content := (decided_resolveContent hnext).2.trans hinput.symm
        refine hmerge.trans ⟨hcontent.symm, rfl, ?_, ?_, fun _ => ?_⟩
        all_goals simp [Resolution.after]

namespace Run

variable {shell : Shell} {exempt : List String} {key content : String}
  {sets : List (List Variable)} {r : Run}

/-- What has come of the only content of a run agrees with the variables of the phases so far. -/
theorem Tracks.agrees (hsets : ∀ vs ∈ sets, Sound vs)
    (h : Tracks shell [(key, content)] exempt sets r) :
    ∃ left whole, resolveContent (shell.escaperOf exempt key)
        ((sets.take r.completed).flatten.map .of) content = .ok (left, whole) ∧
      whole.Agrees ((r.results.get? key).getD (.success content content 0)) ∧
      (r.results.get? key = none ↔ r.completed = 0) := by
  have hmem : (key, content) ∈ [(key, content)] := List.mem_singleton.2 rfl
  have hlength : (sets.take r.completed).length = r.completed :=
    List.length_take_of_le h.completed_le
  have hschemas : ∀ v ∈ (sets.take r.completed).flatten, WellFormed v.parameters := by
    intro v hv
    obtain ⟨vs, hvs, hmem⟩ := List.mem_flatten.1 hv
    exact (hsets vs (List.mem_of_mem_take hvs) v hmem).1
  have hclean : ∀ m < (sets.take r.completed).length, ∀ result,
      foldSets (shell.escaperOf exempt key) content ((sets.take r.completed).take m) =
        .ok (some result) → result.succeeded = true := by
    intro m hm result hresult
    rw [hlength] at hm
    rw [List.take_take, Nat.min_eq_left (Nat.le_of_lt hm)] at hresult
    by_contra hfailed
    exact h.clean m hm ⟨key, content, result, hmem, hresult, by simpa using hfailed⟩
  obtain ⟨left, whole, last, hwhole, hfold, hagrees, hnone⟩ :=
    foldSets_agrees (shell.escaperOf exempt key) content hschemas hclean
  rw [h.folded key content hmem, Except.ok.injEq] at hfold
  subst hfold
  exact ⟨left, whole, hwhole, hagrees, by rw [hnone, ← List.length_eq_zero_iff, hlength]⟩

/-- What stands for the result of the only content of a run, also before its first phase. -/
theorem Tracks.hasFailed_eq (h : Tracks shell [(key, content)] exempt sets r) :
    r.hasFailed = !((r.results.get? key).getD (.success content content 0)).succeeded := by
  rw [Bool.eq_iff_iff, Run.hasFailed_iff]
  constructor
  · rintro ⟨other, result, hget, hfailed⟩
    by_cases hkey : other = key
    · subst hkey
      simp [hget, hfailed]
    · rw [h.absent other (by simpa using hkey)] at hget
      cases hget
  · intro hfailed
    cases hget : r.results.get? key with
    | none => simp [hget] at hfailed
    | some result => exact ⟨key, result, hget, by simpa [hget] using hfailed⟩

/-- A run of one content says what its result says. -/
theorem Tracks.messages_eq (h : Tracks shell [(key, content)] exempt sets r) :
    r.messages = ((r.results.get? key).getD (.success content content 0)).messages := by
  rw [messages, resultList, h.contents_eq]
  cases hget : r.results.get? key <;> simp [hget]

/-- A run of one content that asks for all phases comes to what their variables come to in one. -/
theorem Tracks.advanceAll_agrees (hsets : ∀ vs ∈ sets, Sound vs)
    (h : Tracks shell [(key, content)] exempt sets r) {left : List Instance} {whole : Resolution}
    (hwhole : resolveContent (shell.escaperOf exempt key) (sets.flatten.map .of) content =
      .ok (left, whole)) :
    ∃ final, r.advanceAll = (final, .ok whole.succeeded) ∧ final.messages = whole.messages ∧
      (∀ result, final.results.get? key = some result → whole.Agrees result) ∧
      ((final.results.get? key).isSome ↔ sets ≠ []) := by
  have hkeys : ([(key, content)].map (·.1)).Nodup := by simp
  obtain ⟨final, hadvance, hdone, hfinal⟩ := Tracks.advanceAll hkeys hsets h
  obtain ⟨left', whole', hwhole', hagrees, hnone⟩ := hfinal.agrees hsets
  have hfailed := hfinal.hasFailed_eq
  rw [← hagrees.succeeded] at hfailed
  -- either all sets have been used, or the failure is there already
  obtain rfl : whole' = whole := by
    cases hsucceeded : whole'.succeeded with
    | true =>
      rw [hdone (by simp [hfailed, hsucceeded]), List.take_length, hwhole, Except.ok.injEq,
        Prod.mk.injEq] at hwhole'
      exact hwhole'.2.symm
    | false =>
      have hmore := resolveContent_append_of_failed hwhole' hsucceeded
        ((sets.drop final.completed).flatten.map .of)
      rw [← List.map_append, ← List.flatten_append, List.take_append_drop, hwhole,
        Except.ok.injEq, Prod.mk.injEq] at hmore
      exact hmore.2.symm
  refine ⟨final, by rw [hadvance, hfailed, Bool.not_not], ?_, ?_, ?_⟩
  · rw [hfinal.messages_eq, hagrees.messages]
  · intro result hget
    rwa [hget] at hagrees
  · rw [Option.isSome_iff_ne_none, Ne, hnone]
    refine not_congr ⟨?_, ?_⟩
    · intro hzero
      have hsucceeded : final.hasFailed = false := by
        rw [hfinal.hasFailed_eq, hnone.2 hzero]
        rfl
      exact List.length_eq_zero_iff.1 ((hdone hsucceeded).symm.trans hzero)
    · rintro rfl
      exact Nat.le_zero.1 hfinal.completed_le

end Run

open Run in
/-- A list of variables comes to the same whether a content is resolved with all of it, with two
parts of it in turn, or in the phases of a run, however many these are and whenever they are asked
for. -/
theorem cuts_agree (vs ws : List Instance) (hsound : Sound ((vs ++ ws).map (·.base)))
    (escaper : Option Escaper) (content : String) :
    ∃ left whole parts, resolveContent escaper (vs ++ ws) content = .ok (left, whole) ∧
      resolveInTurn escaper vs ws content = .ok parts ∧ whole.Agrees parts ∧
      ∀ shell exempt key, shell.escaperOf exempt key = escaper → ∀ moves,
        (pushed moves).flatten = (vs ++ ws).map (·.base) →
        ∃ start final, prepare shell [(key, content)] exempt = .ok start ∧
          (start.follow moves).advanceAll = (final, .ok whole.succeeded) ∧
          final.messages = whole.messages ∧
          (∀ result, final.results.get? key = some result → whole.Agrees result) ∧
          ((final.results.get? key).isSome ↔ pushed moves ≠ []) := by
  have hdetermined : ∀ v ∈ vs ++ ws, v.base.Determined :=
    fun v hv => (hsound v.base (List.mem_map_of_mem hv)).2
  obtain ⟨left, whole, parts, hwhole, hparts, hagrees⟩ := exists_resolveInTurn escaper
    (fun v hv => (hsound v.base (List.mem_map_of_mem hv)).1) content
  refine ⟨left, whole, parts, hwhole, hparts, hagrees, ?_⟩
  intro shell exempt key hescaper moves hmoves
  have hsets : ∀ us ∈ pushed moves, Sound us := by
    intro us hus v hv
    exact hsound v (hmoves ▸ List.mem_flatten_of_mem hus hv)
  -- the variables of the moves, in new instances
  have hfresh := resolveContent_congr escaper hdetermined
    (Instance.map_base_of ((vs ++ ws).map (·.base))) content
  rw [hwhole, ← hmoves, ← hescaper] at hfresh
  obtain ⟨⟨left', whole'⟩, hflatten, hsame⟩ := map_eq_ok_iff.1 hfresh
  obtain rfl : whole' = whole := hsame
  have hkeys : ([(key, content)].map (·.1)).Nodup := by simp
  have htracks := tracks_follow shell hkeys exempt rfl hsets
  obtain ⟨final, hfinal⟩ := htracks.advanceAll_agrees hsets hflatten
  exact ⟨_, final, prepare_eq_ok shell exempt hkeys, hfinal⟩

/-- What the first variable puts in completes a token of the second. -/
def nested (count : String) : String :=
  "\x7b\x7b!passthrough:\x7b\x7bnewline:" ++ count ++ "\x7d\x7d\x7d\x7d"

theorem cuts_agree_nested :
    Sound [Builtin.passthrough, Builtin.newline] ∧
      ∃ start final, Run.prepare .bash [("command", nested "2")] [] = .ok start ∧
        (start.follow [.push [Builtin.passthrough], .advance, .push [], .push [Builtin.newline]]
          ).advanceAll = (final, .ok true) ∧
        (final.results.get? "command").map (·.resolved) = some (some "'\n\n'") := by
  obtain ⟨left, whole, parts, hwhole, -, -, hruns⟩ :=
    cuts_agree [.of Builtin.passthrough] [.of Builtin.newline] sound_passthrough_newline
      (some Posix.encode) (nested "2")
  have hvalue : (resolveContent (some Posix.encode) [.of Builtin.passthrough, .of Builtin.newline]
      (nested "2")).map (·.2) = .ok (.success (nested "2") "'\n\n'" 2) := by decide +kernel
  have hsuccess : whole = .success (nested "2") "'\n\n'" 2 := by
    rw [List.cons_append, List.nil_append] at hwhole
    rw [hwhole] at hvalue
    exact Except.ok.inj hvalue
  obtain ⟨start, final, hstart, hadvance, -, hagrees, hsome⟩ :=
    hruns .bash [] "command" rfl
      [.push [Builtin.passthrough], .advance, .push [], .push [Builtin.newline]] rfl
  obtain ⟨result, hresult⟩ := Option.isSome_iff_exists.1 (hsome.2 (by decide))
  refine ⟨sound_passthrough_newline, start, final, hstart, by rw [hadvance, hsuccess]; rfl, ?_⟩
  rw [hresult, Option.map_some, ← (hagrees result hresult).resolved, hsuccess]
  rfl

/-- A failure behind a cut still counts the token replaced before it. -/
example :
    let together := (resolveContent none [.of Builtin.passthrough, .of Builtin.newline]
      (nested "1001")).map fun (_, r) => (r.messages, r.count)
    let inTurn := (resolveInTurn none [.of Builtin.passthrough] [.of Builtin.newline]
      (nested "1001")).map fun r => (r.messages, r.count)
    let messages := ["\x7b\x7bnewline\x7d\x7d: count 1001 exceeds the maximum of 1000"]
    together = .ok (messages, 0) ∧ inTurn = .ok (messages, 1) := by decide +kernel

end CommandTemplate
