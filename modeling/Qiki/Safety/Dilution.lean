import Mathlib.Data.List.Forall2
import Qiki.Safety.GreekLetters

/-! What may stand around an emergency, and how else it may be written: it is found all the same. -/
namespace Qiki.Safety

open Unicode Regex
open scoped Text.Members

/-- The query is an emergency. -/
def flagged (db : Database) (query : Text) : Bool := (checkQuery db query).isEmergency

/-- A character as it is, in lower case and in title case. -/
def caseForms (db : Database) (c : Char) : List Text := [[c], db.lower c, db.title c]

/-- The cases of a letter; a mark stays as it is. -/
def letterForms (db : Database) (c : Char) : List Text :=
  if db.nonspacingMark c then [[c]] else caseForms db c

/-- Every character is written in one of its forms. -/
inductive WrittenIn (forms : Char → List Text) : Text → Text → Prop
  | nil : WrittenIn forms [] []
  | cons {c : Char} {u s t : Text} (hu : u ∈ forms c) (rest : WrittenIn forms s t) :
    WrittenIn forms (c :: s) (u ++ t)

theorem WrittenIn.self {forms : Char → List Text} (h : ∀ c, [c] ∈ forms c) (s : Text) :
    WrittenIn forms s s := by
  induction s with
  | nil => exact .nil
  | cons c s ih => exact .cons (h c) ih

theorem WrittenIn.append {forms : Char → List Text} {s t u v : Text} (h : WrittenIn forms s t)
    (h' : WrittenIn forms u v) : WrittenIn forms (s ++ u) (t ++ v) := by
  induction h with
  | nil => exact h'
  | cons hu _ ih =>
    rw [List.append_assoc]
    exact .cons hu ih

theorem WrittenIn.split {forms : Char → List Text} {x y t : Text}
    (h : WrittenIn forms (x ++ y) t) :
    ∃ u v, t = u ++ v ∧ WrittenIn forms x u ∧ WrittenIn forms y v := by
  induction x generalizing t with
  | nil => exact ⟨[], t, rfl, .nil, h⟩
  | cons c x ih =>
    cases h with
    | cons hu rest =>
      obtain ⟨v, w, rfl, hv, hw⟩ := ih rest
      exact ⟨_, w, (List.append_assoc _ v w).symm, .cons hu hv, hw⟩

/-- An emergency is found in any surroundings, without its marks, in either normal form, in the
given forms of its characters and with any white space between its words. -/
structure NotDiluted (db : Database) (forms : Char → List Text) (q : Text) : Prop where
  around : flagged db q = true → ∀ p s, flagged db (p ++ ' ' :: (q ++ ' ' :: s)) = true
  plain : flagged db q = true → flagged db (plainText db q) = true
  nfc : flagged db (nfc db q) = flagged db q
  nfd : flagged db (nfd db q) = flagged db q
  lower : ∀ q', lower db q' = lower db q → flagged db q' = flagged db q
  written : flagged db q = true → ∀ q', WrittenIn forms q q' → flagged db q' = true
  spaces : ∀ q', Text.words db.space q' = Text.words db.space q → flagged db q' = flagged db q

section
variable {db : Database} {seen seen' : List (Option Char)}

theorem Found.extend (hfound : Found db seen) (hpart : seen <:+: seen') : Found db seen' := by
  rcases hfound with ⟨k, hk, hoccurs⟩ | ⟨r, hr, steps, hsteps, hoccurs⟩
  · exact Or.inl ⟨k, hk, hoccurs.extend hpart⟩
  · exact Or.inr ⟨r, hr, steps, hsteps, hoccurs.extend hpart⟩

theorem Found.improve (hfound : Found db seen) (hsame : Step.Improves readsSame seen seen')
    (hcase : Step.Improves (readsInCase db) seen seen') : Found db seen' := by
  rcases hfound with ⟨k, hk, hoccurs⟩ | ⟨r, hr, steps, hsteps, hoccurs⟩
  · exact Or.inl ⟨k, hk, hoccurs.improve hsame⟩
  · exact Or.inr ⟨r, hr, steps, hsteps, hoccurs.improve hcase⟩

variable (h : KnowsPhrases db)
include h

theorem Found.drop_empty {ws : List (List (Option Char))} (hfound : Found db (spread ws)) :
    Found db (spread (ws.filter fun w => !w.isEmpty)) := by
  rcases hfound with ⟨k, hk, hoccurs⟩ | ⟨r, hr, steps, hsteps, hoccurs⟩
  · have hspaced := List.all_eq_true.mp keywords_spaced k hk
    exact Or.inl ⟨k, hk, hoccurs.drop_empty readsSame_blank hspaced⟩
  · obtain ⟨steps', hsteps', -, hspaced⟩ := pattern_spelled hr
    obtain rfl := Option.some.inj (hsteps.symm.trans hsteps')
    exact Or.inr ⟨r, hr, steps, hsteps, hoccurs.drop_empty h.readsInCase_blank hspaced⟩

theorem KnowsPhrases.flagged_iff (q : Text) :
    flagged db q = true ↔ Found db (spread (plainWords db q)) := h.isEmergency_iff q

/-- Queries with the same plain words have the same verdict. -/
theorem KnowsPhrases.flagged_eq {q q' : Text} (hq : plainWords db q' = plainWords db q) :
    flagged db q' = flagged db q := by
  rw [Bool.eq_iff_iff, h.flagged_iff, h.flagged_iff, hq]

theorem KnowsPhrases.flagged_around {q : Text} (hq : flagged db q = true) (p s : Text) :
    flagged db (p ++ ' ' :: (q ++ ' ' :: s)) = true := by
  have hwords : plainWords db (p ++ ' ' :: (q ++ ' ' :: s)) =
      plainWords db p ++ (plainWords db q ++ plainWords db s) := by
    rw [plainWords, baseWords_append h.space_blank, baseWords_append h.space_blank]
    rfl
  refine (h.flagged_iff _).mpr (((h.flagged_iff q).mp hq).extend ?_)
  rw [hwords, spread, spread, List.flatMap_append, List.flatMap_append, ← List.append_assoc]
  exact ⟨_, _, rfl⟩

theorem KnowsPhrases.flagged_nfc (q : Text) : flagged db (nfc db q) = flagged db q :=
  h.flagged_eq ((h.keepsWords_nfc h.caseless_apostrophe).baseWords_eq q)

theorem KnowsPhrases.flagged_nfd (q : Text) : flagged db (nfd db q) = flagged db q :=
  h.flagged_eq ((h.keepsWords_nfd h.caseless_apostrophe).baseWords_eq q)

theorem KnowsPhrases.flagged_lower {q q' : Text} (hq : lower db q' = lower db q) :
    flagged db q' = flagged db q := by
  have hkeeps := h.keepsWords_lower h.caseless_apostrophe
  refine h.flagged_eq ?_
  rw [plainWords, plainWords, ← hkeeps.baseWords_eq q', hq, hkeeps.baseWords_eq]

theorem KnowsPhrases.flagged_spaces {q q' : Text}
    (hq : Text.words db.space q' = Text.words db.space q) : flagged db q' = flagged db q := by
  refine h.flagged_eq ?_
  rw [plainWords, baseWords, hq]
  rfl

/-! Without marks. -/

theorem KnowsPhrases.plain_decomposed {c : Char} (hc : db.decompose c = [c])
    (hletter : db.nonspacingMark c = false) : baseOf db (plainD c) = [plainD c] := by
  have hknown : ∀ l ∈ ['d', 'D'], baseOf db l = [l] := by
    intro l hl
    have hdatabase : ∀ l ∈ ['d', 'D'], Vietnamese.isKnown l = true ∧
        Vietnamese.database.decompose l = [l] ∧ Vietnamese.database.nonspacingMark l = false := by
      decide
    obtain ⟨hl, hdecompose, hmark⟩ := hdatabase l hl
    rw [baseOf_decomposed (by rw [h.agree.decomposeOf l hl, hdecompose]), h.agree.markOf l hl, hmark]
    rfl
  unfold plainD
  split_ifs
  · exact hknown 'd' (by decide)
  · exact hknown 'D' (by decide)
  · rw [baseOf_decomposed hc, hletter]
    rfl

theorem KnowsPhrases.bases_withoutMarks (s : Text) :
    bases db (seenOf db apostropheFold) s =
      (withoutMarks db s).flatMap (seenOf db apostropheFold) := by
  rw [← h.bases_nfd h.caseless_apostrophe, bases_decomposed h.decompose_nfd]
  rfl

theorem KnowsPhrases.bases_plain (s : Text) :
    bases db (seenOf db apostropheFold) ((withoutMarks db s).map plainD) =
      bases db (seenOf db apostropheFold) s := by
  have htwice (c : Char) : plainD (plainD c) = plainD c := by
    by_cases hsmall : c = 'đ'
    · rw [hsmall]
      decide
    · by_cases hcapital : c = 'Đ'
      · rw [hcapital]
        decide
      · have hc : plainD c = c := by rw [plainD, if_neg hsmall, if_neg hcapital]
        rw [hc, hc]
  rw [h.bases_withoutMarks s, bases, List.flatMap_map]
  refine List.flatMap_congr fun c hc => ?_
  obtain ⟨hc, hletter⟩ := List.mem_filter.mp hc
  rw [h.plain_decomposed (h.decompose_nfd c hc) (by simpa using hletter), List.flatMap_singleton,
    seenOf, seenOf, htwice]

theorem KnowsPhrases.plainWords_plain (q : Text) :
    plainWords db (plainText db q) = (plainWords db q).filter fun w => !w.isEmpty := by
  rw [plainText_eq]
  refine baseWords_filter (g := fun s => (withoutMarks db s).map plainD) ?_ ?_ h.bases_plain ?_ q
  · intro c hc
    obtain ⟨starter, hboundary, hstarter, -⟩ := h.space_boundary c hc
    refine ⟨plainD starter, by rw [h.space_plainD, hstarter], fun x y => ?_⟩
    rw [hboundary.withoutMarks_append, List.map_append, List.map_cons]
  · intro s hs c hc
    obtain ⟨d, hd, rfl⟩ := List.mem_map.mp hc
    rw [h.space_plainD]
    exact h.space_nfd hs d (List.mem_of_mem_filter hd)
  · intro s
    rw [h.bases_withoutMarks, List.map_eq_nil_iff, List.flatMap_eq_nil_iff]
    constructor
    · intro hall
      by_contra hne
      obtain ⟨c, hc⟩ := List.exists_mem_of_ne_nil _ hne
      exact h.lower_ne_nil (plainD c) (List.map_eq_nil_iff.mp (hall c hc))
    · intro hnil c hc
      rw [hnil] at hc
      cases hc

theorem KnowsPhrases.flagged_plain {q : Text} (hq : flagged db q = true) :
    flagged db (plainText db q) = true := by
  rw [h.flagged_iff, h.plainWords_plain]
  exact Found.drop_empty h ((h.flagged_iff q).mp hq)

/-! In other cases. -/

end

section
variable {db : Database} {κ : Type} {accepts : κ → Option Char → Prop}

/-- Where a letter of the phrases is accepted, so is any letter it is a case of. -/
structure AcceptsCases (db : Database) (accepts : κ → Option Char → Prop) : Prop where
  none : ∀ x, ¬ accepts x none
  some : ∀ x c c', (c ∈ phraseLetters → c' = c) →
    (∀ l ∈ phraseLetters, l ∈ db.caseVariants c → l ∈ db.caseVariants c') →
    accepts x (some c) → accepts x (some c')

theorem acceptsCases_readsSame : AcceptsCases db readsSame where
  none x hx := by cases hx.2
  some x c c' hsame _ hx := by
    obtain rfl := Option.some.inj hx.2
    exact ⟨hx.1, congrArg _ (hsame hx.1)⟩

theorem acceptsCases_readsInCase : AcceptsCases db (readsInCase db) where
  none x hx := by
    obtain ⟨c, hc, -⟩ := hx
    cases hc
  some x c c' _ hvariants hx := by
    obtain ⟨d, hd, l, hl, hmem, hvariant⟩ := hx
    obtain rfl := Option.some.inj hd
    exact ⟨c', rfl, l, hl, hmem, hvariants l hl hvariant⟩

theorem improves_spread {ws ws' : List (List (Option Char))}
    (hws : List.Forall₂ (Step.Improves accepts) ws ws') :
    Step.Improves accepts (spread ws) (spread ws') := by
  induction hws with
  | nil => exact .nil
  | cons hw _ ih => exact (Step.Improves.keep (fun _ hx => hx) hw).append ih

theorem seenOf_base (change : Char → Char) (c : Char) :
    (baseOf db c).flatMap (seenOf db change) = (plainOf db c).map fun e => see db (change e) :=
  List.map_flatMap.symm

theorem bases_seenOf (change : Char → Char) (u : Text) :
    bases db (seenOf db change) u = (u.flatMap (plainOf db)).map fun e => see db (change e) := by
  rw [bases, List.map_flatMap]
  exact List.flatMap_congr fun c _ => seenOf_base change c

variable (h : KnowsPhrases db) (ht : KnowsTitles db) (haccepts : AcceptsCases db accepts)
include h ht haccepts

/-- A letter in another case is accepted where it was. -/
theorem improves_form {c : Char} {u : Text} (hu : u ∈ letterForms db c) :
    Step.Improves accepts ((baseOf db c).flatMap (seenOf db apostropheFold))
      (bases db (seenOf db apostropheFold) u) := by
  have hself : bases db (seenOf db apostropheFold) [c] =
      (baseOf db c).flatMap (seenOf db apostropheFold) := by
    rw [bases_cons, bases_nil, List.append_nil]
  unfold letterForms at hu
  split_ifs at hu with hmark
  · rw [List.mem_singleton.mp hu, hself]
    exact .refl _
  · simp only [caseForms, List.mem_cons, List.not_mem_nil, or_false] at hu
    rcases hu with rfl | rfl | rfl
    · rw [hself]
      exact .refl _
    · rw [h.bases_lowerChar h.caseless_apostrophe]
      exact .refl _
    · have hletter : db.nonspacingMark c = false := by simpa using hmark
      rw [seenOf_base, bases_seenOf]
      by_cases hseen : ∃ e ∈ plainOf db c, seen db (apostropheFold e) = true
      · obtain ⟨e, he, hseen⟩ := hseen
        obtain ⟨e', hone, htitle, hsame, hvariants⟩ := ht.title_letter c hletter e he hseen
        obtain ⟨l, hl, hvariant⟩ := seen_iff.mp hseen
        have hseen' : seen db (apostropheFold e') = true :=
          seen_iff.mpr ⟨l, hl, hvariants l hl hvariant⟩
        have hsee : see db (apostropheFold e) = some (apostropheFold e) := if_pos hseen
        have hsee' : see db (apostropheFold e') = some (apostropheFold e') := if_pos hseen'
        rw [hone, htitle, List.map_singleton, List.map_singleton, hsee, hsee']
        exact .keep (fun x => haccepts.some x _ _ hsame hvariants) .nil
      · push Not at hseen
        refine .of_unread ?_ ?_ _
        · intro hnil
          obtain ⟨d, hd⟩ := List.exists_mem_of_ne_nil _ (ht.base_ne_nil c hletter)
          have hplain := List.flatMap_eq_nil_iff.mp (List.map_eq_nil_iff.mp hnil) d hd
          exact h.lower_ne_nil _ hplain
        · intro e he x
          obtain ⟨d, hd, rfl⟩ := List.mem_map.mp he
          have hnone : see db (apostropheFold d) = none := if_neg (hseen d hd)
          rw [hnone]
          exact haccepts.none x

theorem improves_text {w w' : Text} (hw : WrittenIn (letterForms db) w w') :
    Step.Improves accepts (bases db (seenOf db apostropheFold) w)
      (bases db (seenOf db apostropheFold) w') := by
  induction hw with
  | nil => exact .nil
  | cons hu _ ih =>
    rw [bases_cons, bases_append]
    exact (improves_form h ht haccepts hu).append ih

omit haccepts in
/-- A form of a space is the space, and that of another character holds no space. -/
theorem form_space {c : Char} {u : Text} (hu : u ∈ letterForms db c) :
    (db.space c = true → u = [c]) ∧
      (db.space c = false → u ≠ [] ∧ ∀ d ∈ u, db.space d = false) := by
  have hu : u ∈ caseForms db c := by
    unfold letterForms at hu
    split_ifs at hu
    · rw [List.mem_singleton.mp hu]
      exact List.mem_cons_self
    · exact hu
  simp only [caseForms, List.mem_cons, List.not_mem_nil, or_false] at hu
  rcases hu with rfl | rfl | rfl
  · exact ⟨fun _ => rfl, fun hc => ⟨List.cons_ne_nil c [], fun d hd => by
      rw [List.mem_singleton.mp hd, hc]⟩⟩
  · refine ⟨fun hc => ?_, fun hc => ⟨h.lower_ne_nil c, h.lower_space c hc⟩⟩
    obtain ⟨_, hboundary, -⟩ := h.space_boundary c hc
    exact hboundary.lower_self
  · exact ⟨ht.title_space c, ht.title_ink c⟩

omit haccepts in
theorem written_ink {w w' : Text} (hwritten : WrittenIn (letterForms db) w w')
    (hw : ∀ c ∈ w, db.space c = false) :
    (w ≠ [] → w' ≠ []) ∧ ∀ d ∈ w', db.space d = false := by
  induction hwritten with
  | nil => exact ⟨fun hne => hne, hw⟩
  | cons hu _ ih =>
    obtain ⟨hc, hrest⟩ := List.forall_mem_cons.mp hw
    obtain ⟨hne, hink⟩ := (form_space h ht hu).2 hc
    refine ⟨fun _ => List.append_ne_nil_of_left_ne_nil hne _, fun d hd => ?_⟩
    rcases List.mem_append.mp hd with hd | hd
    · exact hink d hd
    · exact (ih hrest).2 d hd

theorem improves_words {q q' : Text} (hq : WrittenIn (letterForms db) q q') :
    List.Forall₂ (Step.Improves accepts) (plainWords db q) (plainWords db q') := by
  induction q using Text.word_induction db.space generalizing q' with
  | word w hw =>
    obtain ⟨hne, hink⟩ := written_ink h ht hq hw
    by_cases hnil : w = []
    · subst hnil
      cases hq
      exact .nil
    · rw [plainWords, plainWords, baseWords, baseWords, Text.words_of_word hnil hw,
        Text.words_of_word (hne hnil) hink]
      exact .cons (improves_text h ht haccepts hq) .nil
  | cut x c y hc ihx ihy =>
    obtain ⟨u, v, rfl, hu, hv⟩ := hq.split
    cases hv with
    | cons hform rest =>
      rw [(form_space h ht hform).1 hc, List.singleton_append, plainWords, plainWords,
        baseWords_append hc, baseWords_append hc]
      exact List.rel_append (ihx hu) (ihy rest)

omit haccepts in
theorem KnowsPhrases.flagged_written {q q' : Text} (hq : flagged db q = true)
    (hwritten : WrittenIn (letterForms db) q q') : flagged db q' = true := by
  have hsame := improves_spread (improves_words h ht acceptsCases_readsSame hwritten)
  have hcase := improves_spread (improves_words h ht acceptsCases_readsInCase hwritten)
  exact (h.flagged_iff q').mpr (((h.flagged_iff q).mp hq).improve hsame hcase)

omit haccepts in
/-- However an emergency is written, and whatever stands around it, it is found. -/
theorem emergency_not_diluted (q : Text) : NotDiluted db (letterForms db) q where
  around hq := h.flagged_around hq
  plain hq := h.flagged_plain hq
  nfc := h.flagged_nfc q
  nfd := h.flagged_nfd q
  lower _ hq' := h.flagged_lower hq'
  written hq _ := h.flagged_written ht hq
  spaces _ hq' := h.flagged_spaces hq'

end

theorem leak_not_diluted : flagged greekDatabase "rò gas" = true ∧
    NotDiluted greekDatabase (letterForms greekDatabase) "rò gas" :=
  ⟨by decide +kernel, emergency_not_diluted knowsPhrases_greek knowsTitles_greek "rò gas"⟩

/-- A mark that is written as a letter: the iota subscript in title case. -/
theorem subscript_hides_leak : ¬ ∀ db, KnowsPhrases db → KnowsTitles db →
    ∀ q, NotDiluted db (caseForms db) q := by
  intro hclaim
  have hkept := hclaim greekDatabase knowsPhrases_greek knowsTitles_greek "ro ga\u0345s"
  have hflagged : flagged greekDatabase "ro ga\u0345s" = true := by decide +kernel
  have hwritten : WrittenIn (caseForms greekDatabase) "ro ga\u0345s" "ro gaΙs" := by
    have hself (s : Text) : WrittenIn (caseForms greekDatabase) s s :=
      WrittenIn.self (fun _ => List.mem_cons_self) s
    have htitle : ['Ι'] ∈ caseForms greekDatabase '\u0345' := by decide +kernel
    exact (hself "ro ga").append (.cons htitle (hself "s"))
  have hfold : asciiFold greekDatabase (normalize greekDatabase "ro gaΙs") = "ro gaιs".toList := by
    decide +kernel
  have hmissed : flagged greekDatabase "ro gaΙs" = false := by
    have hkeywords : (emergencyKeywordsVi ++ emergencyKeywordsEn).all (fun k =>
        !Text.contains "ro gaιs" (plainForm k)) = true := by decide +kernel
    have hnone : checkKeywords greekDatabase "ro gaΙs" = none := by
      refine List.find?_eq_none.mpr fun k hk hmatch => ?_
      have hpart := (knowsPhrases_greek.keywordMatches_iff hk).mp hmatch
      rw [hfold, ← Text.contains_iff] at hpart
      have hno := List.all_eq_true.mp hkeywords k hk
      rw [hpart] at hno
      cases hno
    rw [flagged, checkQuery_isEmergency, hnone]
    decide +kernel
  rw [hkept.written hflagged _ hwritten] at hmissed
  cases hmissed

end Qiki.Safety
