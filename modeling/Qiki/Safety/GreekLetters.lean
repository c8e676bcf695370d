import Qiki.Safety.PlainLetters

/-! A character database that knows the phrases: the Vietnamese letters and two Greek ones. -/
namespace Qiki.Safety

open Unicode
open scoped Text.Members

/-- The Vietnamese letters, and the Greek iota and sigma. The iota subscript is a mark whose title
case is a letter. -/
def greekDatabase : Database :=
  { Vietnamese.database with
    lower := fun c =>
      if c = 'Ι' then ['ι'] else if c = 'Σ' then ['σ'] else Vietnamese.database.lower c
    title := fun c =>
      if c = 'ι' ∨ c = '\u0345' then ['Ι'] else if c = 'σ' ∨ c = 'ς' then ['Σ']
      else Vietnamese.database.title c
    cased := fun c => c ∈ ['Ι', 'ι', '\u0345', 'Σ', 'σ', 'ς'] || Vietnamese.database.cased c
    caseIgnorable := fun c => c = '\u0345' || Vietnamese.database.caseIgnorable c
    combiningClass := fun c => if c = '\u0345' then 240 else Vietnamese.database.combiningClass c
    nonspacingMark := fun c => c = '\u0345' || Vietnamese.database.nonspacingMark c }

/-- The characters that are not all alike to the database. -/
def databaseChars : List Char :=
  ['Đ', 'đ', '\u00A0', '\u0300', '\u0301', '\u0302', '\u0303', '\u0306', '\u0309', '\u031B', '\u0323',
    '\u0345', 'Ι', 'ι', 'Σ', 'σ', 'ς', '’', '‘', 'ʼ', '＇'] ++
    (Vietnamese.composites.map Prod.fst ++ (List.range 128).map Char.ofNat)

/-- The list has the character, compared by number. -/
def has (l : List Char) (c : Char) : Bool := l.any fun d => Nat.beq d.toNat c.toNat

theorem has_iff {l : List Char} {c : Char} : has l c = true ↔ c ∈ l := by
  unfold has
  rw [List.any_eq_true]
  constructor
  · rintro ⟨d, hd, hdc⟩
    rwa [← Char.toNat_inj.mp (Nat.eq_of_beq_eq_true hdc)]
  · exact fun hc => ⟨c, hc, Nat.beq_refl _⟩

theorem beq_number (c d : Char) : Nat.beq c.toNat d.toNat = decide (c = d) := by
  by_cases hcd : c = d
  · rw [hcd, Nat.beq_refl, decide_eq_true rfl]
  · rw [decide_eq_false hcd, Bool.eq_false_iff]
    exact fun h => hcd (Char.toNat_inj.mp (Nat.eq_of_beq_eq_true h))

theorem find_lookup {α : Type} (l : List (Char × α)) (c : Char) :
    (l.find? fun p => Nat.beq p.1.toNat c.toNat).map Prod.snd = l.lookup c := by
  induction l with
  | nil => rfl
  | cons p l ih =>
    rw [List.find?_cons, List.lookup_cons, beq_number]
    by_cases hc : p.1 = c
    · rw [decide_eq_true hc, ← hc, beq_self_eq_true]
      rfl
    · rw [decide_eq_false hc, beq_eq_false_iff_ne.mpr (Ne.symm hc)]
      exact ih

def lowerByNumber (c : Char) : Char :=
  if Vietnamese.isAscii c then c.toLower
  else ((Vietnamese.letterCases.find? fun l => Nat.beq l.1.toNat c.toNat).map Prod.snd).getD c

def upperByNumber (c : Char) : Char :=
  if Vietnamese.isAscii c then c.toUpper
  else ((Vietnamese.letterCases.find? fun l => Nat.beq l.2.toNat c.toNat).map Prod.fst).getD c

def decomposeByNumber : ℕ → Char → Text
  | 0, c => [c]
  | n + 1, c =>
    if Vietnamese.isAscii c then [c]
    else match (Vietnamese.composites.find? fun l => Nat.beq l.1.toNat c.toNat).map Prod.snd with
      | some (base, mark) => decomposeByNumber n base ++ [mark]
      | none => [c]

/-- The same database, with letters found by their numbers. -/
def greekByNumber : Database :=
  { greekDatabase with
    lower := fun c => if c = 'Ι' then ['ι'] else if c = 'Σ' then ['σ'] else [lowerByNumber c]
    title := fun c =>
      if c = 'ι' ∨ c = '\u0345' then ['Ι'] else if c = 'σ' ∨ c = 'ς' then ['Σ']
      else [upperByNumber c]
    caseVariants := fun c => [lowerByNumber c, upperByNumber c]
    decompose := decomposeByNumber 2 }

theorem decomposeByNumber_eq (n : ℕ) (c : Char) :
    decomposeByNumber n c = Vietnamese.decomposeUpTo n c := by
  induction n generalizing c with
  | zero => rfl
  | succ n ih =>
    rw [decomposeByNumber, Vietnamese.decomposeUpTo, find_lookup]
    cases Vietnamese.composites.lookup c with
    | none => rfl
    | some p => simp only [ih]

/-- The facts about a character are decided by its number. -/
theorem greekDatabase_eq : greekDatabase = greekByNumber := by
  have hdecompose : decomposeByNumber 2 = Vietnamese.decomposeUpTo 2 :=
    funext (decomposeByNumber_eq 2)
  have hlower : lowerByNumber = Vietnamese.lower := by
    funext c
    rw [lowerByNumber, find_lookup]
    rfl
  have hupper : upperByNumber = Vietnamese.upper := by
    funext c
    simp only [upperByNumber, beq_number]
    rfl
  rw [greekByNumber, hdecompose, hlower, hupper]
  rfl

/-- A character that the database says nothing about. -/
structure Unlisted (c : Char) : Prop where
  lower : greekDatabase.lower c = [c]
  title : greekDatabase.title c = [c]
  decompose : greekDatabase.decompose c = [c]
  combiningClass : greekDatabase.combiningClass c = 0
  nonspacingMark : greekDatabase.nonspacingMark c = false
  space : greekDatabase.space c = false
  caseVariants : greekDatabase.caseVariants c = [c, c]
  special : c ∉ phraseLetters ++ apostrophes ++ ['Σ', 'σ', 'ς', 'đ', 'Đ']
  unknown : Vietnamese.isKnown c = false

theorem letterCases_listed : (Vietnamese.letterCases.all fun p =>
    has databaseChars p.1 && has databaseChars p.2) = true := by
  decide +kernel

theorem special_listed : (phraseLetters ++ apostrophes ++ ['Σ', 'σ', 'ς', 'đ', 'Đ']).all
    (has databaseChars) = true := by
  decide +kernel

theorem unlisted {c : Char} (hc : c ∉ databaseChars) : Unlisted c := by
  have hne (d : Char) (hd : d ∈ databaseChars) : c ≠ d := fun hcd => hc (hcd ▸ hd)
  have hascii : Vietnamese.isAscii c = false := by
    by_contra hlow
    have hlow : c.toNat < 128 := by simpa [Vietnamese.isAscii] using hlow
    refine hc (List.mem_append_right _ (List.mem_append_right _ (List.mem_map.mpr ⟨c.toNat, ?_, ?_⟩)))
    · exact List.mem_range.mpr hlow
    · exact Char.ofNat_toNat c
  have hcases := List.all_eq_true.mp letterCases_listed
  simp only [Bool.and_eq_true, has_iff] at hcases
  have hlower : Vietnamese.letterCases.lookup c = none :=
    List.lookup_eq_none_iff.mpr fun p hp => by simpa using hne p.1 (hcases p hp).1
  have hupper : (Vietnamese.letterCases.find? fun l => l.2 = c) = none :=
    List.find?_eq_none.mpr fun p hp => by simpa using (hne p.2 (hcases p hp).2).symm
  have hcomposite : Vietnamese.composites.lookup c = none := by
    refine List.lookup_eq_none_iff.mpr fun p hp => ?_
    have hlisted : p.1 ∈ databaseChars :=
      List.mem_append_right _ (List.mem_append_left _ (List.mem_map_of_mem hp))
    simpa using hne p.1 hlisted
  have hmark (d : Char) (hd : d ∈ ['Đ', 'đ', '\u00A0', '\u0300', '\u0301', '\u0302', '\u0303', '\u0306', '\u0309', '\u031B',
      '\u0323', '\u0345', 'Ι', 'ι', 'Σ', 'σ', 'ς', '’', '‘', 'ʼ', '＇']) : c ≠ d :=
    hne d (List.mem_append_left _ hd)
  have hlowerSelf : Vietnamese.lower c = c := by simp [Vietnamese.lower, hascii, hlower]
  have hupperSelf : Vietnamese.upper c = c := by simp [Vietnamese.upper, hascii, hupper]
  have hclass : Vietnamese.combiningClass c = 0 := by
    simp [Vietnamese.combiningClass, hascii, hmark]
  have hblank : ∀ d ∈ [' ', '\t', '\n', '\r', '\u000B', '\u000C', '\u00A0'], d ∈ databaseChars := by
    decide +kernel
  constructor
  · simp [greekDatabase, hmark, Vietnamese.database, hlowerSelf]
  · simp [greekDatabase, hmark, Vietnamese.database, hupperSelf]
  · simp [greekDatabase, Vietnamese.database, Vietnamese.decomposeUpTo, hascii, hcomposite]
  · simp [greekDatabase, hmark, Vietnamese.database, hclass]
  · simp [greekDatabase, hmark, Vietnamese.database, hclass]
  · exact decide_eq_false fun hmem => hc (hblank c hmem)
  · simp [greekDatabase, Vietnamese.database, hlowerSelf, hupperSelf]
  · exact fun hmem => hc (has_iff.mp (List.all_eq_true.mp special_listed c hmem))
  · simp [Vietnamese.isKnown, hascii, Vietnamese.isLetter, hlowerSelf, hupperSelf, hclass]

/-- What a character and its decomposition, lower case and title case have to do with one another. -/
@[mk_iff] structure Regular (db : Database) (c : Char) : Prop where
  decomposed : ∀ d ∈ db.decompose c, db.decompose d = [d]
  lowered : ∀ d ∈ db.lower c, db.lower d = [d]
  lower_decompose : (db.lower c).flatMap db.decompose = (db.decompose c).flatMap db.lower
  lower_mark : db.nonspacingMark c = true ∨ db.combiningClass c ≠ 0 → db.lower c = [c]
  lower_letter : db.nonspacingMark c = false → ∀ d ∈ db.lower c, db.nonspacingMark d = false
  decompose_space : db.space c = false → ∀ d ∈ db.decompose c, db.space d = false
  lower_space : db.space c = false → ∀ d ∈ db.lower c, db.space d = false
  title_space : db.space c = false → ∀ d ∈ db.title c, db.space d = false
  apostrophe_lower : ∀ a ∈ apostrophes, a ∈ db.lower c → c = a
  apostrophe_decompose : ∀ a ∈ apostrophes, a ∈ db.decompose c → c = a
  stroke_lower : 'đ' ∈ db.lower c → c = 'đ' ∨ c = 'Đ'
  base_ne_nil : db.nonspacingMark c = false → baseOf db c ≠ []
  variants : ∀ l ∈ db.caseVariants c, has phraseLetters l = true →
    db.combiningClass c = 0 ∧ c ∉ ['Σ', 'σ', 'ς'] ∧ (plainOf db c).length = 1 ∧
      ∀ e ∈ plainOf db c, ∀ b ∈ plainOf Vietnamese.database l, b ∈ db.caseVariants e
  titles : db.nonspacingMark c = false → c ≠ 'ς' →
    (plainOf db c).length = 1 ∧ (db.title c).flatMap (plainOf db) = plainOf db c

set_option synthInstance.maxSize 1000 in
set_option synthInstance.maxHeartbeats 100000 in
instance (db : Database) (c : Char) : Decidable (Regular db c) :=
  decidable_of_iff _ (regular_iff db c).symm

theorem Unlisted.baseOf_eq {c : Char} (hc : Unlisted c) : baseOf greekDatabase c = [c] := by
  rw [baseOf_decomposed hc.decompose, hc.nonspacingMark]
  rfl

theorem Unlisted.plainOf_eq {c : Char} (hc : Unlisted c) : plainOf greekDatabase c = [c] := by
  have hplain : plainD c = c := by
    unfold plainD
    rw [if_neg, if_neg]
    · rintro rfl
      exact hc.special (by decide)
    · rintro rfl
      exact hc.special (by decide)
  rw [plainOf, hc.baseOf_eq, List.flatMap_singleton, hplain, hc.lower]

theorem listed_regular : ∀ c ∈ databaseChars, Regular greekByNumber c := by decide +kernel

theorem Unlisted.regular {c : Char} (hc : Unlisted c) : Regular greekDatabase c where
  decomposed := by simp [hc.decompose]
  lowered := by simp [hc.lower]
  lower_decompose := by simp [hc.lower, hc.decompose]
  lower_mark _ := hc.lower
  lower_letter := by simp [hc.lower, hc.nonspacingMark]
  decompose_space := by simp [hc.decompose]
  lower_space := by simp [hc.lower]
  title_space := by simp [hc.title]
  apostrophe_lower a _ hac := by
    rw [hc.lower, List.mem_singleton] at hac
    exact hac.symm
  apostrophe_decompose a _ hac := by
    rw [hc.decompose, List.mem_singleton] at hac
    exact hac.symm
  stroke_lower hd := by
    rw [hc.lower, List.mem_singleton] at hd
    exact Or.inl hd.symm
  base_ne_nil _ := by
    rw [hc.baseOf_eq]
    exact List.cons_ne_nil c []
  variants l hl hphrase := by
    rw [hc.caseVariants, List.mem_cons, List.mem_singleton, or_self] at hl
    rw [hl] at hphrase
    exact absurd (List.mem_append_left _ (List.mem_append_left _ (has_iff.mp hphrase))) hc.special
  titles _ _ := by
    rw [hc.title, List.flatMap_singleton, hc.plainOf_eq]
    exact ⟨rfl, rfl⟩

theorem regular_greek (c : Char) : Regular greekDatabase c := by
  by_cases hc : c ∈ databaseChars
  · rw [greekDatabase_eq]
    exact listed_regular c hc
  · exact (unlisted hc).regular

def blanks : List Char := [' ', '\t', '\n', '\r', '\u000B', '\u000C', '\u00A0']

theorem composites_greek : ∀ l ∈ Vietnamese.composites,
    greekByNumber.decompose l.1 = greekByNumber.decompose l.2.1 ++ greekByNumber.decompose l.2.2 ∧
      has blanks l.2.1 = false ∧ has blanks l.2.2 = false := by
  decide +kernel

theorem compose_greek {a b c : Char} (h : greekDatabase.compose a b = some c) :
    (c, a, b) ∈ Vietnamese.composites := by
  have hfind : (Vietnamese.composites.find? fun l => l.2 = (a, b)).map Prod.fst = some c := by
    have hcompose : greekDatabase.compose a b = if Vietnamese.combiningClass b = 0 then none
        else (Vietnamese.composites.find? fun l => l.2 = (a, b)).map Prod.fst := rfl
    rw [hcompose] at h
    split_ifs at h
    exact h
  obtain ⟨l, hl, hlc⟩ := Option.map_eq_some_iff.mp hfind
  have hpair : l.2 = (a, b) := by simpa using List.find?_some hl
  have hmem := List.mem_of_find?_eq_some hl
  rwa [← hlc, ← hpair]

theorem blanks_greek : ∀ c ∈ blanks, IsBoundary greekDatabase c c ∧ greekDatabase.title c = [c] := by
  have hfacts : ∀ c ∈ blanks, greekDatabase.lower c = [c] ∧ c ≠ 'Σ' ∧
      greekDatabase.decompose c = [c] ∧ greekDatabase.combiningClass c = 0 ∧
      greekDatabase.nonspacingMark c = false ∧ greekDatabase.cased c = false ∧
      greekDatabase.caseIgnorable c = false ∧ greekDatabase.title c = [c] := by decide
  intro c hc
  obtain ⟨hlower, hsigma, hdecompose, hclass, hmark, hcased, hignorable, htitle⟩ := hfacts c hc
  exact ⟨⟨hlower, hsigma, hdecompose, hclass, hmark, hcased, hignorable⟩, htitle⟩

theorem blanks_compose {c : Char} (hc : c ∈ blanks) (d : Char) :
    greekDatabase.compose c d = none ∧ greekDatabase.compose d c = none := by
  have hblank : has blanks c = true := has_iff.mpr hc
  constructor
  · by_contra hcompose
    obtain ⟨e, he⟩ := Option.ne_none_iff_exists'.mp hcompose
    have hfree := (composites_greek _ (compose_greek he)).2.1
    rw [hblank] at hfree
    cases hfree
  · by_contra hcompose
    obtain ⟨e, he⟩ := Option.ne_none_iff_exists'.mp hcompose
    have hfree := (composites_greek _ (compose_greek he)).2.2
    rw [hblank] at hfree
    cases hfree

theorem decomposeUpTo_ne_nil (n : ℕ) (c : Char) : Vietnamese.decomposeUpTo n c ≠ [] := by
  cases n with
  | zero => exact List.cons_ne_nil c []
  | succ n =>
    rw [Vietnamese.decomposeUpTo]
    split_ifs
    · exact List.cons_ne_nil c []
    · split
      · exact List.append_ne_nil_of_right_ne_nil _ (List.cons_ne_nil _ [])
      · exact List.cons_ne_nil c []

theorem lower_greek_ne_nil (c : Char) : greekDatabase.lower c ≠ [] := by
  unfold greekDatabase
  dsimp only
  split_ifs
  all_goals exact List.cons_ne_nil _ []

theorem title_greek_ne_nil (c : Char) : greekDatabase.title c ≠ [] := by
  unfold greekDatabase
  dsimp only
  split_ifs
  all_goals exact List.cons_ne_nil _ []

theorem canonical_greek : Canonical greekDatabase where
  decompose_ne_nil := decomposeUpTo_ne_nil 2
  decomposed c := (regular_greek c).decomposed
  composed a b c hcompose := by
    rw [greekDatabase_eq]
    exact (composites_greek _ (compose_greek hcompose)).1
  lower_ne_nil := lower_greek_ne_nil
  lowered c := (regular_greek c).lowered
  lower_decompose c := (regular_greek c).lower_decompose
  lower_mark c := (regular_greek c).lower_mark
  lower_letter c _ := (regular_greek c).lower_letter
  space_boundary c hc := by
    have hblank : c ∈ blanks := of_decide_eq_true hc
    exact ⟨c, (blanks_greek c hblank).1, hc, blanks_compose hblank⟩
  decompose_space c := (regular_greek c).decompose_space
  lower_space c := (regular_greek c).lower_space
  sigma := by decide

theorem extends_greek : Vietnamese.Extends greekDatabase where
  agree := by
    have hgreek : ∀ d ∈ ['Ι', 'Σ', '\u0345'], Vietnamese.isKnown d = false := by decide +kernel
    have hne (c d : Char) (hc : Vietnamese.isKnown c = true) (hd : d ∈ ['Ι', 'Σ', '\u0345']) : c ≠ d := by
      rintro rfl
      rw [hgreek c hd] at hc
      cases hc
    constructor
    · intro c hc
      exact (if_neg (hne c 'Ι' hc (by decide))).trans (if_neg (hne c 'Σ' hc (by decide)))
    · exact fun _ _ => rfl
    · exact fun c hc => if_neg (hne c '\u0345' hc (by decide))
    · intro c hc
      have hiota := hne c '\u0345' hc (by decide)
      simp [greekDatabase, hiota]
  space_cased := by decide +kernel
  space_caseIgnorable := by decide +kernel

theorem knowsPhrases_greek : KnowsPhrases greekDatabase where
  toCanonical := canonical_greek
  toExtends := extends_greek
  space_newline := by decide
  space_letter := by decide
  apostrophe := by decide
  apostrophe_lower a ha c := (regular_greek c).apostrophe_lower a ha
  apostrophe_composed a ha b c d hcompose hd := by
    have had := (regular_greek d).apostrophe_decompose a ha hd
    have hletter : ∀ l ∈ Vietnamese.composites, has apostrophes l.1 = false := by decide +kernel
    have hfree := hletter _ (compose_greek hcompose)
    rw [had, has_iff.mpr ha] at hfree
    cases hfree
  stroke_lower c := (regular_greek c).stroke_lower
  sigma_lower := by decide
  variant_self := by decide
  variant_space := by decide
  variant_letter c l hl hlc := by
    obtain ⟨hclass, hsigma, hlength, hbase⟩ := (regular_greek c).variants l hlc (has_iff.mpr hl)
    obtain ⟨e, he⟩ := List.length_eq_one_iff.mp hlength
    exact ⟨hclass, hsigma, e, he, hbase e (by rw [he]; exact List.mem_singleton_self e)⟩

theorem knowsTitles_greek : KnowsTitles greekDatabase where
  title_space c hc := (blanks_greek c (of_decide_eq_true hc)).2
  title_ink c hc := ⟨title_greek_ne_nil c, (regular_greek c).title_space hc⟩
  base_ne_nil c := (regular_greek c).base_ne_nil
  title_letter c hletter e he hseen := by
    have hsigma : c ≠ 'ς' := by
      rintro rfl
      have hunseen : ∀ e ∈ plainOf greekDatabase 'ς',
          seen greekDatabase (apostropheFold e) = false := by decide
      rw [hunseen e he] at hseen
      cases hseen
    obtain ⟨hlength, htitle⟩ := (regular_greek c).titles hletter hsigma
    obtain ⟨e', he'⟩ := List.length_eq_one_iff.mp hlength
    rw [he', List.mem_singleton] at he
    rw [he]
    exact ⟨e', he', htitle.trans he', fun _ => rfl, fun _ _ hvariant => hvariant⟩

end Qiki.Safety
