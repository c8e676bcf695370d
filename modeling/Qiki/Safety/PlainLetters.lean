import Qiki.Safety.Checker
import Qiki.Text.BaseLetters
import Qiki.Text.Steps

/-! What the checker sees of a query: the plain letters of its words. -/
namespace Qiki.Safety

open Unicode Regex
open scoped Text.Members

/-- The letters of the keywords and patterns. -/
def phraseLetters : List Char :=
  ['a', 'b', 'c', 'd', 'e', 'f', 'g', 'h', 'i', 'j', 'k', 'l', 'm', 'n', 'o', 'p', 'q', 'r', 's',
   't', 'u', 'v', 'w', 'x', 'y', 'z', ' ', '\'', 'à', 'á', 'â', 'ì', 'í', 'ò', 'ó', 'ô', 'ù', 'đ',
   'ư', 'ạ', 'ấ', 'ẩ', 'ắ', 'ặ', 'ể', 'ỉ', 'ỏ', 'ố', 'ồ', 'ổ', 'ở', 'ợ', 'ứ', 'ử']

def apostrophes : List Char := ['\'', '’', '‘', 'ʼ', '＇', '\u0060']

/-- `đ` and `Đ` written without their stroke. -/
def plainD (c : Char) : Char := if c = 'đ' then 'd' else if c = 'Đ' then 'D' else c

/-- The text with all its marks removed, and `d` for `đ`. -/
def plainText (db : Database) (s : Text) : Text :=
  Text.replace "Đ" "D" (Text.replace "đ" "d" (withoutMarks db s))

/-- The lower case of a character without its marks. -/
def plainOf (db : Database) (c : Char) : Text :=
  (baseOf db c).flatMap fun d => db.lower (plainD d)

/-- What the character database says about the letters of the phrases. -/
structure KnowsPhrases (db : Database) : Prop extends Canonical db, Vietnamese.Extends db where
  space_newline : db.space '\n' = true
  space_letter : ∀ l ∈ phraseLetters, db.space l = (l == ' ')
  apostrophe : ∀ a ∈ apostrophes, db.decompose a = [a] ∧ db.lower a = [a] ∧
    db.nonspacingMark a = false ∧ db.combiningClass a = 0 ∧ db.space a = false
  apostrophe_lower : ∀ a ∈ apostrophes, ∀ c, a ∈ db.lower c → c = a
  apostrophe_composed : ∀ a ∈ apostrophes, ∀ b c d, db.compose b c = some d → a ∉ db.decompose d
  stroke_lower : ∀ c, 'đ' ∈ db.lower c → c = 'đ' ∨ c = 'Đ'
  sigma_lower : ∀ c ∈ ['Σ', 'σ', 'ς'], ∃ d ∈ ['σ', 'ς'], db.lower c = [d]
  variant_self : ∀ l ∈ phraseLetters, l ∈ db.caseVariants l
  variant_space : ∀ l ∈ phraseLetters, l ∈ db.caseVariants ' ' → l = ' '
  variant_letter : ∀ c, ∀ l ∈ phraseLetters, l ∈ db.caseVariants c →
    db.combiningClass c = 0 ∧ c ∉ ['Σ', 'σ', 'ς'] ∧
      ∃ e, plainOf db c = [e] ∧ ∀ b ∈ plainOf Vietnamese.database l, b ∈ db.caseVariants e

section
variable (db : Database)

/-- A letter of the phrases, up to case. -/
def seen (c : Char) : Bool := phraseLetters.any fun l => (db.caseVariants c).contains l

/-- A letter that is none of the phrases is not told from another. -/
def see (c : Char) : Option Char := if seen db c then some c else none

/-- What is seen of a base letter in lower case, after a change of its characters. -/
def seenOf (change : Char → Char) (d : Char) : List (Option Char) :=
  (db.lower (plainD d)).map fun e => see db (change e)

/-- The plain letters of each word. -/
def plainWords (query : Text) : List (List (Option Char)) :=
  baseWords db (seenOf db apostropheFold) query

/-- Words with a space before each. -/
def spread (ws : List (List (Option Char))) : List (Option Char) := ws.flatMap (some ' ' :: ·)

end

/-- What the character database says about the title case of spaces and of the letters of the
phrases. -/
structure KnowsTitles (db : Database) : Prop where
  title_space : ∀ c, db.space c = true → db.title c = [c]
  title_ink : ∀ c, db.space c = false → db.title c ≠ [] ∧ ∀ d ∈ db.title c, db.space d = false
  base_ne_nil : ∀ c, db.nonspacingMark c = false → baseOf db c ≠ []
  title_letter : ∀ c, db.nonspacingMark c = false →
    ∀ e ∈ plainOf db c, seen db (apostropheFold e) = true → ∃ e',
      plainOf db c = [e] ∧ (db.title c).flatMap (plainOf db) = [e'] ∧
        (apostropheFold e ∈ phraseLetters → apostropheFold e' = apostropheFold e) ∧
          ∀ l ∈ phraseLetters, l ∈ db.caseVariants (apostropheFold e) →
            l ∈ db.caseVariants (apostropheFold e')

/-! The keywords and the patterns as they are spelled. -/

/-- The letters of the phrases and what they become are known. -/
theorem phraseLetters_known : phraseLetters.all (fun l =>
    Vietnamese.isKnown l && (Vietnamese.database.decompose l).all Vietnamese.isKnown &&
      (baseOf Vietnamese.database l).all (fun d => Vietnamese.isKnown (plainD d)) &&
      (plainOf Vietnamese.database l).length == 1 &&
      (plainOf Vietnamese.database l).all fun e =>
        phraseLetters.contains e && apostropheFold e == e) = true := by
  decide +kernel

theorem plainOf_phrase {l : Char} (hl : l ∈ phraseLetters) :
    ∃ b ∈ phraseLetters, plainOf Vietnamese.database l = [b] := by
  have hknown := List.all_eq_true.mp phraseLetters_known l hl
  simp only [Bool.and_eq_true, List.all_eq_true, List.contains_iff_mem, beq_iff_eq] at hknown
  obtain ⟨b, hb⟩ := List.length_eq_one_iff.mp hknown.1.2
  exact ⟨b, (hknown.2 b (by rw [hb]; exact List.mem_singleton_self b)).1, hb⟩

/-- A keyword without its marks. -/
def plainForm (keyword : Text) : Text := keyword.flatMap (plainOf Vietnamese.database)

theorem keywords_spelled : (emergencyKeywordsVi ++ emergencyKeywordsEn).all (fun k =>
    k.all phraseLetters.contains && !k.isEmpty &&
      (' ' :: k == (Text.words (· == ' ') k).flatMap (' ' :: ·))) = true := by
  decide +kernel

theorem plainForm_letters {k : Text} (hk : k ∈ emergencyKeywordsVi ++ emergencyKeywordsEn) :
    ∀ c ∈ plainForm k, c ∈ phraseLetters := by
  have hspelled := List.all_eq_true.mp keywords_spelled k hk
  simp only [Bool.and_eq_true, List.all_eq_true, List.contains_iff_mem] at hspelled
  intro c hc
  obtain ⟨l, hl, hcl⟩ := List.mem_flatMap.mp hc
  obtain ⟨b, hb, hplain⟩ := plainOf_phrase (hspelled.1.1 l hl)
  rw [hplain, List.mem_singleton] at hcl
  rwa [hcl]

/-- A letter that is seen is the letter of a keyword. -/
def readsSame (x : Char) (e : Option Char) : Prop := x ∈ phraseLetters ∧ e = some x

theorem readsSame_blank (x : Char) (hx : readsSame x (some ' ')) : (x == ' ') = true := by
  obtain rfl := Option.some.inj hx.2
  rfl

theorem keywords_spaced : (emergencyKeywordsVi ++ emergencyKeywordsEn).all (fun k =>
    Step.spaced (· == ' ') false ((plainForm k).map Step.one)) = true := by
  decide +kernel

/-- The steps of a pattern read letters of the phrases, each with or without its marks. -/
def patternSpelled (steps : List (Step (List CharClass))) : Bool :=
  steps.all fun
    | .gap => true
    | .one classes => classes.all fun
      | .char l => phraseLetters.contains l &&
        (plainOf Vietnamese.database l).all fun b => classes.contains (.char b)
      | _ => false

def readsBlank (classes : List CharClass) : Bool := classes.contains (.char ' ')

theorem patterns_spelled : suspiciousPatterns.all (fun r => r.steps.any fun steps =>
    patternSpelled steps && Step.spaced readsBlank false steps) = true := by
  decide +kernel

theorem pattern_spelled {r : Regex} (hr : r ∈ suspiciousPatterns) : ∃ steps, r.steps = some steps ∧
    patternSpelled steps = true ∧ Step.spaced readsBlank false steps = true := by
  have hspelled := List.all_eq_true.mp patterns_spelled r hr
  cases hsteps : r.steps with
  | none =>
    rw [hsteps] at hspelled
    cases hspelled
  | some steps =>
    rw [hsteps, Option.any_some, Bool.and_eq_true] at hspelled
    exact ⟨steps, rfl, hspelled⟩

/-- The mode of the patterns. -/
def patternMode (db : Database) : Mode := { db := db, ignoreCase := true }

/-- A letter that is seen is a letter of the classes, up to case. -/
def readsInCase (db : Database) (classes : List CharClass) (e : Option Char) : Prop :=
  ∃ c, e = some c ∧ ∃ l ∈ phraseLetters, .char l ∈ classes ∧ l ∈ db.caseVariants c

/-- A keyword or a pattern occurs in what is seen. -/
def Found (db : Database) (seen : List (Option Char)) : Prop :=
  (∃ k ∈ emergencyKeywordsVi ++ emergencyKeywordsEn,
    Step.Occurs readsSame (fun _ => True) ((plainForm k).map Step.one) seen) ∨
  ∃ r ∈ suspiciousPatterns, ∃ steps, r.steps = some steps ∧
    Step.Occurs (readsInCase db) (fun _ => True) steps seen

/-! What is seen. -/

theorem plainText_eq (db : Database) (s : Text) : plainText db s = (withoutMarks db s).map plainD := by
  have hcoe : ("đ".toList = ['đ'] ∧ "d".toList = ['d']) ∧ "Đ".toList = ['Đ'] ∧ "D".toList = ['D'] := by
    decide
  rw [plainText, hcoe.1.1, hcoe.1.2, hcoe.2.1, hcoe.2.2]
  unfold Text.replace
  rw [Text.replaceFrom_singleton, Text.replaceFrom_singleton, List.flatMap_assoc,
    ← List.flatMap_pure_eq_map]
  refine List.flatMap_congr fun c _ => ?_
  unfold plainD
  by_cases h1 : c = 'đ'
  · subst h1
    decide
  · by_cases h2 : c = 'Đ'
    · subst h2
      decide
    · simp [h1, h2]

theorem asciiFold_eq (db : Database) (s : Text) :
    asciiFold db s = lower db ((withoutMarks db s).map plainD) := by
  rw [← plainText_eq]
  rfl

section
variable {db : Database} (h : KnowsPhrases db)

theorem seen_iff {c : Char} : seen db c = true ↔ ∃ l ∈ phraseLetters, l ∈ db.caseVariants c := by
  simp [seen]

theorem see_eq_some {c d : Char} : see db c = some d ↔ c = d ∧ seen db c = true := by
  unfold see
  split_ifs with hc
  · rw [Option.some.injEq, and_iff_left hc]
  · exact iff_of_false (fun hnone => by cases hnone) fun hboth => hc hboth.2

theorem eq_of_map_see {s t : Text} (hst : s.map (see db) = t.map some) : s = t := by
  induction s generalizing t with
  | nil => exact (List.map_eq_nil_iff.mp hst.symm).symm
  | cons c s ih =>
    obtain ⟨d, u, rfl, hd, hu⟩ := List.map_eq_cons_iff.mp hst.symm
    rw [(see_eq_some.mp hd.symm).1, ih hu.symm]

theorem infix_of_map_see {s t : Text} (hst : t.map some <:+: s.map (see db)) : t <:+: s := by
  obtain ⟨x, y, hxy⟩ := hst
  obtain ⟨u, v, huv, hu, -⟩ := List.map_eq_append_iff.mp hxy.symm
  obtain ⟨u₁, u₂, rfl, -, hu₂⟩ := List.map_eq_append_iff.mp hu
  rw [huv, ← eq_of_map_see hu₂]
  exact ⟨u₁, v, rfl⟩

theorem reads_letters {k : Text} (hk : ∀ c ∈ k, c ∈ phraseLetters) (s : List (Option Char)) :
    Step.Reads readsSame (fun _ => True) (k.map Step.one) s ↔ s = k.map some := by
  induction k generalizing s with
  | nil => exact Iff.rfl
  | cons c k ih =>
    have hrest := fun d hd => hk d (List.mem_cons_of_mem c hd)
    constructor
    · rintro ⟨_, t, rfl, ⟨-, rfl⟩, ht⟩
      rw [(ih hrest t).mp ht]
      rfl
    · rintro rfl
      exact ⟨some c, k.map some, rfl, ⟨hk c List.mem_cons_self, rfl⟩, (ih hrest _).mpr rfl⟩

theorem occurs_letters {k : Text} (hk : ∀ c ∈ k, c ∈ phraseLetters) (s : List (Option Char)) :
    Step.Occurs readsSame (fun _ => True) (k.map Step.one) s ↔ k.map some <:+: s := by
  unfold Step.Occurs
  constructor
  · rintro ⟨t, hts, ht⟩
    rwa [← (reads_letters hk t).mp ht]
  · exact fun hpart => ⟨k.map some, hpart, (reads_letters hk _).mpr rfl⟩

theorem accepts_iff {classes : List CharClass} {c : Char}
    (hclasses : ∀ x ∈ classes, ∃ l ∈ phraseLetters, x = .char l) :
    (patternMode db).accepts classes c ↔
      ∃ l ∈ phraseLetters, .char l ∈ classes ∧ l ∈ db.caseVariants c := by
  unfold Mode.accepts
  rw [List.any_eq_true]
  constructor
  · rintro ⟨x, hx, hmatch⟩
    obtain ⟨l, hl, rfl⟩ := hclasses x hx
    exact ⟨l, hl, hx, List.contains_iff_mem.mp hmatch⟩
  · rintro ⟨l, -, hl, hvariant⟩
    exact ⟨.char l, hl, List.contains_iff_mem.mpr hvariant⟩

include h

theorem KnowsPhrases.see_letter {l : Char} (hl : l ∈ phraseLetters) : see db l = some l :=
  see_eq_some.mpr ⟨rfl, seen_iff.mpr ⟨l, hl, h.variant_self l hl⟩⟩

theorem KnowsPhrases.see_mark {c : Char} (hc : db.combiningClass c ≠ 0) : see db c = none := by
  refine if_neg fun hseen => ?_
  obtain ⟨l, hl, hvariant⟩ := seen_iff.mp hseen
  exact hc (h.variant_letter c l hl hvariant).1

theorem KnowsPhrases.see_sigma {c : Char} (hc : c ∈ ['Σ', 'σ', 'ς']) : see db c = none := by
  refine if_neg fun hseen => ?_
  obtain ⟨l, hl, hvariant⟩ := seen_iff.mp hseen
  exact (h.variant_letter c l hl hvariant).2.1 hc

theorem plainD_lower {c e : Char} (he : e ∈ db.lower c) (hc : c ≠ 'đ' ∧ c ≠ 'Đ') : plainD e = e := by
  have hsmall : e ≠ 'đ' := by
    rintro rfl
    exact (h.stroke_lower c he).elim hc.1 hc.2
  have hcapital : e ≠ 'Đ' := by
    rintro rfl
    have hself := h.lowered c 'Đ' he
    rw [h.agree.lowerOf 'Đ' (by decide)] at hself
    exact absurd hself (by decide)
  rw [plainD, if_neg hsmall, if_neg hcapital]

/-- What is seen depends neither on case nor on the order of marks, when the change leaves marks and
sigmas alone. -/
theorem KnowsPhrases.caseless {change : Char → Char}
    (hmark : ∀ c, db.combiningClass c ≠ 0 → change c = c)
    (hsigma : ∀ c ∈ ['σ', 'ς'], change c = c) : Caseless db (seenOf db change) where
  lower c hc hletter := by
    have hlowerD : db.lower 'đ' = ['đ'] ∧ db.lower 'Đ' = ['đ'] ∧ db.lower 'd' = ['d'] ∧
        db.lower 'D' = ['d'] := by
      rw [h.agree.lowerOf 'đ' (by decide), h.agree.lowerOf 'Đ' (by decide),
        h.agree.lowerOf 'd' (by decide), h.agree.lowerOf 'D' (by decide)]
      decide
    by_cases hd : c ≠ 'đ' ∧ c ≠ 'Đ'
    · have hself : ∀ e ∈ db.lower c, seenOf db change e = [see db (change e)] := by
        intro e he
        rw [seenOf, plainD_lower h he hd, h.lowered c e he]
        rfl
      rw [List.flatMap_congr hself, seenOf, plainD, if_neg hd.1, if_neg hd.2,
        ← List.flatMap_pure_eq_map]
      rfl
    · rw [not_and_or, not_not, not_not] at hd
      rcases hd with rfl | rfl
      · rw [hlowerD.1, List.flatMap_singleton]
      · rw [hlowerD.2.1, List.flatMap_singleton, seenOf, seenOf]
        have hplain : plainD 'đ' = 'd' ∧ plainD 'Đ' = 'D' := by decide
        rw [hplain.1, hplain.2, hlowerD.2.2.1, hlowerD.2.2.2]
  sigma := by
    have hone : ∀ c ∈ ['Σ', 'σ', 'ς'], seenOf db change c = [none] := by
      intro c hc
      have hplain : ∀ c ∈ ['Σ', 'σ', 'ς'], plainD c = c := by decide
      obtain ⟨d, hd, hlower⟩ := h.sigma_lower c hc
      rw [seenOf, hplain c hc, hlower, List.map_singleton, hsigma d hd,
        h.see_sigma (List.mem_cons_of_mem _ hd)]
    rw [hone 'Σ' (by decide), hone 'σ' (by decide), hone 'ς' (by decide)]
    exact ⟨rfl, rfl⟩
  marks c d hc hd _ _ := by
    have hone : ∀ c, db.combiningClass c ≠ 0 → seenOf db change c = [none] := by
      intro c hc
      have hknown : ∀ e ∈ ['đ', 'Đ'], db.combiningClass e = 0 := by
        intro e he
        have hisKnown : ∀ e ∈ ['đ', 'Đ'], Vietnamese.isKnown e = true ∧
            Vietnamese.database.combiningClass e = 0 := by decide
        rw [h.agree.classOf e (hisKnown e he).1, (hisKnown e he).2]
      have hplain : plainD c = c := by
        rw [plainD, if_neg, if_neg]
        · rintro rfl
          exact hc (hknown 'Đ' (by decide))
        · rintro rfl
          exact hc (hknown 'đ' (by decide))
      rw [seenOf, hplain, h.lower_mark c (Or.inr hc), List.map_singleton, hmark c hc, h.see_mark hc]
    rw [hone c hc, hone d hd]

theorem KnowsPhrases.caseless_id : Caseless db (seenOf db id) :=
  h.caseless (fun _ _ => rfl) fun _ _ => rfl

theorem KnowsPhrases.caseless_apostrophe : Caseless db (seenOf db apostropheFold) := by
  refine h.caseless (fun c hc => if_neg fun hmem => ?_) (by decide)
  exact hc (h.apostrophe c (List.mem_cons_of_mem _ hmem)).2.2.2.1

/-! The folded query. -/

theorem KnowsPhrases.map_lower (s : Text) :
    (lower db s).map (see db) = s.flatMap fun c => (db.lower c).map (see db) := by
  suffices hfrom : ∀ before, (lowerFrom db before s).map (see db) =
      s.flatMap fun c => (db.lower c).map (see db) from hfrom []
  induction s with
  | nil => exact fun _ => rfl
  | cons c s ih =>
    intro before
    rw [lowerFrom, List.map_append, ih, List.flatMap_cons]
    congr 1
    split_ifs with hc hfinal
    · obtain ⟨d, hd, hlower⟩ := h.sigma_lower 'Σ' (by decide)
      rw [hc, hlower, List.map_singleton, List.map_singleton, h.see_sigma (by decide),
        h.see_sigma (List.mem_cons_of_mem _ hd)]
    · obtain ⟨d, hd, hlower⟩ := h.sigma_lower 'Σ' (by decide)
      rw [hc, hlower, List.map_singleton, List.map_singleton, h.see_sigma (by decide),
        h.see_sigma (List.mem_cons_of_mem _ hd)]
    · rfl

theorem KnowsPhrases.asciiFold_seen (s : Text) :
    (asciiFold db s).map (see db) = bases db (seenOf db id) s := by
  have hnfd := bases_decomposed (f := seenOf db id) (h.decompose_nfd (s := s))
  rw [asciiFold_eq, h.map_lower, List.flatMap_map, ← h.bases_nfd h.caseless_id, hnfd]
  rfl

/-- An apostrophe of the normal form is not hidden in another character. -/
theorem KnowsPhrases.no_hidden {q : Text} {a c : Char} (ha : a ∈ apostrophes)
    (hc : c ∈ lower db (nfc db q)) (hac : a ∈ db.decompose c) : c = a := by
  rcases mem_lowerFrom hc with hsigma | ⟨b, hb, -, hcb⟩
  · rw [(h.sigma c (List.mem_cons_of_mem _ hsigma)).1, List.mem_singleton] at hac
    exact hac.symm
  · have hlower : a ∈ (db.decompose b).flatMap db.lower := by
      rw [← h.lower_decompose]
      exact List.mem_flatMap.mpr ⟨c, hcb, hac⟩
    obtain ⟨d, hd, had⟩ := List.mem_flatMap.mp hlower
    obtain rfl := h.apostrophe_lower a ha d had
    rcases mem_compose hb with hb | ⟨x, y, hxy⟩
    · rw [h.decompose_nfd b hb, List.mem_singleton] at hd
      rw [← hd, (h.apostrophe d ha).2.1, List.mem_singleton] at hcb
      exact hcb
    · exact absurd hd (h.apostrophe_composed d ha x y b hxy)

/-- Folding an apostrophe before or after the marks are removed is the same. -/
theorem KnowsPhrases.bases_apostrophe {q : Text} {c : Char} (hc : c ∈ lower db (nfc db q)) :
    (baseOf db (apostropheFold c)).flatMap (seenOf db id) =
      (baseOf db c).flatMap (seenOf db apostropheFold) := by
  have hquote : '\'' ∈ apostrophes := List.mem_cons_self
  have hplain : ∀ a ∈ apostrophes, plainD a = a ∧ apostropheFold a = '\'' := by decide
  have hbase (a : Char) (ha : a ∈ apostrophes) : baseOf db a = [a] := by
    rw [baseOf_decomposed (h.apostrophe a ha).1, (h.apostrophe a ha).2.2.1]
    rfl
  by_cases hapostrophe : c ∈ apostrophes
  · have hsame : (db.lower '\'').map (fun e => see db (id e)) =
        (db.lower c).map fun e => see db (apostropheFold e) := by
      rw [(h.apostrophe _ hquote).2.1, (h.apostrophe c hapostrophe).2.1, List.map_singleton,
        List.map_singleton, (hplain c hapostrophe).2]
      rfl
    rw [(hplain c hapostrophe).2, hbase _ hquote, hbase c hapostrophe, List.flatMap_singleton,
      List.flatMap_singleton, seenOf, seenOf, (hplain _ hquote).1, (hplain c hapostrophe).1, hsame]
  · have hself : apostropheFold c = c :=
      if_neg fun hmem => hapostrophe (List.mem_cons_of_mem _ hmem)
    rw [hself]
    refine List.flatMap_congr fun d hd => List.map_congr_left fun e he => ?_
    have hkeep : apostropheFold e = e := by
      refine if_neg fun hmem => hapostrophe ?_
      -- only the apostrophe itself becomes one in lower case
      have hmem : e ∈ apostrophes := List.mem_cons_of_mem _ hmem
      have hplainD := h.apostrophe_lower e hmem _ he
      have hde : d = e := by
        unfold plainD at hplainD
        split_ifs at hplainD
        · rw [← hplainD] at hmem
          exact absurd hmem (by decide)
        · rw [← hplainD] at hmem
          exact absurd hmem (by decide)
        · exact hplainD
      rw [hde] at hd
      rw [h.no_hidden hmem hc (List.mem_of_mem_filter hd)]
      exact hmem
    rw [hkeep]
    rfl

theorem KnowsPhrases.space_blank : db.space ' ' = true := by
  rw [h.space_letter ' ' (by decide)]
  rfl

theorem KnowsPhrases.blank_seen : (baseOf db ' ').flatMap (seenOf db id) = [some ' '] := by
  have hbase : baseOf db ' ' = [' '] := by
    rw [baseOf_decomposed (h.agree.decomposeOf ' ' (by decide)), h.agree.markOf ' ' (by decide)]
    decide
  have hlower : db.lower ' ' = [' '] := h.agree.lowerOf ' ' (by decide)
  have hplain : plainD ' ' = ' ' := by decide
  rw [hbase, List.flatMap_singleton, seenOf, hplain, hlower, List.map_singleton]
  exact congrArg (fun e => [e]) (h.see_letter (by decide))

/-- The words of the query in normal form, before its apostrophes are folded. -/
theorem KnowsPhrases.plainWords_eq (q : Text) : plainWords db q =
    (Text.words db.space (lower db (nfc db q))).map (bases db (seenOf db apostropheFold)) := by
  have hlower := (h.keepsWords_lower h.caseless_apostrophe).baseWords_eq (nfc db q)
  have hnfc := (h.keepsWords_nfc h.caseless_apostrophe).baseWords_eq q
  rw [plainWords, ← hnfc, ← hlower]
  rfl

theorem KnowsPhrases.space_apostropheFold (c : Char) : db.space (apostropheFold c) = db.space c := by
  unfold apostropheFold
  split_ifs with hc
  · rw [(h.apostrophe '\'' List.mem_cons_self).2.2.2.2,
      (h.apostrophe c (List.mem_cons_of_mem _ hc)).2.2.2.2]
  · rfl

/-- What is seen of the folded query, with a space in front. -/
theorem KnowsPhrases.normalize_seen (q : Text) :
    (normalize db q = [] ∧ spread (plainWords db q) = []) ∨
      some ' ' :: (asciiFold db (normalize db q)).map (see db) = spread (plainWords db q) := by
  have hws : Text.words db.space ((lower db (nfc db q)).map apostropheFold) =
      (Text.words db.space (lower db (nfc db q))).map (List.map apostropheFold) :=
    Text.words_map h.space_apostropheFold _
  rw [h.plainWords_eq]
  by_cases hnil : Text.words db.space (lower db (nfc db q)) = []
  · left
    rw [normalize, hws, hnil]
    exact ⟨rfl, rfl⟩
  · right
    have hword : ∀ w ∈ Text.words db.space (lower db (nfc db q)),
        bases db (seenOf db id) (w.map apostropheFold) = bases db (seenOf db apostropheFold) w := by
      intro w hw
      rw [bases, bases, List.flatMap_map]
      exact List.flatMap_congr fun c hc => h.bases_apostrophe (Text.mem_of_mem_words hw hc)
    have hspread : bases db (seenOf db id) (' ' :: normalize db q) = spread (plainWords db q) := by
      have hne : (Text.words db.space (lower db (nfc db q))).map (List.map apostropheFold) ≠ [] :=
        fun hmap => hnil (List.map_eq_nil_iff.mp hmap)
      rw [normalize, hws, Text.cons_join hne, h.plainWords_eq, spread, List.flatMap_map,
        List.flatMap_map, bases, List.flatMap_assoc]
      refine List.flatMap_congr fun w hw => ?_
      rw [List.flatMap_cons, h.blank_seen, ← hword w hw]
      rfl
    rw [h.asciiFold_seen, ← h.plainWords_eq, ← hspread, bases_cons, h.blank_seen]
    rfl

/-! The keywords. -/

theorem KnowsPhrases.letter_seen {l : Char} (hl : l ∈ phraseLetters) :
    (baseOf db l).flatMap (seenOf db apostropheFold) =
      (plainOf Vietnamese.database l).map some := by
  have hknown := List.all_eq_true.mp phraseLetters_known l hl
  simp only [Bool.and_eq_true, List.all_eq_true, List.contains_iff_mem, beq_iff_eq] at hknown
  obtain ⟨⟨⟨⟨hself, hdecompose⟩, hplain⟩, -⟩, hletters⟩ := hknown
  have hbase : baseOf db l = baseOf Vietnamese.database l := by
    rw [baseOf, baseOf, h.agree.decomposeOf l hself]
    exact List.filter_congr fun d hd => by rw [h.agree.markOf d (hdecompose d hd)]
  rw [hbase, plainOf, List.map_flatMap]
  refine List.flatMap_congr fun d hd => ?_
  rw [seenOf, h.agree.lowerOf _ (hplain d hd)]
  refine List.map_congr_left fun e he => ?_
  obtain ⟨hphrase, hfold⟩ := hletters e (List.mem_flatMap.mpr ⟨d, hd, he⟩)
  rw [hfold, h.see_letter hphrase]

theorem KnowsPhrases.keyword_folded {k : Text} (hk : k ∈ emergencyKeywordsVi ++ emergencyKeywordsEn) :
    (asciiFold db (normalize db k)).map (see db) = (plainForm k).map some := by
  have hspelled := List.all_eq_true.mp keywords_spelled k hk
  simp only [Bool.and_eq_true, List.all_eq_true, List.contains_iff_mem, beq_iff_eq,
    Bool.not_eq_true', List.isEmpty_eq_false_iff] at hspelled
  obtain ⟨⟨hletters, hne⟩, hwords⟩ := hspelled
  have hspace : Text.words db.space k = Text.words (· == ' ') k :=
    Text.words_congr fun c hc => h.space_letter c (hletters c hc)
  have hplain (s : Text) (hs : ∀ c ∈ s, c ∈ phraseLetters) :
      bases db (seenOf db apostropheFold) s = (plainForm s).map some := by
    rw [bases, plainForm, List.map_flatMap]
    exact List.flatMap_congr fun c hc => h.letter_seen (hs c hc)
  have hblank : (baseOf db ' ').flatMap (seenOf db apostropheFold) = [some ' '] := by
    rw [h.letter_seen (by decide)]
    decide
  have hspread : spread (plainWords db k) = some ' ' :: (plainForm k).map some := by
    calc spread (plainWords db k)
        = (Text.words (· == ' ') k).flatMap
            fun w => some ' ' :: bases db (seenOf db apostropheFold) w := by
          rw [plainWords, baseWords, hspace, spread, List.flatMap_map]
      _ = bases db (seenOf db apostropheFold)
            ((Text.words (· == ' ') k).flatMap (' ' :: ·)) := by
          rw [bases, List.flatMap_assoc]
          refine List.flatMap_congr fun w _ => ?_
          rw [List.flatMap_cons, hblank]
          rfl
      _ = some ' ' :: (plainForm k).map some := by
          rw [← hwords, bases_cons, hblank, hplain k hletters]
          rfl
  rcases h.normalize_seen k with ⟨-, hnil⟩ | hseen
  · rw [hspread] at hnil
    cases hnil
  · rw [hspread] at hseen
    exact (List.cons.inj hseen).2

theorem KnowsPhrases.keyword_eq {k : Text} (hk : k ∈ emergencyKeywordsVi ++ emergencyKeywordsEn) :
    asciiFold db (normalize db k) = plainForm k := eq_of_map_see (h.keyword_folded hk)

/-- A keyword is found when it occurs without its marks. -/
theorem KnowsPhrases.keywordMatches_iff {k q : Text}
    (hk : k ∈ emergencyKeywordsVi ++ emergencyKeywordsEn) :
    keywordMatches db (normalize db q) (asciiFold db (normalize db q)) k = true ↔
      plainForm k <:+: asciiFold db (normalize db q) := by
  rw [keywordMatches, Bool.or_eq_true, Text.contains_iff, Text.contains_iff, h.keyword_eq hk]
  refine ⟨fun hfound => hfound.elim (fun hpart => ?_) id, Or.inr⟩
  -- what is around the keyword keeps to itself when the marks are removed
  obtain ⟨x, y, hxy⟩ := hpart
  apply @infix_of_map_see db
  rw [h.asciiFold_seen, ← hxy, bases_append, bases_append, ← h.asciiFold_seen (normalize db k),
    h.keyword_folded hk]
  exact ⟨_, _, rfl⟩

theorem KnowsPhrases.keyword_seen {k q : Text} (hk : k ∈ emergencyKeywordsVi ++ emergencyKeywordsEn) :
    plainForm k <:+: asciiFold db (normalize db q) ↔
      (plainForm k).map some <:+: (asciiFold db (normalize db q)).map (see db) := by
  refine ⟨fun hpart => ?_, infix_of_map_see⟩
  rw [← h.keyword_folded hk, h.keyword_eq hk]
  exact hpart.map _

/-! The patterns. -/

theorem KnowsPhrases.space_plainD (c : Char) : db.space (plainD c) = db.space c := by
  have hupper (l e : Char) (hl : Vietnamese.isKnown l = true) (he : Vietnamese.database.lower l = [e])
      (hle : l ≠ e) : db.space l = false := by
    by_contra hspace
    obtain ⟨_, hboundary, -⟩ := h.space_boundary l (by simpa using hspace)
    have hlower := h.agree.lowerOf l hl
    rw [hboundary.lower_self, he] at hlower
    exact hle (List.cons.inj hlower).1
  unfold plainD
  split_ifs with hsmall hcapital
  · rw [hsmall, h.space_letter 'd' (by decide), h.space_letter 'đ' (by decide)]
    decide
  · rw [hcapital, hupper 'D' 'd' (by decide) (by decide) (by decide),
      hupper 'Đ' 'đ' (by decide) (by decide) (by decide)]
  · rfl

/-- The folded query is on one line. -/
theorem KnowsPhrases.no_newline {q : Text} {c : Char} (hc : c ∈ asciiFold db (normalize db q)) :
    c ≠ '\n' := by
  have hblank : db.decompose ' ' = [' '] ∧ db.lower ' ' = [' '] :=
    ⟨h.agree.decomposeOf ' ' (by decide), h.agree.lowerOf ' ' (by decide)⟩
  have hnormal : ∀ d ∈ normalize db q, d = ' ' ∨ db.space d = false := by
    intro d hd
    rcases Text.mem_join hd with hd | ⟨w, hw, hd⟩
    · exact Or.inl (List.mem_singleton.mp hd)
    · exact Or.inr ((Text.not_space_of_mem_words hw).2 d hd)
  have hplain : ∀ d ∈ (withoutMarks db (normalize db q)).map plainD, d = ' ' ∨ db.space d = false := by
    intro d hd
    obtain ⟨e, he, rfl⟩ := List.mem_map.mp hd
    obtain ⟨b, hb, heb⟩ := mem_nfd.mp (List.mem_of_mem_filter he)
    rcases hnormal b hb with rfl | hspace
    · rw [hblank.1, List.mem_singleton] at heb
      rw [heb]
      exact Or.inl (by decide)
    · right
      rw [h.space_plainD, h.decompose_space b hspace e heb]
  rw [asciiFold_eq] at hc
  have hink : c = ' ' ∨ db.space c = false := by
    rcases mem_lowerFrom hc with hsigma | ⟨d, hd, -, hcd⟩
    · exact Or.inr (h.sigma c (List.mem_cons_of_mem _ hsigma)).2.2
    · rcases hplain d hd with rfl | hspace
      · rw [hblank.2, List.mem_singleton] at hcd
        exact Or.inl hcd
      · exact Or.inr (h.lower_space d hspace c hcd)
  rintro rfl
  rcases hink with hblank | hspace
  · exact absurd hblank (by decide)
  · rw [h.space_newline] at hspace
    cases hspace

theorem KnowsPhrases.pattern_found {r : Regex} {steps : List (Step (List CharClass))} {q : Text}
    (hr : r ∈ suspiciousPatterns) (hsteps : r.steps = some steps) :
    ((search (patternMode db) r (normalize db q)).isSome = true ∨
      (search (patternMode db) r (asciiFold db (normalize db q))).isSome = true) ↔
      Step.Occurs (readsInCase db) (fun _ => True) steps
        ((asciiFold db (normalize db q)).map (see db)) := by
  obtain ⟨steps', hsteps', hspelled, -⟩ := pattern_spelled hr
  obtain rfl := Option.some.inj (hsteps.symm.trans hsteps')
  have hclass : ∀ classes, Step.one classes ∈ steps → ∀ x ∈ classes, ∃ l ∈ phraseLetters,
      x = .char l ∧ ∀ b ∈ plainOf Vietnamese.database l, .char b ∈ classes := by
    intro classes hclasses x hx
    have hall := List.all_eq_true.mp hspelled _ hclasses
    have hone := List.all_eq_true.mp hall x hx
    cases x with
    | char l =>
      simp only [Bool.and_eq_true, List.all_eq_true, List.contains_iff_mem] at hone
      exact ⟨l, hone.1, rfl, hone.2⟩
    | _ => cases hone
  have haccepts (classes : List CharClass) (c : Char) (hclasses : Step.one classes ∈ steps) :
      (patternMode db).accepts classes c ↔
        ∃ l ∈ phraseLetters, .char l ∈ classes ∧ l ∈ db.caseVariants c :=
    accepts_iff fun x hx => (hclass classes hclasses x hx).imp fun l hl => ⟨hl.1, hl.2.1⟩
  rw [search_steps hsteps, search_steps hsteps]
  constructor
  · rintro (hfound | hfound)
    · -- the plain letter of what was accepted is accepted too
      rw [h.asciiFold_seen]
      refine hfound.flatMap (fun classes c hclasses _ hc => ?_) fun _ _ _ _ _ => trivial
      obtain ⟨l, hl, hmem, hvariant⟩ := (haccepts classes c hclasses).mp hc
      obtain ⟨-, -, e, he, hbase⟩ := h.variant_letter c l hl hvariant
      obtain ⟨b, hb, hplain⟩ := plainOf_phrase hl
      have hbe : b ∈ db.caseVariants e := hbase b (by rw [hplain]; exact List.mem_singleton_self b)
      obtain ⟨l', -, hl', hplain'⟩ := hclass classes hclasses _ hmem
      obtain rfl := CharClass.char.inj hl'
      have hmem' := hplain' b (by rw [hplain]; exact List.mem_singleton_self b)
      have hsee : see db e = some e := see_eq_some.mpr ⟨rfl, seen_iff.mpr ⟨b, hb, hbe⟩⟩
      have hgives : (baseOf db c).flatMap (seenOf db id) = (plainOf db c).map (see db) :=
        (List.map_flatMap).symm
      refine ⟨some e, ?_, e, rfl, b, hb, hmem', hbe⟩
      rw [hgives, he, List.map_singleton, hsee]
    · rw [← List.flatMap_pure_eq_map]
      refine hfound.flatMap (fun classes c hclasses _ hc => ?_) fun _ _ _ _ _ => trivial
      obtain ⟨l, hl, hmem, hvariant⟩ := (haccepts classes c hclasses).mp hc
      have hsee : see db c = some c := see_eq_some.mpr ⟨rfl, seen_iff.mpr ⟨l, hl, hvariant⟩⟩
      exact ⟨see db c, rfl, c, hsee, l, hl, hmem, hvariant⟩
  · intro hfound
    right
    rw [Step.occurs_map] at hfound
    have hback : Step.Occurs (patternMode db).accepts (· ≠ '\n') steps
        ((asciiFold db (normalize db q)).flatMap fun c => [c]) := by
      refine hfound.flatMap (fun classes c hclasses _ hc => ?_) fun c hc _ d hd => ?_
      · obtain ⟨d, hd, hread⟩ := hc
        rw [(see_eq_some.mp hd).1]
        exact ⟨d, rfl, (haccepts classes d hclasses).mpr hread⟩
      · rw [List.mem_singleton.mp hd]
        exact h.no_newline hc
    rwa [List.flatMap_singleton'] at hback

/-! The verdict. -/

theorem KnowsPhrases.readsInCase_blank (classes : List CharClass)
    (hclasses : readsInCase db classes (some ' ')) : readsBlank classes = true := by
  obtain ⟨c, hc, l, hl, hmem, hvariant⟩ := hclasses
  obtain rfl := Option.some.inj hc
  rw [h.variant_space l hl hvariant] at hmem
  exact List.contains_iff_mem.mpr hmem

theorem KnowsPhrases.found_iff (q : Text) : (checkQuery db q).isEmergency = true ↔
    Found db ((asciiFold db (normalize db q)).map (see db)) := by
  rw [checkQuery_isEmergency, Bool.or_eq_true, checkKeywords, checkPatterns, Option.isSome_map,
    List.find?_isSome, List.findSome?_isSome_iff]
  refine or_congr ?_ ?_
  · refine exists_congr fun k => and_congr_right fun hk => ?_
    rw [h.keywordMatches_iff hk, h.keyword_seen hk, occurs_letters (plainForm_letters hk)]
  · refine exists_congr fun r => and_congr_right fun hr => ?_
    obtain ⟨steps, hsteps, -⟩ := pattern_spelled hr
    rw [Option.isSome_or, Bool.or_eq_true]
    constructor
    · exact fun hfound => ⟨steps, hsteps, (h.pattern_found hr hsteps).mp hfound⟩
    · rintro ⟨steps', hsteps', hoccurs⟩
      exact (h.pattern_found hr hsteps').mpr hoccurs

/-- The verdict depends on the plain letters of the words alone. -/
theorem KnowsPhrases.isEmergency_iff (q : Text) : (checkQuery db q).isEmergency = true ↔
    Found db (spread (plainWords db q)) := by
  rw [h.found_iff]
  rcases h.normalize_seen q with ⟨hnil, hspread⟩ | hseen
  · rw [hnil, hspread]
    rfl
  · rw [← hseen]
    refine or_congr ?_ ?_
    · refine exists_congr fun k => and_congr_right fun hk => ?_
      have hspaced := List.all_eq_true.mp keywords_spaced k hk
      exact (Step.occurs_cons_sep readsSame_blank hspaced).symm
    · refine exists_congr fun r => and_congr_right fun hr => exists_congr fun steps =>
        and_congr_right fun hsteps => ?_
      obtain ⟨steps', hsteps', -, hspaced⟩ := pattern_spelled hr
      obtain rfl := Option.some.inj (hsteps.symm.trans hsteps')
      exact (Step.occurs_cons_sep h.readsInCase_blank hspaced).symm

end

end Qiki.Safety
