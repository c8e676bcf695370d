import Mathlib.Data.List.MinMax
import Qiki.Chat.Plan
import Qiki.Chat.StoredSlots

/-! Which product a line of the cart means when only its display name is kept. -/
namespace Qiki.Chat

open Unicode Orders Catalog

section
variable (db : Database)

/-- What `_match_product` looks for when it is given the display name. -/
def displayQuery (product : Product) : Text :=
  normalizeMatchText db (formatProductDisplayName db product)

/-- The words of a query that raise a score. -/
def scores (token : Text) : Bool := !isNumberToken token && 2 ≤ token.length

/-- The display name has a word that is no number and no word of every product. -/
def Distinctive (product : Product) : Bool :=
  (tokens (displayQuery db product)).any fun token =>
    !genericProductMatchTokens.contains token && scores token

/-- The other product has the whole display name among its own names. -/
def Shadows (other product : Product) : Bool :=
  (haystack db other).contains (displayQuery db product) &&
    (tokens (displayQuery db product)).all fun token =>
      !scores token || (tokens (haystack db other)).contains token

/-! The loop of `_match_product`. -/

variable {db}

theorem matchScore_pos {query fields : Text} (h : specificTokenHit query fields = true) :
    0 < matchScore query fields := by
  obtain ⟨token, htoken, hhit⟩ := List.any_eq_true.mp h
  simp only [Bool.and_eq_true] at hhit
  refine Nat.add_pos_right _ (List.countP_pos_iff.mpr ⟨token, htoken, ?_⟩)
  simp only [Bool.and_eq_true]
  exact ⟨⟨hhit.1.1.2, hhit.1.2⟩, hhit.2⟩

/-- The products that a query may mean. -/
def candidates (db : Database) (query : Text) (products : List Product) : List Product :=
  products.filter fun product => specificTokenHit query (haystack db product)

theorem candidates_concat (query : Text) (products : List Product) (p : Product) :
    candidates db query (products ++ [p]) =
      if specificTokenHit query (haystack db p) then candidates db query products ++ [p]
      else candidates db query products := by
  unfold candidates
  rw [List.filter_append]
  split_ifs with hhit <;> simp [hhit]

/-- The loop finds the first candidate with the highest score. -/
theorem foldl_betterMatch (query : Text) (products : List Product) :
    products.foldl (betterMatch db query) (none, 0) =
      match (candidates db query products).argmax fun p => matchScore query (haystack db p) with
      | none => (none, 0)
      | some best => (some best, matchScore query (haystack db best)) := by
  induction products using List.reverseRecOn with
  | nil => rfl
  | append_singleton products p ih =>
    rw [List.foldl_append, ih, candidates_concat]
    simp only [List.foldl_cons, List.foldl_nil, betterMatch]
    cases hhit : specificTokenHit query (haystack db p) with
    | false => simp
    | true =>
      rw [if_pos rfl, List.argmax_concat]
      cases (candidates db query products).argmax fun p => matchScore query (haystack db p) with
      | none => simp [matchScore_pos hhit]
      | some best =>
        simp only [Bool.true_and, decide_eq_true_eq]
        split_ifs <;> rfl

theorem matchProduct_eq_argmax (text : Text) (products : List Product) :
    matchProduct db (some text) products =
      (candidates db (normalizeMatchText db text) products).argmax fun p =>
        matchScore (normalizeMatchText db text) (haystack db p) := by
  by_cases hempty : normalizeMatchText db text = []
  · have hnone : candidates db [] products = [] := by
      simp [candidates, specificTokenHit, tokens, Text.words]
    rw [matchProduct_of_empty db hempty, hempty, hnone, List.argmax_nil]
  · have hpresent : present (some text) = true := by
      cases text with
      | nil => exact absurd rfl hempty
      | cons c text => rfl
    rw [matchProduct, if_pos hpresent, foldl_betterMatch, Option.getD_some]
    split <;> simp_all

theorem matchProduct_mem {text : Option Text} {products : List Product} {p : Product}
    (h : matchProduct db text products = some p) : p ∈ products := by
  cases text with
  | none => cases h
  | some t =>
    rw [matchProduct_eq_argmax] at h
    exact List.mem_of_mem_filter (List.argmax_mem h)

/-! The display name among the names of its own product, and of another one. -/

theorem displayQuery_mem (p : Product) :
    displayQuery db p ∈ (matchFields db p).map (normalizeMatchText db) :=
  List.mem_map_of_mem (by simp [matchFields])

theorem haystack_contains_own (p : Product) :
    (haystack db p).contains (displayQuery db p) = true := by
  have hmem : displayQuery db p ∈ (matchFields db p).map (normalizeMatchText db) :=
    displayQuery_mem p
  obtain ⟨before, after, hjoin⟩ := Text.exists_join_of_mem [' '] hmem
  exact Text.contains_iff.mpr ⟨before, after, by rw [List.append_assoc]; exact hjoin.symm⟩

theorem token_mem_own {p : Product} {token : Text} (h : token ∈ tokens (displayQuery db p)) :
    token ∈ tokens (haystack db p) := by
  unfold tokens haystack
  rw [Text.words_join rfl, List.mem_flatMap]
  exact ⟨_, displayQuery_mem p, h⟩

theorem specificTokenHit_own (p : Product) :
    specificTokenHit (displayQuery db p) (haystack db p) = Distinctive db p := by
  unfold specificTokenHit Distinctive scores
  rw [Bool.eq_iff_iff, List.any_eq_true, List.any_eq_true]
  refine exists_congr fun token => and_congr_right fun htoken => ?_
  have hown : (tokens (haystack db p)).contains token = true := by simpa using token_mem_own htoken
  rw [hown, Bool.and_true, Bool.and_assoc]

theorem displayQuery_ne_nil {p : Product} (h : Distinctive db p = true) :
    (displayQuery db p).isEmpty = false := by
  cases hquery : displayQuery db p with
  | nil => simp [Distinctive, hquery, tokens, Text.words] at h
  | cons c query => rfl

theorem matchScore_eq (query fields : Text) : matchScore query fields =
    (if !query.isEmpty && fields.contains query then 4 else 0) +
      ((tokens query).filter scores).countP (tokens fields).contains := by
  rw [matchScore, List.countP_filter]
  congr 2
  funext token
  simp only [scores, Bool.and_comm]

theorem matchScore_own {p : Product} (h : Distinctive db p = true) :
    matchScore (displayQuery db p) (haystack db p) =
      4 + ((tokens (displayQuery db p)).filter scores).length := by
  have hall : ((tokens (displayQuery db p)).filter scores).countP
      (tokens (haystack db p)).contains = ((tokens (displayQuery db p)).filter scores).length := by
    refine List.countP_eq_length.mpr fun token htoken => ?_
    simpa using token_mem_own (List.mem_filter.mp htoken).1
  rw [matchScore_eq, hall, haystack_contains_own]
  simp [displayQuery_ne_nil h]

/-- No product scores higher than the one whose display name it is, and those that score as high
are the ones that shadow it. -/
theorem matchScore_le_own {p : Product} (h : Distinctive db p = true) (q : Product) :
    matchScore (displayQuery db p) (haystack db q) ≤
        matchScore (displayQuery db p) (haystack db p) ∧
      (matchScore (displayQuery db p) (haystack db p) ≤
        matchScore (displayQuery db p) (haystack db q) ↔ Shadows db q p = true) := by
  rw [matchScore_own h, matchScore_eq]
  have hle : ((tokens (displayQuery db p)).filter scores).countP (tokens (haystack db q)).contains ≤
      ((tokens (displayQuery db p)).filter scores).length := List.countP_le_length
  have heq : ((tokens (displayQuery db p)).filter scores).countP (tokens (haystack db q)).contains =
      ((tokens (displayQuery db p)).filter scores).length ↔
        (tokens (displayQuery db p)).all (fun token =>
          !scores token || (tokens (haystack db q)).contains token) = true := by
    simp only [List.countP_eq_length, List.mem_filter, List.all_eq_true, Bool.or_eq_true,
      Bool.not_eq_true', and_imp]
    refine forall₂_congr fun token _ => ?_
    cases scores token <;> simp
  have hshadows : Shadows db q p = true ↔ (haystack db q).contains (displayQuery db p) = true ∧
      ((tokens (displayQuery db p)).filter scores).countP (tokens (haystack db q)).contains =
        ((tokens (displayQuery db p)).filter scores).length := by
    rw [Shadows, Bool.and_eq_true, heq]
  rw [hshadows]
  simp only [displayQuery_ne_nil h, Bool.not_false, Bool.true_and]
  split_ifs with hcontains
  · simp only [hcontains, true_and]
    omega
  · simp only [hcontains, Bool.false_eq_true, false_and, iff_false]
    omega

theorem specificTokenHit_of_shadows {p q : Product} (h : Distinctive db p = true)
    (hs : Shadows db q p = true) : specificTokenHit (displayQuery db p) (haystack db q) = true := by
  obtain ⟨token, htoken, hd⟩ := List.any_eq_true.mp h
  rw [Bool.and_eq_true] at hd
  have hin := List.all_eq_true.mp (Bool.and_eq_true_iff.mp hs).2 token htoken
  simp only [hd.2, Bool.not_true, Bool.false_or] at hin
  refine List.any_eq_true.mpr ⟨token, htoken, ?_⟩
  have hscores := hd.2
  simp only [scores] at hscores
  simp only [hd.1, hin, hscores, Bool.and_true, Bool.true_and]

/-! The product that a display name means. -/

/-- Among products with different display names, a display name means its own product exactly when
it has a word of its own and no earlier product shadows it. -/
theorem matchProduct_displayName {before after : List Product} {p : Product}
    (hdistinct : ((before ++ p :: after).map (displayQuery db)).Nodup) :
    matchProduct db (some (formatProductDisplayName db p)) (before ++ p :: after) = some p ↔
      Distinctive db p = true ∧ ∀ q ∈ before, Shadows db q p = false := by
  have hbefore : p ∉ before := by
    rw [List.map_append, List.nodup_append] at hdistinct
    intro hp
    exact hdistinct.2.2 _ (List.mem_map_of_mem hp) _ (List.mem_map_of_mem (List.mem_cons_self ..)) rfl
  rw [matchProduct_eq_argmax, ← displayQuery, List.argmax_eq_some_iff]
  have hsplit : candidates db (displayQuery db p) (before ++ p :: after) =
      candidates db (displayQuery db p) before ++ candidates db (displayQuery db p) (p :: after) :=
    List.filter_append ..
  have hmem : p ∈ candidates db (displayQuery db p) (before ++ p :: after) ↔
      Distinctive db p = true := by
    rw [candidates, List.mem_filter, specificTokenHit_own]
    simp
  rw [hmem]
  refine and_congr_right fun hd => ?_
  have hout : p ∉ candidates db (displayQuery db p) before := fun hp =>
    hbefore (List.mem_filter.mp hp).1
  have hfirst : (candidates db (displayQuery db p) (before ++ p :: after)).idxOf p =
      (candidates db (displayQuery db p) before).length := by
    have hcons : candidates db (displayQuery db p) (p :: after) =
        p :: candidates db (displayQuery db p) after :=
      List.filter_cons_of_pos (by rw [specificTokenHit_own]; exact hd)
    rw [hsplit, List.idxOf_append_of_notMem hout, hcons, List.idxOf_cons_self, Nat.add_zero]
  constructor
  · rintro ⟨-, hfirsts⟩ q hq
    by_contra hshadows
    rw [Bool.not_eq_false] at hshadows
    have hcandidate : q ∈ candidates db (displayQuery db p) before :=
      List.mem_filter.mpr ⟨hq, specificTokenHit_of_shadows hd hshadows⟩
    have hle := hfirsts q (hsplit ▸ List.mem_append_left _ hcandidate)
      ((matchScore_le_own hd q).2.mpr hshadows)
    rw [hfirst, hsplit, List.idxOf_append_of_mem hcandidate] at hle
    have hlt := List.idxOf_lt_length_iff.mpr hcandidate
    omega
  · intro hshadows
    refine ⟨fun q _ => (matchScore_le_own hd q).1, fun q hq hle => ?_⟩
    have hq' : q ∉ candidates db (displayQuery db p) before := by
      intro hcandidate
      have hfree := hshadows q (List.mem_filter.mp hcandidate).1
      rw [(matchScore_le_own hd q).2.mp hle] at hfree
      cases hfree
    rw [hfirst, hsplit, List.idxOf_append_of_notMem hq']
    omega

end

/-! Lines that are stored and read again. -/

section
variable {rt : Runtime}

/-- The cart of the next turn: written to the metadata of a message and read from it. -/
def restored (rt : Runtime) (items : List ChatOrderItem) : List ChatOrderItem :=
  itemsFromMetadata rt (.arr (itemsToMetadata items))

/-- A product is what its display name means, now and after any number of turns. -/
structure KeepsIdentity (rt : Runtime) (products : List Product) (p : Product) : Prop where
  matched : matchProduct rt.db (some (formatProductDisplayName rt.db p)) products = some p
  resolved : ∀ (turns : ℕ) (quantity : Option ℕ),
    (matchOrderItems rt.db ((restored rt)^[turns] [⟨some (formatProductDisplayName rt.db p), quantity⟩])
      products).map Prod.snd = [some p]

theorem restored_line (h : BlanksSeparate rt.db) {text : Text}
    (htext : normalizeMatchText rt.db text ≠ []) (quantity : Option ℕ) :
    restored rt [⟨some text, quantity⟩] =
      [⟨some (Text.strip rt.db.space text), quantity.filter (0 < ·)⟩] := by
  have hne : Text.strip rt.db.space text ≠ [] := by
    intro hnil
    rw [← normalizeMatchText_strip h, hnil] at htext
    exact htext rfl
  have hreread : reread rt.db (some text) = some (Text.strip rt.db.space text) := by
    simp [reread, nonEmpty, hne]
  rw [restored, itemsFromMetadata_itemsToMetadata, List.map_singleton, rereadItem, hreread]
  simp [saysSomething, present, hne]

theorem resolved_of_matched (h : BlanksSeparate rt.db) {products : List Product} {p : Product}
    (turns : ℕ) {text : Text} (quantity : Option ℕ)
    (hmatched : matchProduct rt.db (some text) products = some p) :
    (matchOrderItems rt.db ((restored rt)^[turns] [⟨some text, quantity⟩]) products).map Prod.snd =
      [some p] := by
  induction turns generalizing text quantity with
  | zero => simp [matchOrderItems, hmatched]
  | succ turns ih =>
    have htext : normalizeMatchText rt.db text ≠ [] := by
      intro hempty
      rw [matchProduct_of_empty rt.db hempty] at hmatched
      cases hmatched
    rw [Function.iterate_succ_apply, restored_line h htext]
    exact ih _ ((matchProduct_strip h text products).trans hmatched)

/-- A product keeps its identity in the cart exactly when its display name has a word of its own
and no earlier product of the catalog has the whole display name among its names. -/
theorem keepsIdentity_iff (h : BlanksSeparate rt.db) {before after : List Product} {p : Product}
    (hdistinct : ((before ++ p :: after).map (displayQuery rt.db)).Nodup) :
    KeepsIdentity rt (before ++ p :: after) p ↔
      Distinctive rt.db p = true ∧ ∀ q ∈ before, Shadows rt.db q p = false := by
  rw [← matchProduct_displayName hdistinct]
  constructor
  · exact fun hkeeps => hkeeps.matched
  · intro hmatched
    exact ⟨hmatched, fun turns quantity => resolved_of_matched h turns quantity hmatched⟩

end

/-! Two bottles of one size. -/

def vihawa : Product where
  id := 17
  sku := "VIHAWA-20L"
  name := "Nước Vihawa 20 lít"
  brand := "Vihawa"
  sizeKg := 20
  category := .nuocUong
  unit := "lít"
  price := 55000
  salePrice := none
  stockQuantity := 50
  isActive := true

def vihawaHotCold : Product :=
  { vihawa with id := 18, sku := "VIHAWA-20L-NL", name := "Nước Vihawa 20 lít (bình nóng lạnh)" }

/-- A hot-cold bottle that comes before the plain one by its name. -/
def hotColdBottle : Product :=
  { vihawa with id := 19, sku := "VIHAWA-NL", name := "Bình nước Vihawa 20 lít nóng lạnh" }

/-- The plain bottle turns into the hot-cold one that stands before it in the catalog. -/
theorem plain_bottle_taken_for_hotCold : ¬ ∀ (rt : Runtime) (products : List Product) (p : Product),
    BlanksSeparate rt.db → (products.map (displayQuery rt.db)).Nodup → p ∈ products →
    KeepsIdentity rt products p := by
  intro h
  have hdistinct : (([hotColdBottle] ++ [vihawa]).map (displayQuery plainRuntime.db)).Nodup := by
    decide +kernel
  have hkeeps := h plainRuntime ([hotColdBottle] ++ [vihawa]) vihawa blanksSeparate_database hdistinct
    (List.mem_append_right _ (List.mem_singleton_self _))
  have hshadows : Shadows plainRuntime.db hotColdBottle vihawa = true := by decide +kernel
  have hfree := ((matchProduct_displayName hdistinct).mp hkeeps.matched).2 hotColdBottle
    (List.mem_singleton_self _)
  exact Bool.false_ne_true (hfree.symm.trans hshadows)

/-- The hot-cold bottle keeps its identity behind the plain one. -/
theorem keepsIdentity_hotCold :
    KeepsIdentity plainRuntime ([vihawa] ++ [vihawaHotCold]) vihawaHotCold := by
  have hdistinct : (([vihawa] ++ [vihawaHotCold]).map (displayQuery plainRuntime.db)).Nodup := by
    decide +kernel
  have hown : Distinctive plainRuntime.db vihawaHotCold = true := by decide +kernel
  have hfree : Shadows plainRuntime.db vihawa vihawaHotCold = false := by decide +kernel
  refine (keepsIdentity_iff blanksSeparate_database hdistinct).mpr ⟨hown, fun q hq => ?_⟩
  rw [List.mem_singleton.mp hq]
  exact hfree

end Qiki.Chat
