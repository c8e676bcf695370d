import Mathlib.Algebra.Order.Field.Basic
import Mathlib.Data.List.Sort
import Qiki.Knowledge.Documents

/-! `hybrid_search`: vector similarity blended with BM25 scores. The hits of the vector search and
the scores that the BM25 library gives the documents are arbitrary. -/
namespace Qiki.Knowledge

open Orders

/-- `KnowledgeBaseSearchResult` -/
structure SearchResult (α : Type) where
  id : Uuid
  title : Text
  content : Text
  category : Text
  similarity : α
  source : Option Text
  deriving DecidableEq

section
variable {ε α : Type} [DivisionRing α] [LinearOrder α]

/-- `_search_result` -/
def searchResult (document : KbDocument ε) (similarity : α) : SearchResult α where
  id := document.id
  title := document.title
  content := document.content
  category := document.category
  similarity := similarity
  source := document.source

/-- `max_score` -/
def maxScore (scored : List (KbDocument ε × α)) : α := (scored.map Prod.snd).max?.getD 0

/-- `float(score) / max_score if max_score else 0.0` -/
def normalizedScore (max score : α) : α := if max = 0 then 0 else score / max

/-- `ranked[:top_k]`, from the documents that were read with the score of each. -/
def rankedDocuments (scored : List (KbDocument ε × α)) (topK : ℕ) : List (KbDocument ε × α) :=
  (scored.insertionSort fun a b => b.2 ≤ a.2).take topK

def bm25Search (scored : List (KbDocument ε × α)) (topK : ℕ) : List (SearchResult α) :=
  (rankedDocuments scored topK).map fun item =>
    searchResult item.1 (normalizedScore (maxScore scored) item.2)

/-- `{item.id: item for item in items}.get(document_id)`: the last item with the id. -/
def byId (items : List (SearchResult α)) (documentId : Uuid) : Option (SearchResult α) :=
  items.reverse.find? (·.id = documentId)

/-- `semantic_score` and `keyword_score`: the similarity in a dictionary, or zero. -/
def scoreById (items : List (SearchResult α)) (documentId : Uuid) : α :=
  ((byId items documentId).map (·.similarity)).getD 0

section
variable (semanticWeight : α) (semantic keyword : List (SearchResult α))

def blendedScore (documentId : Uuid) : α :=
  semanticWeight * scoreById semantic documentId +
    (1 - semanticWeight) * scoreById keyword documentId

/-- One round of the loop; an id that neither dictionary holds does not occur. -/
def blendedItem (documentId : Uuid) : Option (SearchResult α) :=
  ((byId semantic documentId).or (byId keyword documentId)).map fun item =>
    { item with similarity := blendedScore semanticWeight semantic keyword documentId }

/-- `blended`, sorted. `all_ids` is a set: its elements come in some order. -/
def hybridRanking (allIds : List Uuid) : List (SearchResult α) :=
  (allIds.filterMap (blendedItem semanticWeight semantic keyword)).insertionSort fun a b =>
    b.similarity ≤ a.similarity

/-- An order in which the loop can meet `set(semantic_by_id) | set(keyword_scores)`. -/
structure IsIteration (allIds : List Uuid) : Prop where
  nodup : allIds.Nodup
  mem_iff : ∀ id, id ∈ allIds ↔ id ∈ semantic.map (·.id) ∨ id ∈ keyword.map (·.id)

end

/-- How many keyword hits `hybrid_search` asks for. -/
def keywordLimit (topK : ℕ) : ℕ := max (topK * 5) 20

def hybridSearch (semanticWeight : α) (semantic : List (SearchResult α))
    (scored : List (KbDocument ε × α)) (topK : ℕ) (allIds : List Uuid) : List (SearchResult α) :=
  (hybridRanking semanticWeight semantic (bm25Search scored (keywordLimit topK)) allIds).take topK

/-- What is asked of the search, whose ranking is cut after `top_k` documents. -/
structure RanksSensibly (semanticWeight : α) (semantic : List (SearchResult α))
    (scored : List (KbDocument ε × α)) (topK : ℕ) (allIds : List Uuid) : Prop where
  atMost : (hybridSearch semanticWeight semantic scored topK allIds).length ≤ topK
  once : ((hybridSearch semanticWeight semantic scored topK allIds).map (·.id)).Nodup
  sorted : (hybridSearch semanticWeight semantic scored topK allIds).Pairwise
    fun a b => b.similarity ≤ a.similarity
  /-- Of two keyword hits with one vector similarity, the one with the lower score does not stand
  before the other. -/
  keywordOrder : ∀ high ∈ rankedDocuments scored (keywordLimit topK),
    ∀ low ∈ rankedDocuments scored (keywordLimit topK),
    scoreById semantic high.1.id = scoreById semantic low.1.id → low.2 < high.2 →
      ¬ List.Sublist [low.1.id, high.1.id]
        ((hybridRanking semanticWeight semantic (bm25Search scored (keywordLimit topK)) allIds).map
          (·.id))

end

section
variable {α : Type} {items : List (SearchResult α)} {item : SearchResult α} {documentId : Uuid}

theorem byId_id (h : byId items documentId = some item) : item.id = documentId := by
  simpa using List.find?_some h

theorem byId_mem (h : byId items documentId = some item) : item ∈ items :=
  List.mem_reverse.mp (List.mem_of_find?_eq_some h)

theorem byId_isSome : (byId items documentId).isSome ↔ documentId ∈ items.map (·.id) := by
  simp [byId]

theorem byId_of_mem (hids : (items.map (·.id)).Nodup) (hitem : item ∈ items) :
    byId items item.id = some item := by
  cases hfound : byId items item.id with
  | none =>
    have hsome := byId_isSome.mpr (List.mem_map_of_mem hitem)
    rw [hfound] at hsome
    cases hsome
  | some found =>
    rw [List.inj_on_of_nodup_map hids (byId_mem hfound) hitem (byId_id hfound)]

/-- The union can be met in an order that begins with two given ids of it. -/
theorem exists_iteration {semantic keyword : List (SearchResult α)} {a b : Uuid} (hne : a ≠ b)
    (ha : a ∈ semantic.map (·.id) ∨ a ∈ keyword.map (·.id))
    (hb : b ∈ semantic.map (·.id) ∨ b ∈ keyword.map (·.id)) :
    ∃ allIds, IsIteration semantic keyword allIds ∧ List.Sublist [a, b] allIds := by
  set others := ((semantic ++ keyword).map (·.id)).dedup.filter fun id => id ≠ a ∧ id ≠ b
  have hmem (id : Uuid) : id ∈ others ↔
      (id ∈ semantic.map (·.id) ∨ id ∈ keyword.map (·.id)) ∧ id ≠ a ∧ id ≠ b := by
    simp only [others, List.mem_filter, List.mem_dedup, List.map_append, List.mem_append,
      decide_eq_true_eq]
  refine ⟨a :: b :: others, ⟨?_, fun id => ?_⟩, ?_⟩
  · have hnodup : others.Nodup := (List.nodup_dedup _).filter _
    simp [hmem, hnodup, hne]
  · simp only [List.mem_cons, hmem]
    constructor
    · rintro (rfl | rfl | ⟨hid, -⟩)
      · exact ha
      · exact hb
      · exact hid
    · intro hid
      by_cases hida : id = a
      · exact .inl hida
      · by_cases hidb : id = b
        · exact .inr (.inl hidb)
        · exact .inr (.inr ⟨hid, hida, hidb⟩)
  · exact ((List.nil_sublist others).cons_cons b).cons_cons a

end

theorem mem_of_hit {ε α : Type} [LinearOrder α] {scored : List (KbDocument ε × α)}
    {topK : ℕ} {hit : KbDocument ε × α} (hhit : hit ∈ rankedDocuments scored topK) :
    hit ∈ scored :=
  (List.mem_insertionSort _).mp (List.mem_of_mem_take hhit)

section
variable {ε α : Type} [DivisionRing α] {semanticWeight : α}
  {semantic keyword : List (SearchResult α)} {item : SearchResult α} {allIds : List Uuid}
  {scored : List (KbDocument ε × α)} {topK : ℕ} {documentId : Uuid}

theorem blendedItem_spec (h : blendedItem semanticWeight semantic keyword documentId = some item) :
    item.id = documentId ∧
      item.similarity = blendedScore semanticWeight semantic keyword documentId := by
  unfold blendedItem at h
  obtain ⟨old, hold, rfl⟩ := Option.map_eq_some_iff.mp h
  refine ⟨?_, rfl⟩
  show old.id = documentId
  rcases Option.or_eq_some_iff.mp hold with hold | ⟨-, hold⟩
  · exact byId_id hold
  · exact byId_id hold

/-- Every id of the union gives one item. -/
theorem blendedItem_isSome (semanticWeight : α) (hids : IsIteration semantic keyword allIds)
    (hid : documentId ∈ allIds) :
    ∃ item, blendedItem semanticWeight semantic keyword documentId = some item := by
  apply Option.isSome_iff_exists.mp
  unfold blendedItem
  rw [Option.isSome_map, Option.isSome_or, Bool.or_eq_true, byId_isSome, byId_isSome]
  exact (hids.mem_iff documentId).mp hid

theorem blended_ids (hids : IsIteration semantic keyword allIds) :
    (allIds.filterMap (blendedItem semanticWeight semantic keyword)).map (·.id) = allIds := by
  rw [List.map_filterMap]
  refine (List.filterMap_congr fun id hid => ?_).trans List.filterMap_some
  obtain ⟨item, hitem⟩ := blendedItem_isSome semanticWeight hids hid
  rw [hitem]
  exact congrArg some (blendedItem_spec hitem).1

variable [LinearOrder α]

theorem mem_hybridRanking (h : item ∈ hybridRanking semanticWeight semantic keyword allIds) :
    item.id ∈ allIds ∧
      item.similarity = blendedScore semanticWeight semantic keyword item.id := by
  obtain ⟨id, hid, hitem⟩ := List.mem_filterMap.mp ((List.mem_insertionSort _).mp h)
  obtain ⟨rfl, hscore⟩ := blendedItem_spec hitem
  exact ⟨hid, hscore⟩

theorem hybridRanking_ids (hids : IsIteration semantic keyword allIds) :
    ((hybridRanking semanticWeight semantic keyword allIds).map (·.id)).Perm allIds := by
  have hsorted := (List.perm_insertionSort (fun a b : SearchResult α => b.similarity ≤ a.similarity)
    (allIds.filterMap (blendedItem semanticWeight semantic keyword))).map (·.id)
  rwa [blended_ids hids] at hsorted

theorem hybridRanking_sorted :
    (hybridRanking semanticWeight semantic keyword allIds).Pairwise
      fun a b => b.similarity ≤ a.similarity := by
  have htotal : Std.Total fun a b : SearchResult α => b.similarity ≤ a.similarity :=
    ⟨fun a b => le_total b.similarity a.similarity⟩
  have htrans : IsTrans (SearchResult α) fun a b => b.similarity ≤ a.similarity :=
    ⟨fun _ _ _ hab hbc => hbc.trans hab⟩
  exact List.pairwise_insertionSort _ _

/-- A document stands before another one only if its score is not lower. -/
theorem blendedScore_le_of_sublist {a b : Uuid}
    (h : List.Sublist [a, b]
      ((hybridRanking semanticWeight semantic keyword allIds).map (·.id))) :
    blendedScore semanticWeight semantic keyword b ≤
      blendedScore semanticWeight semantic keyword a := by
  obtain ⟨pair, hpair, hab⟩ := List.sublist_map_iff.mp h
  obtain ⟨x, rest, rfl, rfl, hrest⟩ := List.map_eq_cons_iff.mp hab.symm
  obtain ⟨y, tail, rfl, rfl, -⟩ := List.map_eq_cons_iff.mp hrest
  have hle : y.similarity ≤ x.similarity := by
    have hsorted := hybridRanking_sorted.sublist hpair
    exact List.rel_of_pairwise_cons hsorted (List.mem_cons_self ..)
  rw [← (mem_hybridRanking (hpair.subset (List.mem_cons_self ..))).2,
    ← (mem_hybridRanking (hpair.subset (List.mem_cons_of_mem _ (List.mem_cons_self ..)))).2]
  exact hle

/-- The sort is stable: where the loop meets a document before another one whose score is not
higher, it stands before it. -/
theorem sublist_of_blendedScore_le (hids : IsIteration semantic keyword allIds) {a b : Uuid}
    (hab : List.Sublist [a, b] allIds)
    (hle : blendedScore semanticWeight semantic keyword b ≤
      blendedScore semanticWeight semantic keyword a) :
    List.Sublist [a, b] ((hybridRanking semanticWeight semantic keyword allIds).map (·.id)) := by
  obtain ⟨x, hx⟩ := blendedItem_isSome semanticWeight hids
    (hab.subset (List.mem_cons_self ..))
  obtain ⟨y, hy⟩ := blendedItem_isSome semanticWeight hids
    (hab.subset (List.mem_cons_of_mem _ (List.mem_cons_self ..)))
  have hpair : List.Sublist [x, y]
      (allIds.filterMap (blendedItem semanticWeight semantic keyword)) := by
    have hboth := hab.filterMap (blendedItem semanticWeight semantic keyword)
    rwa [List.filterMap_cons_some hx, List.filterMap_cons_some hy, List.filterMap_nil] at hboth
  have hrank := List.pair_sublist_insertionSort (r := fun p q : SearchResult α =>
    q.similarity ≤ p.similarity) (by rwa [(blendedItem_spec hx).2, (blendedItem_spec hy).2]) hpair
  have hmapped := hrank.map (·.id)
  rwa [List.map_cons, List.map_cons, List.map_nil, (blendedItem_spec hx).1,
    (blendedItem_spec hy).1] at hmapped

/-- The keyword hits keep the primary key. -/
theorem keywordScore_eq (hdocuments : (scored.map (·.1.id)).Nodup) {hit : KbDocument ε × α}
    (hhit : hit ∈ rankedDocuments scored topK) :
    scoreById (bm25Search scored topK) hit.1.id = normalizedScore (maxScore scored) hit.2 := by
  have hids : ((bm25Search scored topK).map (·.id)).Nodup := by
    have hranked : ((rankedDocuments scored topK).map (·.1.id)).Nodup :=
      ((List.perm_insertionSort _ scored).map (·.1.id)).nodup_iff.mpr hdocuments |>.sublist
        ((List.take_sublist _ _).map _)
    rwa [bm25Search, List.map_map]
  have hfound := byId_of_mem hids (List.mem_map_of_mem hhit)
  unfold scoreById
  exact congrArg (fun found => (Option.map SearchResult.similarity found).getD 0) hfound

variable [IsStrictOrderedRing α]

/-- The weighted scores of two documents are in the order of their scores where the weight and the
largest score have the same sign. -/
theorem weighted_lt_iff {weight max low high : α} (hlt : low < high) :
    weight * normalizedScore max low < weight * normalizedScore max high ↔ 0 < weight * max := by
  unfold normalizedScore
  split_ifs with hmax
  · simp [hmax]
  · have hdiff : 0 < high - low := sub_pos.mpr hlt
    have hpos : 0 < (high - low) * max⁻¹ ↔ 0 < max := by
      rw [mul_pos_iff_of_pos_left hdiff, inv_pos]
    have hneg : (high - low) * max⁻¹ < 0 ↔ max < 0 := by
      simp [mul_neg_iff, hdiff, hdiff.not_gt]
    rw [← sub_pos, ← mul_sub, ← sub_div, div_eq_mul_inv, mul_pos_iff (a := weight), hpos, hneg,
      mul_pos_iff]

/-- Blended scores follow the BM25 scores of documents with one vector similarity exactly where the
weight of the keywords and the largest BM25 score have the same sign. -/
theorem blendedScore_lt_iff (hdocuments : (scored.map (·.1.id)).Nodup) {low high : KbDocument ε × α}
    (hlow : low ∈ rankedDocuments scored topK) (hhigh : high ∈ rankedDocuments scored topK)
    (hsame : scoreById semantic high.1.id = scoreById semantic low.1.id) (hlt : low.2 < high.2) :
    blendedScore semanticWeight semantic (bm25Search scored topK) low.1.id <
        blendedScore semanticWeight semantic (bm25Search scored topK) high.1.id ↔
      0 < (1 - semanticWeight) * maxScore scored := by
  unfold blendedScore
  rw [keywordScore_eq hdocuments hlow, keywordScore_eq hdocuments hhigh, hsame,
    add_lt_add_iff_left]
  exact weighted_lt_iff hlt

end

section
variable {ε α : Type} [DivisionRing α] [LinearOrder α] [IsStrictOrderedRing α]

/-- The search ranks sensibly exactly where the largest BM25 score has the sign of the keywords'
weight, or no two keyword hits with one vector similarity differ in their scores. -/
theorem hybridSearch_ranksSensibly_iff (semanticWeight : α) (semantic : List (SearchResult α))
    (scored : List (KbDocument ε × α)) (topK : ℕ) (hdocuments : (scored.map (·.1.id)).Nodup) :
    (∀ allIds, IsIteration semantic (bm25Search scored (keywordLimit topK)) allIds →
      RanksSensibly semanticWeight semantic scored topK allIds) ↔
    0 < (1 - semanticWeight) * maxScore scored ∨
      ∀ high ∈ rankedDocuments scored (keywordLimit topK),
      ∀ low ∈ rankedDocuments scored (keywordLimit topK),
        scoreById semantic high.1.id = scoreById semantic low.1.id → high.2 = low.2 := by
  set keyword := bm25Search scored (keywordLimit topK)
  constructor
  · intro hsensible
    by_contra! hfails
    obtain ⟨hsign, high, hhigh, low, hlow, hsame, hdiffer⟩ := hfails
    -- the one with the lower score is met first
    have hmet {a b : KbDocument ε × α} (ha : a ∈ rankedDocuments scored (keywordLimit topK))
        (hb : b ∈ rankedDocuments scored (keywordLimit topK))
        (hab : scoreById semantic b.1.id = scoreById semantic a.1.id) (hlt : a.2 < b.2) : False := by
      have hne : a.1.id ≠ b.1.id := by
        intro hid
        rw [List.inj_on_of_nodup_map hdocuments (mem_of_hit ha) (mem_of_hit hb) hid] at hlt
        exact hlt.false
      obtain ⟨allIds, hids, hfirst⟩ := @exists_iteration _ semantic keyword _ _ hne
        (.inr (List.mem_map.mpr ⟨_, List.mem_map_of_mem ha, rfl⟩))
        (.inr (List.mem_map.mpr ⟨_, List.mem_map_of_mem hb, rfl⟩))
      have hle : blendedScore semanticWeight semantic keyword b.1.id ≤
          blendedScore semanticWeight semantic keyword a.1.id :=
        not_lt.mp fun hscore =>
          hsign.not_gt ((blendedScore_lt_iff hdocuments ha hb hab hlt).mp hscore)
      exact (hsensible allIds hids).keywordOrder b hb a ha hab hlt
        (sublist_of_blendedScore_le hids hfirst hle)
    rcases lt_or_gt_of_ne hdiffer with hlt | hlt
    · exact hmet hhigh hlow hsame.symm hlt
    · exact hmet hlow hhigh hsame hlt
  · intro hcondition allIds hids
    constructor
    · exact List.length_take_le _ _
    · have hall := (@hybridRanking_ids _ _ semanticWeight _ _ _ _ hids).nodup_iff.mpr hids.nodup
      exact hall.sublist ((List.take_sublist _ _).map _)
    · exact hybridRanking_sorted.sublist (List.take_sublist _ _)
    · intro high hhigh low hlow hsame hlt hbefore
      rcases hcondition with hsign | hequal
      · have hscore := (@blendedScore_lt_iff _ _ _ semanticWeight _ _ _ _ _ hdocuments _ _ hlow hhigh
          hsame hlt).mpr hsign
        exact (blendedScore_le_of_sublist hbefore).not_gt hscore
      · exact hlt.ne' (hequal high hhigh low hlow hsame)

end

/-- A document of the catalog of prices. -/
def priceDocument (id : Uuid) : KbDocument Unit where
  id := id
  title := "gas"
  content := "gia"
  category := "faq"
  source := none
  metadata := .obj []
  isActive := true
  embeddings := {}

/-- BM25 gives every document a negative score, the second one the lower. -/
def negativeScores : List (KbDocument Unit × ℚ) := [(priceDocument 1, -1), (priceDocument 2, -2)]

/-- The second document is ranked first. -/
theorem negativeScores_reversed :
    ¬ ∀ allIds, IsIteration [] (bm25Search negativeScores (keywordLimit 5)) allIds →
      RanksSensibly (7 / 10) [] negativeScores 5 allIds := by
  intro hsensible
  have hids : IsIteration [] (bm25Search negativeScores (keywordLimit 5)) [1, 2] := by
    constructor
    · decide
    · intro id
      have hkeyword : (bm25Search negativeScores (keywordLimit 5)).map (·.id) = [1, 2] := by
        decide +kernel
      simp [hkeyword]
  have hhit : ∀ hit ∈ negativeScores, hit ∈ rankedDocuments negativeScores (keywordLimit 5) := by
    intro hit h
    unfold rankedDocuments
    rw [List.take_of_length_le (by decide +kernel)]
    exact (List.mem_insertionSort _).mpr h
  have hranking : (hybridRanking (7 / 10) [] (bm25Search negativeScores (keywordLimit 5))
      [1, 2]).map (·.id) = [2, 1] := by decide +kernel
  exact (hsensible [1, 2] hids).keywordOrder (priceDocument 1, -1) (hhit _ (List.mem_cons_self ..))
    (priceDocument 2, -2) (hhit _ (List.mem_cons_of_mem _ (List.mem_cons_self ..))) rfl
    (by decide +kernel) (by rw [hranking]; exact List.Sublist.refl _)

/-- The largest score is positive, the other one is not. -/
def mixedScores : List (KbDocument Unit × ℚ) := [(priceDocument 1, 2), (priceDocument 2, -1)]

theorem mixedScores_rank : (mixedScores.map (·.1.id)).Nodup ∧
    ∀ allIds, IsIteration [] (bm25Search mixedScores (keywordLimit 5)) allIds →
      RanksSensibly (7 / 10) [] mixedScores 5 allIds := by
  have hdocuments : (mixedScores.map (·.1.id)).Nodup := by decide
  exact ⟨hdocuments, (hybridSearch_ranksSensibly_iff (7 / 10) [] mixedScores 5 hdocuments).mpr
    (.inl (by decide +kernel))⟩

end Qiki.Knowledge
