import Mathlib.Data.List.Nodup
import Qiki.Data.Json
import Qiki.Text.Search
import Qiki.Text.Vietnamese

/-! `LlmReranker`: the order of the retrieved documents, as read from the answer of a model. -/
namespace Qiki.Knowledge

open Regex

/-- What the reranker takes from Python: the character database, `json.loads` (`none` when it
raises; NaN and the infinities, which `int` refuses like `None`, stand as `null`) and `int` of a
text (`none` when it raises). -/
structure ArrayReader where
  db : Unicode.Database
  loads : Text → Option Json
  intOfText : Text → Option ℤ

/-- `_JSON_ARRAY`: `\[[^\]]*\]` -/
def jsonArrayRe : Regex :=
  seqOf [literal "[", star true (oneOf true [.char ']']), literal "]"]

/-- What comes of the call of the model. -/
inductive ModelOutcome
  | text (response : Text)
  /-- An `Exception`. -/
  | failed
  /-- An exception that is none, such as `CancelledError`. -/
  | interrupted
  deriving DecidableEq

/-- What `rerank` can raise. -/
inductive RerankError
  | interrupted | indexError
  deriving DecidableEq

/-- `int(value)` -/
def ArrayReader.intOf (reader : ArrayReader) : Json → Option ℤ
  | .bool b => some (if b then 1 else 0)
  | .int n => some n
  -- towards zero
  | .float x => some (x.num.tdiv x.den)
  | .str s => reader.intOfText s
  | _ => none

/-- One round of the loop of `_parse_order`; `seen` holds what `order` holds. -/
def addIndex (reader : ArrayReader) (count : ℕ) (order : List ℕ) (value : Json) :
    Option (List ℕ) :=
  (reader.intOf value).map fun (index : ℤ) =>
    if 0 ≤ index ∧ index < count ∧ index.toNat ∉ order then order ++ [index.toNat] else order

/-- `_parse_order`; `none` when it raises. -/
def parseOrder (reader : ArrayReader) (text : Text) (count : ℕ) : Option (List ℕ) :=
  match search ⟨reader.db, false⟩ jsonArrayRe text with
  | none => none
  | some found =>
    match reader.loads found.text with
    | some (.arr []) => some []
    | some (.arr values) =>
      (values.foldlM (addIndex reader count) []).bind fun order =>
        if order.isEmpty then none else some order
    | _ => none

/-- `LlmReranker.rerank` -/
def rerank {α : Type} (reader : ArrayReader) (candidates : List α) (topN : ℕ)
    (outcome : ModelOutcome) : Except RerankError (List α) :=
  if candidates.length ≤ 1 then .ok (candidates.take topN)
  else match outcome with
    | .interrupted => .error .interrupted
    | .failed => .ok (candidates.take topN)
    | .text text =>
      match parseOrder reader text candidates.length with
      | none => .ok (candidates.take topN)
      | some order =>
        if order.isEmpty then .ok []
        else match order.mapM (candidates[·]?) with
          | none => .error .indexError
          | some reranked => .ok (reranked.take topN)

/-! The piece of the answer that is read. -/

/-- The piece from the first opening bracket to the closing bracket after it. -/
def FirstBrackets (text piece : Text) : Prop :=
  ∃ before inner after, text = before ++ (piece ++ after) ∧ piece = '[' :: (inner ++ [']']) ∧
    '[' ∉ before ∧ ']' ∉ inner

section
variable {m : Mode}

theorem spells_jsonArrayRe (hcase : m.ignoreCase = false) :
    Spells m jsonArrayRe fun s => ∃ inner, s = '[' :: (inner ++ [']']) ∧ ']' ∉ inner := by
  have hinner : Spells m (star true (oneOf true [.char ']'])) fun s => ∀ c ∈ s, c ≠ ']' := by
    have h := (@Spells.oneChar m true [.char ']']).starChar true
    refine h.congr fun s => forall₂_congr fun c _ => ?_
    have hclass : [CharClass.char ']'].any (m.matchesClass c) = true ↔ c ∈ [']'] :=
      any_char hcase [']'] c
    rw [bne_iff_ne, ne_eq, hclass, List.mem_singleton]
  have hopen : Spells m (literal "[") (· = ['[']) := Spells.literal hcase '[' []
  have hclose : Spells m (literal "]") (· = [']']) := Spells.literal hcase ']' []
  refine (hopen.seq (hinner.seq hclose)).congr fun s => ?_
  constructor
  · rintro ⟨_, _, rfl, ⟨inner, _, hinner, rfl, rfl⟩, rfl⟩
    exact ⟨inner, rfl, fun hmem => hinner _ hmem rfl⟩
  · rintro ⟨inner, rfl, hinner⟩
    exact ⟨['['], inner ++ [']'], rfl, ⟨inner, [']'], fun c hc heq => hinner (heq ▸ hc), rfl, rfl⟩,
      rfl⟩

theorem exists_firstBrackets {x t : Text} (ht : ']' ∈ t) :
    ∃ piece, FirstBrackets (x ++ '[' :: t) piece := by
  obtain ⟨before, rest, htext, hbefore⟩ :=
    List.eq_append_cons_of_mem (show '[' ∈ x ++ '[' :: t by simp)
  have hrest : ']' ∈ rest := by
    rcases List.append_eq_append_iff.mp htext with ⟨a, hb, hr⟩ | ⟨a, hx, hr⟩
    · cases a with
      | nil => exact (List.cons.inj hr).2 ▸ ht
      | cons c a =>
        have hc : '[' = c := (List.cons.inj hr).1
        exact absurd (by rw [hb, ← hc]; simp) hbefore
    · cases a with
      | nil => exact (List.cons.inj hr).2.symm ▸ ht
      | cons c a =>
        rw [(List.cons.inj hr).2]
        exact List.mem_append_right _ (List.mem_cons_of_mem _ ht)
  obtain ⟨inner, after, hsplit, hinner⟩ := List.eq_append_cons_of_mem hrest
  refine ⟨'[' :: (inner ++ [']']), before, inner, after, ?_, rfl, hbefore, hinner⟩
  rw [htext, hsplit]
  simp

theorem search_firstBrackets (hcase : m.ignoreCase = false) {text piece : Text}
    (h : FirstBrackets text piece) :
    ∃ found, search m jsonArrayRe text = some found ∧ found.text = piece := by
  obtain ⟨before, inner, after, rfl, rfl, hbefore, hinner⟩ := h
  have hspells := spells_jsonArrayRe hcase
  cases hresults : results m jsonArrayRe (.between before ('[' :: (inner ++ [']']) ++ after)) with
  | nil =>
    have hmem := (hspells (.between before ('[' :: (inner ++ [']']) ++ after)) _).mpr
      ⟨_, after, ⟨inner, rfl, hinner⟩, rfl, rfl⟩
    rw [hresults] at hmem
    cases hmem
  | cons k' ks =>
    have hk' : k' ∈ results m jsonArrayRe (.between before ('[' :: (inner ++ [']']) ++ after)) := by
      rw [hresults]
      exact List.mem_cons_self
    obtain ⟨s, rest, ⟨inner', rfl, hinner'⟩, hrest, rfl⟩ := (hspells _ k').mp hk'
    refine ⟨_, search_first hresults ?_, ?_⟩
    · -- a match further left begins with a bracket
      intro x y hxy hless
      refine List.eq_nil_iff_forall_not_mem.mpr fun j hj => ?_
      obtain ⟨s, rest', ⟨inner'', rfl, -⟩, hy, -⟩ := (hspells _ j).mp hj
      have hy : y = '[' :: (inner'' ++ [']']) ++ rest' := hy
      rcases List.append_eq_append_iff.mp hxy with ⟨a, hx, -⟩ | ⟨a, hx, hr⟩
      · rw [hx, List.length_append] at hless
        omega
      · cases a with
        | nil =>
          rw [hx, List.append_nil] at hless
          omega
        | cons c a =>
          rw [hy, List.cons_append, List.cons_append] at hr
          have hc : '[' = c := (List.cons.inj hr).1
          exact hbefore (by rw [hx, ← hc]; simp)
    · have hrest : '[' :: (inner ++ [']']) ++ after = '[' :: (inner' ++ [']']) ++ rest := hrest
      have hsame : inner = inner' := by
        have htail : inner ++ ']' :: after = inner' ++ ']' :: rest := by simpa using hrest
        have htake (l t : Text) (hl : ']' ∉ l) : (l ++ ']' :: t).takeWhile (· ≠ ']') = l := by
          have hpos : ∀ c ∈ l, decide (c ≠ ']') = true := by
            intro c hc
            refine decide_eq_true ?_
            rintro rfl
            exact hl hc
          rw [List.takeWhile_append_of_pos hpos, List.takeWhile_cons_of_neg (by simp),
            List.append_nil]
        rw [← htake inner after hinner, htail, htake inner' rest hinner']
      rw [hsame]
      rw [hsame] at hrest
      exact Cursor.upTo_after hrest

/-- The search finds the first brackets. -/
theorem search_jsonArrayRe (hcase : m.ignoreCase = false) {text piece : Text} :
    (∃ found, search m jsonArrayRe text = some found ∧ found.text = piece) ↔
      FirstBrackets text piece := by
  constructor
  · rintro ⟨found, hsearch, rfl⟩
    obtain ⟨x, y, ks, rfl, -, hresults⟩ := exists_of_search hsearch
    have hstop : found.stop ∈ results m jsonArrayRe (.between x y) := by
      rw [hresults]
      exact List.mem_cons_self
    obtain ⟨_, rest, ⟨inner, rfl, -⟩, hy, -⟩ := (spells_jsonArrayRe hcase _ _).mp hstop
    have hy : y = '[' :: (inner ++ [']'] ++ rest) := hy
    obtain ⟨piece, hpiece⟩ := @exists_firstBrackets x (inner ++ [']'] ++ rest) (by simp)
    rw [← hy] at hpiece
    obtain ⟨found', hsearch', htext⟩ := search_firstBrackets hcase hpiece
    rw [Option.some.inj (hsearch.symm.trans hsearch'), htext]
    exact hpiece
  · exact search_firstBrackets hcase

end

/-! The loop over the values of the array. -/

/-- The position that an index names. -/
def position (count : ℕ) (index : ℤ) : Option ℕ :=
  if 0 ≤ index ∧ index < count then some index.toNat else none

/-- The positions that the indices name, each where it comes first. -/
def validIndices (count : ℕ) (indices : List ℤ) : List ℕ :=
  (indices.filterMap (position count)).eraseDups

section
variable {reader : ArrayReader} {count : ℕ}

theorem eraseDups_of_nodup {l : List ℕ} (h : l.Nodup) : l.eraseDups = l := by
  induction l with
  | nil => rfl
  | cons a l ih =>
    obtain ⟨ha, hl⟩ := List.nodup_cons.mp h
    have hfilter : l.filter (fun b => !b == a) = l := by
      apply List.filter_eq_self.mpr
      intro b hb
      have hne : b ≠ a := fun heq => ha (heq ▸ hb)
      simpa using hne
    rw [List.eraseDups_cons, hfilter, ih hl]

theorem eraseDups_append_of_mem {l r : List ℕ} {a : ℕ} (ha : a ∈ l) :
    (l ++ a :: r).eraseDups = (l ++ r).eraseDups := by
  rw [List.eraseDups_append, List.eraseDups_append]
  simp [List.removeAll, ha]

/-- What one value adds. -/
theorem addIndex_eq (order : List ℕ) (value : Json) :
    addIndex reader count order value = (reader.intOf value).map fun index =>
      match position count index with
      | none => order
      | some i => if i ∈ order then order else order ++ [i] := by
  unfold addIndex position
  congr 1
  funext index
  by_cases hrange : 0 ≤ index ∧ index < count
  · by_cases hmem : index.toNat ∈ order <;> simp [hrange, hmem]
  · have hnot : ¬ (0 ≤ index ∧ index < count ∧ index.toNat ∉ order) :=
      fun h => hrange ⟨h.1, h.2.1⟩
    rw [if_neg hnot, if_neg hrange]

theorem position_lt {index : ℤ} {i : ℕ} (h : position count index = some i) : i < count := by
  unfold position at h
  split_ifs at h with hrange
  · rw [← Option.some.inj h]
    omega

/-- One value keeps the positions apart and in range. -/
theorem addIndex_keeps {order order' : List ℕ} {value : Json}
    (h : addIndex reader count order value = some order')
    (hn : order.Nodup) (hlt : ∀ i ∈ order, i < count) :
    order'.Nodup ∧ ∀ i ∈ order', i < count := by
  rw [addIndex_eq] at h
  obtain ⟨index, -, rfl⟩ := Option.map_eq_some_iff.mp h
  cases hposition : position count index with
  | none => exact ⟨hn, hlt⟩
  | some i =>
    dsimp only
    split_ifs with hmem
    · exact ⟨hn, hlt⟩
    · constructor
      · exact List.concat_eq_append ▸ hn.concat hmem
      · intro j hj
        rcases List.mem_append.mp hj with hj | hj
        · exact hlt j hj
        · rw [List.mem_singleton.mp hj]
          exact position_lt hposition

theorem foldlM_addIndex_keeps {values : List Json} {order order' : List ℕ}
    (h : values.foldlM (addIndex reader count) order = some order')
    (hn : order.Nodup) (hlt : ∀ i ∈ order, i < count) :
    order'.Nodup ∧ ∀ i ∈ order', i < count := by
  induction values generalizing order with
  | nil =>
    obtain rfl := Option.some.inj h
    exact ⟨hn, hlt⟩
  | cons value values ih =>
    rw [List.foldlM_cons] at h
    obtain ⟨next, hnext, hrest⟩ := Option.bind_eq_some_iff.mp h
    obtain ⟨hn', hlt'⟩ := addIndex_keeps hnext hn hlt
    exact ih hrest hn' hlt'

/-- The loop collects the valid indices behind those that it has. -/
theorem foldlM_addIndex (values : List Json) {order : List ℕ} (hn : order.Nodup) :
    values.foldlM (addIndex reader count) order = (values.mapM reader.intOf).map fun indices =>
      (order ++ indices.filterMap (position count)).eraseDups := by
  induction values generalizing order with
  | nil =>
    change some order = some (order ++ []).eraseDups
    rw [List.append_nil, eraseDups_of_nodup hn]
  | cons value values ih =>
    rw [List.foldlM_cons, List.mapM_cons, addIndex_eq]
    cases hvalue : reader.intOf value with
    | none => rfl
    | some index =>
      have hmap : ((values.mapM reader.intOf).bind fun indices => some (index :: indices)).map
          (fun indices => (order ++ indices.filterMap (position count)).eraseDups) =
            (values.mapM reader.intOf).map fun indices =>
              (order ++ (index :: indices).filterMap (position count)).eraseDups := by
        cases values.mapM reader.intOf <;> rfl
      refine Eq.trans ?_ hmap.symm
      change List.foldlM _ (match position count index with
        | none => order
        | some i => if i ∈ order then order else order ++ [i]) values = _
      cases hposition : position count index with
      | none => simp only [ih hn, List.filterMap_cons, hposition]
      | some i =>
        simp only [List.filterMap_cons, hposition]
        split_ifs with hmem
        · simp only [ih hn, eraseDups_append_of_mem hmem]
        · -- the new position comes behind the others
          have hn' : (order ++ [i]).Nodup :=
            List.nodup_append.mpr ⟨hn, List.nodup_singleton i, fun a ha b hb heq =>
              hmem (List.mem_singleton.mp hb ▸ heq ▸ ha)⟩
          simp only [ih hn', List.append_assoc, List.singleton_append]

/-- The model answered with these values in the first brackets of its text. -/
def Answers (reader : ArrayReader) (outcome : ModelOutcome) (values : List Json) : Prop :=
  ∃ text piece, outcome = .text text ∧ FirstBrackets text piece ∧
    reader.loads piece = some (.arr values)

/-- The positions that an answer gives, if it gives any. -/
def answeredOrder (reader : ArrayReader) (count : ℕ) (values : List Json) : Option (List ℕ) :=
  ((values.mapM reader.intOf).map (validIndices count)).filter (!·.isEmpty)

theorem Answers.unique {outcome : ModelOutcome} {values values' : List Json}
    (h : Answers reader outcome values) (h' : Answers reader outcome values') : values = values' := by
  obtain ⟨text, piece, rfl, hpiece, hloads⟩ := h
  obtain ⟨text', piece', htext, hpiece', hloads'⟩ := h'
  obtain rfl := ModelOutcome.text.inj htext
  obtain ⟨found, hsearch, rfl⟩ := (@search_jsonArrayRe ⟨reader.db, false⟩ rfl _ _).mpr hpiece
  obtain ⟨found', hsearch', rfl⟩ := (@search_jsonArrayRe ⟨reader.db, false⟩ rfl _ _).mpr hpiece'
  obtain rfl := Option.some.inj (hsearch.symm.trans hsearch')
  exact Json.arr.inj (Option.some.inj (hloads.symm.trans hloads'))

theorem parseOrder_of_answers {text piece : Text} {values : List Json}
    (hpiece : FirstBrackets text piece) (hloads : reader.loads piece = some (.arr values)) :
    parseOrder reader text count =
      if values = [] then some [] else answeredOrder reader count values := by
  obtain ⟨found, hsearch, htext⟩ := (@search_jsonArrayRe ⟨reader.db, false⟩ rfl _ _).mpr hpiece
  unfold parseOrder
  rw [hsearch]
  simp only [htext, hloads]
  cases values with
  | nil => rfl
  | cons value values =>
    rw [if_neg (List.cons_ne_nil _ _)]
    simp only [foldlM_addIndex _ List.nodup_nil, answeredOrder]
    cases (value :: values).mapM reader.intOf with
    | none => rfl
    | some indices =>
      simp only [Option.map_some, Option.bind_some, List.nil_append, Option.filter_some]
      change (if (validIndices count indices).isEmpty = true then _ else _) = _
      cases (validIndices count indices).isEmpty <;> rfl

theorem parseOrder_of_no_answer {text : Text}
    (h : ¬ ∃ values, Answers reader (.text text) values) : parseOrder reader text count = none := by
  unfold parseOrder
  cases hsearch : search ⟨reader.db, false⟩ jsonArrayRe text with
  | none => rfl
  | some found =>
    have hpiece : FirstBrackets text found.text :=
      (@search_jsonArrayRe ⟨reader.db, false⟩ rfl _ _).mp ⟨found, hsearch, rfl⟩
    have hnone (values : List Json) : reader.loads found.text ≠ some (.arr values) := fun hloads =>
      h ⟨values, text, found.text, rfl, hpiece, hloads⟩
    simp only
    split
    · exact absurd ‹_› (hnone [])
    · exact absurd ‹_› (hnone _)
    · rfl

theorem answeredOrder_keeps {values : List Json} {order : List ℕ}
    (h : answeredOrder reader count values = some order) :
    order.Nodup ∧ (∀ i ∈ order, i < count) ∧ order ≠ [] := by
  obtain ⟨horder, hne⟩ := Option.filter_eq_some_iff.mp h
  have hfold : values.foldlM (addIndex reader count) [] = some order := by
    rw [foldlM_addIndex values List.nodup_nil]
    exact horder
  obtain ⟨hn, hlt⟩ := foldlM_addIndex_keeps hfold List.nodup_nil fun _ h => nomatch h
  exact ⟨hn, hlt, by simpa using hne⟩

end

/-! The documents at some positions. -/

def documentsAt {α : Type} (candidates : List α) (positions : List ℕ) : List α :=
  positions.filterMap (candidates[·]?)

section
variable {α : Type} {candidates : List α} {positions : List ℕ}

theorem documentsAt_range (candidates : List α) :
    documentsAt candidates (List.range candidates.length) = candidates := by
  induction candidates using List.reverseRecOn with
  | nil => rfl
  | append_singleton candidates a ih =>
    have hfront : documentsAt (candidates ++ [a]) (List.range candidates.length) =
        documentsAt candidates (List.range candidates.length) := by
      refine List.filterMap_congr fun i hi => ?_
      rw [List.getElem?_append_left (List.mem_range.mp hi)]
    rw [List.length_append, List.length_singleton, List.range_succ, documentsAt,
      List.filterMap_append]
    change documentsAt (candidates ++ [a]) (List.range candidates.length) ++ _ = _
    rw [hfront, ih]
    simp

theorem documentsAt_take (h : ∀ i ∈ positions, i < candidates.length) (n : ℕ) :
    documentsAt candidates (positions.take n) = (documentsAt candidates positions).take n := by
  induction positions generalizing n with
  | nil => simp [documentsAt]
  | cons i positions ih =>
    have hi : i < candidates.length := h i List.mem_cons_self
    have hget : candidates[i]? = some candidates[i] := List.getElem?_eq_getElem hi
    cases n with
    | zero => rfl
    | succ n =>
      have hrest := ih (fun j hj => h j (List.mem_cons_of_mem i hj)) n
      simp only [documentsAt] at hrest
      simp only [documentsAt, List.take_succ_cons, List.filterMap_cons, hget, hrest]

theorem mapM_documentsAt (h : ∀ i ∈ positions, i < candidates.length) :
    positions.mapM (candidates[·]?) = some (documentsAt candidates positions) := by
  induction positions with
  | nil => rfl
  | cons i positions ih =>
    have hi : i < candidates.length := h i List.mem_cons_self
    have hget : candidates[i]? = some candidates[i] := List.getElem?_eq_getElem hi
    rw [List.mapM_cons, hget, ih fun j hj => h j (List.mem_cons_of_mem i hj)]
    simp only [documentsAt, List.filterMap_cons, hget]
    rfl

end

/-- The positions that `rerank` chooses from two candidates on. -/
def chosen (reader : ArrayReader) (count topN : ℕ) (values : List Json) : List ℕ :=
  if values = [] then []
  else ((answeredOrder reader count values).getD (List.range count)).take topN

section
variable {α : Type} {reader : ArrayReader} {candidates : List α} {topN : ℕ}

theorem rerank_original (reader : ArrayReader) (candidates : List α) (topN : ℕ)
    {outcome : ModelOutcome} (h : outcome ≠ .interrupted)
    (hnone : candidates.length ≤ 1 ∨ ¬ ∃ values, Answers reader outcome values) :
    rerank reader candidates topN outcome = .ok (candidates.take topN) := by
  unfold rerank
  split_ifs with hfew
  · rfl
  · have hnone := hnone.resolve_left hfew
    cases outcome with
    | interrupted => exact absurd rfl h
    | failed => rfl
    | text text =>
      simp only
      rw [parseOrder_of_no_answer hnone]

theorem rerank_answered {outcome : ModelOutcome} {values : List Json}
    (hmany : 1 < candidates.length) (h : Answers reader outcome values) :
    rerank reader candidates topN outcome =
      .ok (documentsAt candidates (chosen reader candidates.length topN values)) := by
  obtain ⟨text, piece, rfl, hpiece, hloads⟩ := h
  unfold rerank chosen
  rw [if_neg (by omega)]
  simp only
  rw [parseOrder_of_answers hpiece hloads]
  split_ifs with hempty
  · rfl
  · cases horder : answeredOrder reader candidates.length values with
    | none =>
      rw [Option.getD_none, documentsAt_take (fun i hi => List.mem_range.mp hi), documentsAt_range]
    | some order =>
      obtain ⟨-, hlt, hne⟩ := answeredOrder_keeps horder
      have hnonempty : order.isEmpty = false := by simpa using hne
      simp only [hnonempty, Bool.false_eq_true, if_false]
      rw [mapM_documentsAt hlt, Option.getD_some, documentsAt_take hlt]

/-- Distinct positions, and none of them only for an empty array. -/
theorem chosen_spec (reader : ArrayReader) {count : ℕ} (hmany : 1 < count) (topN : ℕ)
    (values : List Json) : (chosen reader count topN values).Nodup ∧
      (chosen reader count topN values).length ≤ topN ∧
      (∀ i ∈ chosen reader count topN values, i < count) ∧
      (chosen reader count topN values = [] ↔ values = [] ∨ topN = 0) := by
  unfold chosen
  split_ifs with hempty
  · exact ⟨List.nodup_nil, Nat.zero_le _, fun _ h => (nomatch h), by simp [hempty]⟩
  · have horder : ((answeredOrder reader count values).getD (List.range count)).Nodup ∧
        (∀ i ∈ (answeredOrder reader count values).getD (List.range count), i < count) ∧
        (answeredOrder reader count values).getD (List.range count) ≠ [] := by
      cases horder : answeredOrder reader count values with
      | some order => exact answeredOrder_keeps horder
      | none =>
        refine ⟨List.nodup_range, fun i hi => List.mem_range.mp hi, ?_⟩
        rw [Option.getD_none, ne_eq, List.range_eq_nil]
        omega
    obtain ⟨hn, hlt, hne⟩ := horder
    refine ⟨hn.sublist (List.take_sublist _ _), List.length_take_le _ _,
      fun i hi => hlt i (List.mem_of_mem_take hi), ?_⟩
    rw [List.take_eq_nil_iff]
    simp [hempty, hne]

/-- Whatever the model does, short of an interruption, `rerank` returns distinct candidates, `topN`
at most: the first ones in their order when there is one candidate, or nothing to read in the
answer; else those that the array in the first brackets names, none when it is empty, and the first
ones again when it names none. -/
theorem rerank_safe (reader : ArrayReader) (candidates : List α) (topN : ℕ)
    {outcome : ModelOutcome} (h : outcome ≠ .interrupted) :
    ∃ positions : List ℕ,
      rerank reader candidates topN outcome = .ok (documentsAt candidates positions) ∧
      positions.Nodup ∧ positions.length ≤ topN ∧ (∀ i ∈ positions, i < candidates.length) ∧
      (candidates.length ≤ 1 → positions = (List.range candidates.length).take topN) ∧
      (1 < candidates.length →
        (∀ values, Answers reader outcome values →
          positions = chosen reader candidates.length topN values) ∧
        ((¬ ∃ values, Answers reader outcome values) →
          positions = (List.range candidates.length).take topN) ∧
        (positions = [] ↔ Answers reader outcome [] ∨ topN = 0)) := by
  by_cases hnone : candidates.length ≤ 1 ∨ ¬ ∃ values, Answers reader outcome values
  · have hempty (hmany : 1 < candidates.length) :
        (List.range candidates.length).take topN = [] ↔ topN = 0 := by
      rw [← List.length_eq_zero_iff, List.length_take, List.length_range]
      omega
    refine ⟨(List.range candidates.length).take topN, ?_,
      List.nodup_range.sublist (List.take_sublist _ _), List.length_take_le _ _,
      fun i hi => List.mem_range.mp (List.mem_of_mem_take hi), fun _ => rfl, fun hmany => ?_⟩
    · rw [rerank_original reader candidates topN h hnone,
        documentsAt_take (fun i hi => List.mem_range.mp hi), documentsAt_range]
    · have hnone := hnone.resolve_left (by omega)
      refine ⟨fun values hvalues => absurd ⟨values, hvalues⟩ hnone, fun _ => rfl, ?_⟩
      rw [hempty hmany]
      exact (or_iff_right fun hempty => hnone ⟨[], hempty⟩).symm
  · push Not at hnone
    obtain ⟨hmany, values, hvalues⟩ := hnone
    obtain ⟨hn, hlength, hlt, hempty⟩ := chosen_spec reader hmany topN values
    refine ⟨chosen reader candidates.length topN values, rerank_answered hmany hvalues, hn, hlength,
      hlt, fun hfew => by omega, fun _ => ⟨fun values' hvalues' => ?_, fun hnone => ?_, ?_⟩⟩
    · rw [hvalues.unique hvalues']
    · exact absurd ⟨values, hvalues⟩ hnone
    · rw [hempty]
      refine or_congr_left ⟨fun hnil => hnil ▸ hvalues, fun hnil => hvalues.unique hnil⟩

/-- A reader that knows the texts of two arrays. -/
def twoArrays : ArrayReader where
  db := Unicode.Vietnamese.database
  loads := fun text =>
    if text = "[]" then some (.arr [])
    else if text = "[1, 0]" then some (.arr [.int 1, .int 0]) else none
  intOfText := fun _ => none

/-- The order of the model is taken over. -/
theorem rerank_two : ∃ positions : List ℕ,
    rerank twoArrays ["a", "b"] 1 (.text "ok: [1, 0]") = .ok (documentsAt ["a", "b"] positions) ∧
      positions = [1] := by
  have hanswers : Answers twoArrays (.text "ok: [1, 0]") [.int 1, .int 0] :=
    ⟨"ok: [1, 0]", "[1, 0]", rfl, ⟨"ok: ", "1, 0", [], rfl, rfl, by decide, by decide⟩, rfl⟩
  obtain ⟨positions, hrerank, -, -, -, -, hmany⟩ :=
    @rerank_safe _ twoArrays ["a", "b"] 1 (.text "ok: [1, 0]") (by decide)
  refine ⟨positions, hrerank, ?_⟩
  rw [(hmany (by decide)).1 _ hanswers]
  decide

/-- With one candidate the model is not asked: an empty array does not empty the list. -/
theorem empty_array_unread :
    ¬ ∀ (reader : ArrayReader) (candidates : List String) (topN : ℕ) (text : Text)
      (values : List Json), FirstBrackets text text → reader.loads text = some (.arr values) →
      ∃ result, rerank reader candidates topN (.text text) = .ok result ∧
        (result = [] ↔ values = []) := by
  intro h
  obtain ⟨result, hresult, hempty⟩ := h twoArrays ["a"] 1 "[]" []
    ⟨[], [], [], rfl, rfl, List.not_mem_nil, List.not_mem_nil⟩ rfl
  have hone : rerank twoArrays ["a"] 1 (.text "[]") = .ok ["a"] := rfl
  have hsame : ["a"] = result := Except.ok.inj (hone.symm.trans hresult)
  rw [← hsame] at hempty
  cases hempty.mpr rfl

end

end Qiki.Knowledge
