import Qiki.Collections.Table
import Qiki.Text.Basic
import Mathlib.Data.List.Sort
import Mathlib.Data.Prod.Lex

/-! What one poll makes of the list of messages that the client has, for messages of any form and
whatever their times say. -/
namespace Qiki.Client.Reconciliation

/-- A message: `τ` is how its time is written, `π` a product card, and `φ` the other fields, which are
copied together. -/
structure Message (τ π φ : Type) where
  id : Text
  createdAt : τ
  products : Option (List π)
  fields : φ
  deriving DecidableEq, Repr

/-- `MessageListResponse` -/
structure MessageListResponse (τ π φ : Type) where
  items : List (Message τ π φ)
  total : ℕ
  skip : ℕ
  limit : ℕ
  deriving DecidableEq, Repr

/-- `new Map(...)` keyed by `id`: a later entry replaces an earlier one in its place. -/
def mapById {α : Type} (entries : List (Text × α)) : List (Text × α) :=
  entries.foldl (fun d e => Dict.alter e.1 (fun _ => e.2) d) []

variable {τ π φ : Type}

section
variable (parse : τ → Option ℤ)

/-- `parse` is `Date.parse`, with `none` for `NaN`. -/
def messageTimestamp (message : Message τ π φ) : ℤ := (parse message.createdAt).getD 0

/-- The places of the messages that the client has, and those of the new ones behind them. -/
def orderById (incoming previous : List (Message τ π φ)) : List (Text × ℕ) :=
  let known := mapById (previous.zipIdx.map fun m => (m.1.id, m.2))
  incoming.zipIdx.foldl (fun d m =>
    Dict.alter m.1.id (fun index => index.getD (previous.length + m.2)) d) known

/-- The message with the product cards that the client has for it, or with its own. -/
def withProducts (previous : List (Message τ π φ)) (message : Message τ π φ) : Message τ π φ :=
  let previousById := mapById (previous.map fun m => (m.id, m))
  let known := (Dict.get message.id previousById).bind (·.products)
  { message with products := if known.any (!·.isEmpty) then known else message.products }

/-- The incoming messages, then those that only the client has. -/
def messagesById (incoming previous : List (Message τ π φ)) : List (Text × Message τ π φ) :=
  previous.foldl (fun d m => Dict.alter m.id (fun known => known.getD m) d)
    (incoming.foldl (fun d m => Dict.alter m.id (fun _ => withProducts previous m) d) [])

/-- The comparison of the sort. -/
def compareMessages (order : List (Text × ℕ)) (left right : Message τ π φ) : ℤ :=
  let timestampDiff := messageTimestamp parse left - messageTimestamp parse right
  if timestampDiff ≠ 0 then timestampDiff
  else ((Dict.get left.id order).getD 0 : ℤ) - (Dict.get right.id order).getD 0

def reconcileMessageList (incoming : MessageListResponse τ π φ)
    (previous : Option (MessageListResponse τ π φ)) : MessageListResponse τ π φ :=
  match previous with
  | none => incoming
  | some previous =>
    let order := orderById incoming.items previous.items
    let items := ((messagesById incoming.items previous.items).map Prod.snd).insertionSort
      fun left right => compareMessages parse order left right ≤ 0
    { incoming with items := items, total := max incoming.total items.length }

end

def ids (messages : List (Message τ π φ)) : List Text := messages.map (·.id)

/-- The place of an id in the previous list, or behind it in the incoming one. -/
def place (incoming previous : List (Message τ π φ)) (id : Text) : ℕ :=
  (ids (previous ++ incoming)).idxOf id

/-- The union of both lists, each message once, in order, and up to date. -/
structure Reconciled (parse : τ → Option ℤ) (incoming previous result : MessageListResponse τ π φ) :
    Prop where
  ids : ∀ id, id ∈ ids result.items ↔ id ∈ ids incoming.items ∨ id ∈ ids previous.items
  once : (Reconciliation.ids result.items).Nodup
  sorted : result.items.Pairwise fun a b => messageTimestamp parse a < messageTimestamp parse b ∨
    (messageTimestamp parse a = messageTimestamp parse b ∧
      place incoming.items previous.items a.id < place incoming.items previous.items b.id)
  updated : ∀ m ∈ incoming.items, ∃ item ∈ result.items, item.id = m.id ∧
    item.createdAt = m.createdAt ∧ item.fields = m.fields ∧
    (∀ old ∈ previous.items, old.id = m.id → old.products.any (!·.isEmpty) →
      item.products = old.products) ∧
    ((∀ old ∈ previous.items, old.id = m.id → old.products.any (!·.isEmpty) = false) →
      item.products = m.products)
  kept : ∀ m ∈ previous.items, m.id ∉ Reconciliation.ids incoming.items → m ∈ result.items
  total : result.items.length ≤ result.total
  idempotent : reconcileMessageList parse incoming (some result) = result

/-! Lists with distinct ids. -/

section
variable {incoming previous : List (Message τ π φ)}

theorem mapById_of_nodup {α : Type} {entries : List (Text × α)} (h : (entries.map Prod.fst).Nodup) :
    mapById entries = entries := by
  have hnodup : (([] : List (Text × α)).map Prod.fst ++ entries.map Prod.fst).Nodup := h
  rw [mapById, Dict.foldl_alter_of_nodup Prod.fst (fun e _ => e.2) entries hnodup]
  exact List.map_id entries

theorem zipIdx_ids (messages : List (Message τ π φ)) (n : ℕ) :
    (messages.zipIdx.map fun m => (m.1.id, n + m.2)) = (ids messages).zipIdx n := by
  have hshift : ((ids messages).zipIdx 0).map (Prod.map id (· + n)) = (ids messages).zipIdx n :=
    List.map_snd_add_zipIdx_eq_zipIdx
  rw [← hshift, ids, List.zipIdx_map, List.map_map]
  refine List.map_congr_left fun m _ => ?_
  exact Prod.ext rfl (Nat.add_comm n m.2)

/-- The place of a message in the order is its place in the lists. -/
theorem get_orderById (hprevious : (ids previous).Nodup) (id : Text) :
    Dict.get id (orderById incoming previous) =
      if id ∈ ids (previous ++ incoming) then some (place incoming previous id) else none := by
  have hknown : mapById (previous.zipIdx.map fun m => (m.1.id, m.2)) = (ids previous).zipIdx := by
    have hzip : (previous.zipIdx.map fun m => (m.1.id, m.2)) = (ids previous).zipIdx := by
      have hzip := zipIdx_ids previous 0
      simp only [Nat.zero_add] at hzip
      exact hzip
    rw [hzip]
    refine mapById_of_nodup ?_
    rw [List.zipIdx_map_fst]
    exact hprevious
  have hlength : (ids previous).length = previous.length := List.length_map _
  have happend : ids (previous ++ incoming) = ids previous ++ ids incoming := List.map_append
  rw [orderById, hknown, Dict.get_foldl_alter_getD, zipIdx_ids, Dict.get_zipIdx, Dict.get_zipIdx,
    place, happend]
  simp only [List.mem_append]
  by_cases hid : id ∈ ids previous
  · rw [List.idxOf_append_of_mem hid]
    simp [hid]
  · rw [List.idxOf_append_of_notMem hid, hlength]
    simp [hid]

theorem messagesById_eq (hincoming : (ids incoming).Nodup) (hprevious : (ids previous).Nodup) :
    (messagesById incoming previous).map Prod.snd = incoming.map (withProducts previous) ++
      previous.filter fun m => m.id ∉ ids incoming := by
  have hfirst : incoming.foldl (fun d m => Dict.alter m.id (fun _ => withProducts previous m) d) [] =
      incoming.map fun m => (m.id, withProducts previous m) :=
    Dict.foldl_alter_of_nodup (fun m : Message τ π φ => m.id) (fun m _ => withProducts previous m)
      incoming hincoming
  have hkeys : (incoming.map fun m => (m.id, withProducts previous m)).map Prod.fst = ids incoming := by
    rw [List.map_map]
    rfl
  rw [messagesById, hfirst, Dict.foldl_alter_getD (fun m : Message τ π φ => m.id) (fun m => m) hprevious,
    hkeys, List.map_append, List.map_map, List.map_map]
  refine congrArg _ ((List.map_id _).trans (List.filter_congr fun m _ => ?_))
  exact decide_eq_decide.mpr Iff.rfl

/-- The cards of a message that the client has are those it has for the id. -/
theorem get_previousById (hprevious : (ids previous).Nodup) {old : Message τ π φ}
    (hold : old ∈ previous) :
    Dict.get old.id (mapById (previous.map fun m => (m.id, m))) = some old := by
  have hkeys : ((previous.map fun m => (m.id, m)).map Prod.fst).Nodup := by
    rw [List.map_map]
    exact hprevious
  rw [mapById_of_nodup hkeys, Dict.get_eq_some_iff hkeys]
  exact List.mem_map_of_mem hold

theorem get_previousById_none (hprevious : (ids previous).Nodup) {id : Text}
    (hid : id ∉ ids previous) :
    Dict.get id (mapById (previous.map fun m => (m.id, m))) = none := by
  have hkeys : ((previous.map fun m => (m.id, m)).map Prod.fst).Nodup := by
    rw [List.map_map]
    exact hprevious
  rw [mapById_of_nodup hkeys]
  by_contra hsome
  obtain ⟨old, hold⟩ := Option.ne_none_iff_exists'.mp hsome
  obtain ⟨m, hm, heq⟩ := List.mem_map.mp ((Dict.get_eq_some_iff hkeys).mp hold)
  exact hid (List.mem_map.mpr ⟨m, hm, (Prod.mk.inj heq).1⟩)

theorem products_withProducts_of_known (hprevious : (ids previous).Nodup) {m old : Message τ π φ}
    (hold : old ∈ previous) (hid : old.id = m.id) : (withProducts previous m).products =
      if old.products.any (!·.isEmpty) then old.products else m.products := by
  simp only [withProducts, ← hid, get_previousById hprevious hold, Option.bind_some]

theorem products_withProducts_of_new (hprevious : (ids previous).Nodup) {m : Message τ π φ}
    (hid : m.id ∉ ids previous) : (withProducts previous m).products = m.products := by
  simp only [withProducts, get_previousById_none hprevious hid]
  rfl

/-- Messages of distinct ids, the incoming ones first. -/
def entries (incoming previous : List (Message τ π φ)) : List (Message τ π φ) :=
  incoming.map (withProducts previous) ++ previous.filter fun m => m.id ∉ ids incoming

theorem ids_map_withProducts (messages : List (Message τ π φ)) :
    ids (messages.map (withProducts previous)) = ids messages := by
  rw [ids, List.map_map]
  rfl

theorem mem_ids_entries {id : Text} :
    id ∈ ids (entries incoming previous) ↔ id ∈ ids incoming ∨ id ∈ ids previous := by
  have hsplit : ids (entries incoming previous) =
      ids incoming ++ ids (previous.filter fun m => m.id ∉ ids incoming) := by
    rw [entries, ids, List.map_append, ← ids, ids_map_withProducts]
    rfl
  rw [hsplit, List.mem_append]
  refine or_congr_right' fun hnew => ?_
  constructor
  · intro hid
    obtain ⟨m, hm, rfl⟩ := List.mem_map.mp hid
    exact List.mem_map_of_mem (List.mem_of_mem_filter hm)
  · intro hid
    obtain ⟨m, hm, rfl⟩ := List.mem_map.mp hid
    exact List.mem_map_of_mem (List.mem_filter.mpr ⟨hm, decide_eq_true hnew⟩)

theorem nodup_entries (hincoming : (ids incoming).Nodup) (hprevious : (ids previous).Nodup) :
    (ids (entries incoming previous)).Nodup := by
  have hsplit : ids (entries incoming previous) =
      ids incoming ++ ids (previous.filter fun m => m.id ∉ ids incoming) := by
    rw [entries, ids, List.map_append, ← ids, ids_map_withProducts]
    rfl
  rw [hsplit]
  refine List.nodup_append.mpr ⟨hincoming, ?_, ?_⟩
  · exact hprevious.sublist (List.filter_sublist.map _)
  · rintro id hid id' hid' rfl
    obtain ⟨m, hm, rfl⟩ := List.mem_map.mp hid'
    exact of_decide_eq_true (List.mem_filter.mp hm).2 hid

/-! The sort. -/

/-- The time of a message, then its place. -/
def rank (parse : τ → Option ℤ) (order : List (Text × ℕ)) (m : Message τ π φ) : ℤ ×ₗ ℕ :=
  toLex (messageTimestamp parse m, (Dict.get m.id order).getD 0)

theorem compareMessages_nonpos {parse : τ → Option ℤ} {order : List (Text × ℕ)}
    {left right : Message τ π φ} : compareMessages parse order left right ≤ 0 ↔
      rank parse order left ≤ rank parse order right := by
  unfold compareMessages rank
  rw [Prod.Lex.toLex_le_toLex]
  dsimp only
  split_ifs with hdiff <;> omega

theorem sort_eq (parse : τ → Option ℤ) (order : List (Text × ℕ)) (messages : List (Message τ π φ)) :
    messages.insertionSort (fun left right => compareMessages parse order left right ≤ 0) =
      messages.insertionSort fun left right => rank parse order left ≤ rank parse order right := by
  have hmap := List.map_insertionSort (fun left right => compareMessages parse order left right ≤ 0)
    (fun left right => rank parse order left ≤ rank parse order right) id messages
    fun a _ b _ => compareMessages_nonpos
  rwa [List.map_id, List.map_id] at hmap

theorem items_eq (parse : τ → Option ℤ) {incoming previous : MessageListResponse τ π φ}
    (hincoming : (ids incoming.items).Nodup) (hprevious : (ids previous.items).Nodup) :
    (reconcileMessageList parse incoming (some previous)).items =
      (entries incoming.items previous.items).insertionSort fun left right =>
        rank parse (orderById incoming.items previous.items) left ≤
          rank parse (orderById incoming.items previous.items) right := by
  rw [← sort_eq, entries, ← messagesById_eq hincoming hprevious]
  rfl

theorem items_perm (parse : τ → Option ℤ) {incoming previous : MessageListResponse τ π φ}
    (hincoming : (ids incoming.items).Nodup) (hprevious : (ids previous.items).Nodup) :
    (reconcileMessageList parse incoming (some previous)).items.Perm
      (entries incoming.items previous.items) := by
  rw [items_eq parse hincoming hprevious]
  exact List.perm_insertionSort _ _

/-- The messages of a list with distinct ids stand at rising places. -/
theorem pairwise_place {messages : List (Message τ π φ)} (h : (ids messages).Nodup) :
    messages.Pairwise fun a b => (ids messages).idxOf a.id < (ids messages).idxOf b.id := by
  rw [List.pairwise_iff_getElem]
  intro i j hi hj hij
  have hplace (k : ℕ) (hk : k < messages.length) : (ids messages).idxOf messages[k].id = k := by
    have hlength : k < (ids messages).length := by rwa [ids, List.length_map]
    have hget : messages[k].id = (ids messages)[k] := by simp [ids]
    rw [hget, h.idxOf_getElem]
  rw [hplace i hi, hplace j hj]
  exact hij

theorem place_orderById (hprevious : (ids previous).Nodup) {m : Message τ π φ}
    (hm : m.id ∈ ids (previous ++ incoming)) :
    (Dict.get m.id (orderById incoming previous)).getD 0 = place incoming previous m.id := by
  rw [get_orderById hprevious, if_pos hm]
  rfl

theorem mem_ids_append {id : Text} :
    id ∈ ids (previous ++ incoming) ↔ id ∈ ids incoming ∨ id ∈ ids previous := by
  rw [ids, List.map_append, List.mem_append]
  exact or_comm

/-- Adding what the client has already changes no card. -/
theorem withProducts_again (hprevious : (ids previous).Nodup) {result : List (Message τ π φ)}
    (hresult : (ids result).Nodup) {m : Message τ π φ} (hm : withProducts previous m ∈ result) :
    withProducts result m = withProducts previous m := by
  have hproducts : (withProducts result m).products = (withProducts previous m).products := by
    have hsame : (withProducts previous m).id = m.id := rfl
    rw [products_withProducts_of_known hresult hm hsame]
    split_ifs with hknown
    · rfl
    · by_cases hid : m.id ∈ ids previous
      · obtain ⟨old, hold, hid⟩ := List.mem_map.mp hid
        rw [products_withProducts_of_known hprevious hold hid] at hknown ⊢
        split_ifs at hknown ⊢ with hcards
        · exact absurd hcards hknown
        · rfl
      · rw [products_withProducts_of_new hprevious hid]
  have hform : withProducts result m = { m with products := (withProducts result m).products } := rfl
  rw [hform, hproducts]
  rfl

end

section
variable (parse : τ → Option ℤ) {incoming previous : MessageListResponse τ π φ}
  (hincoming : (ids incoming.items).Nodup) (hprevious : (ids previous.items).Nodup)
include hincoming hprevious

theorem mem_ids_items {id : Text} :
    id ∈ ids (reconcileMessageList parse incoming (some previous)).items ↔
      id ∈ ids incoming.items ∨ id ∈ ids previous.items := by
  have hperm := (items_perm parse hincoming hprevious).map (·.id)
  rw [ids, hperm.mem_iff]
  exact mem_ids_entries

theorem nodup_items :
    (ids (reconcileMessageList parse incoming (some previous)).items).Nodup := by
  have hperm := (items_perm parse hincoming hprevious).map (·.id)
  exact hperm.nodup_iff.mpr (nodup_entries hincoming hprevious)

theorem items_sorted : (reconcileMessageList parse incoming (some previous)).items.Pairwise
    fun a b => messageTimestamp parse a < messageTimestamp parse b ∨
      (messageTimestamp parse a = messageTimestamp parse b ∧
        place incoming.items previous.items a.id < place incoming.items previous.items b.id) := by
  have hsorted : (reconcileMessageList parse incoming (some previous)).items.Pairwise fun a b =>
      rank parse (orderById incoming.items previous.items) a ≤
        rank parse (orderById incoming.items previous.items) b := by
    rw [items_eq parse hincoming hprevious]
    exact List.pairwise_insertionSort _ _
  have hdistinct : (reconcileMessageList parse incoming (some previous)).items.Pairwise
      fun a b => a.id ≠ b.id := List.pairwise_map.mp (nodup_items parse hincoming hprevious)
  have hknown {m : Message τ π φ}
      (hm : m ∈ (reconcileMessageList parse incoming (some previous)).items) :
      m.id ∈ ids (previous.items ++ incoming.items) :=
    mem_ids_append.mpr ((mem_ids_items parse hincoming hprevious).mp (List.mem_map_of_mem hm))
  refine (hsorted.and hdistinct).imp_of_mem fun {a b} ha hb hab => ?_
  obtain ⟨hle, hne⟩ := hab
  have hplace : place incoming.items previous.items a.id ≠ place incoming.items previous.items b.id :=
    fun heq => hne ((List.idxOf_inj (hknown ha)).mp heq)
  rw [rank, rank, Prod.Lex.toLex_le_toLex, place_orderById hprevious (hknown ha),
    place_orderById hprevious (hknown hb)] at hle
  dsimp only at hle
  omega

/-- The messages of the result, reconciled with the same list, are in the same order. -/
theorem items_again : (reconcileMessageList parse incoming
    (some (reconcileMessageList parse incoming (some previous)))).items =
      (reconcileMessageList parse incoming (some previous)).items := by
  have hresult := nodup_items parse hincoming hprevious
  have hperm := items_perm parse hincoming hprevious
  have hsorted := items_sorted parse hincoming hprevious
  generalize reconcileMessageList parse incoming (some previous) = result at *
  have hentries : (entries incoming.items result.items).Perm (entries incoming.items previous.items) := by
    unfold entries
    have hmap : incoming.items.map (withProducts result.items) =
        incoming.items.map (withProducts previous.items) := by
      refine List.map_congr_left fun m hm => withProducts_again hprevious hresult ?_
      exact hperm.mem_iff.mpr (List.mem_append_left _ (List.mem_map_of_mem hm))
    rw [hmap]
    refine List.Perm.append_left _ ((hperm.filter _).trans ?_)
    have hold : (incoming.items.map (withProducts previous.items)).filter
        (fun m => m.id ∉ ids incoming.items) = [] := by
      refine List.filter_eq_nil_iff.mpr fun m hm hnew => ?_
      obtain ⟨m', hm', rfl⟩ := List.mem_map.mp hm
      exact of_decide_eq_true hnew (List.mem_map.mpr ⟨m', hm', rfl⟩)
    rw [entries, List.filter_append, hold, List.nil_append, List.filter_filter]
    simp
  have hmember {m : Message τ π φ} (hm : m ∈ result.items) :
      rank parse (orderById incoming.items result.items) m =
        toLex (messageTimestamp parse m, (ids result.items).idxOf m.id) := by
    have hid : m.id ∈ ids result.items := List.mem_map_of_mem hm
    have hplace : place incoming.items result.items m.id = (ids result.items).idxOf m.id := by
      rw [place, ids, List.map_append]
      exact List.idxOf_append_of_mem hid
    rw [rank, place_orderById hresult (mem_ids_append.mpr (Or.inr hid)), hplace]
  have hperm' : ((entries incoming.items result.items).insertionSort fun left right =>
      rank parse (orderById incoming.items result.items) left ≤
        rank parse (orderById incoming.items result.items) right).Perm result.items :=
    (List.perm_insertionSort _ _).trans (hentries.trans hperm.symm)
  rw [items_eq parse hincoming hresult]
  refine List.Perm.eq_of_pairwise (fun a b ha hb hab hba => ?_) (List.pairwise_insertionSort _ _) ?_ hperm'
  · have ha := hperm'.mem_iff.mp ha
    have heq := le_antisymm hab hba
    rw [hmember ha, hmember hb] at heq
    have hplace := congrArg (fun r => (ofLex r).2) heq
    exact List.inj_on_of_nodup_map hresult ha hb
      ((List.idxOf_inj (List.mem_map_of_mem ha)).mp hplace)
  · refine (hsorted.and (pairwise_place hresult)).imp_of_mem fun {a b} ha hb hab => ?_
    rw [hmember ha, hmember hb, Prod.Lex.toLex_le_toLex]
    dsimp only
    omega

/-- One poll merges both lists, and another one like it changes nothing. -/
theorem reconcileMessageList_reconciled :
    Reconciled parse incoming previous (reconcileMessageList parse incoming (some previous)) where
  ids id := mem_ids_items parse hincoming hprevious
  once := nodup_items parse hincoming hprevious
  sorted := items_sorted parse hincoming hprevious
  updated m hm := by
    have hitem : withProducts previous.items m ∈
        (reconcileMessageList parse incoming (some previous)).items :=
      (items_perm parse hincoming hprevious).mem_iff.mpr
        (List.mem_append_left _ (List.mem_map_of_mem hm))
    refine ⟨_, hitem, rfl, rfl, rfl, fun old hold hid hcards => ?_, fun hnone => ?_⟩
    · rw [products_withProducts_of_known hprevious hold hid, if_pos hcards]
    · by_cases hid : m.id ∈ Reconciliation.ids previous.items
      · obtain ⟨old, hold, hid⟩ := List.mem_map.mp hid
        rw [products_withProducts_of_known hprevious hold hid, hnone old hold hid]
        rfl
      · exact products_withProducts_of_new hprevious hid
  kept m hm hnew := (items_perm parse hincoming hprevious).mem_iff.mpr
    (List.mem_append_right _ (List.mem_filter.mpr ⟨hm, decide_eq_true hnew⟩))
  total := le_max_right incoming.total _
  idempotent := by
    have hitems := items_again parse hincoming hprevious
    have hform (list : MessageListResponse τ π φ) : reconcileMessageList parse incoming (some list) =
        { incoming with
          items := (reconcileMessageList parse incoming (some list)).items
          total := max incoming.total (reconcileMessageList parse incoming (some list)).items.length } :=
      rfl
    rw [hform (reconcileMessageList parse incoming (some previous)), hitems]
    rfl

end

/-- `Date.parse` of two times; no other can be read. -/
def sampleParse (time : Text) : Option ℤ :=
  if time = "2026-01-01T00:00:00Z".toList then some 1767225600000
  else if time = "2026-01-01T00:00:01Z".toList then some 1767225601000
  else none

def sampleMessage (id createdAt : String) (products : Option (List ℕ)) : Message Text ℕ Text :=
  ⟨id, createdAt, products, "Xin chào"⟩

theorem poll_reconciled : Reconciled sampleParse
    ⟨[sampleMessage "b" "2026-01-01T00:00:00Z" none, sampleMessage "c" "" none], 2, 0, 50⟩
    ⟨[sampleMessage "a" "2026-01-01T00:00:01Z" none,
      sampleMessage "b" "2026-01-01T00:00:00Z" (some [7])], 2, 0, 50⟩
    (reconcileMessageList sampleParse
      ⟨[sampleMessage "b" "2026-01-01T00:00:00Z" none, sampleMessage "c" "" none], 2, 0, 50⟩
      (some ⟨[sampleMessage "a" "2026-01-01T00:00:01Z" none,
        sampleMessage "b" "2026-01-01T00:00:00Z" (some [7])], 2, 0, 50⟩)) :=
  reconcileMessageList_reconciled sampleParse (by decide) (by decide)

end Qiki.Client.Reconciliation
