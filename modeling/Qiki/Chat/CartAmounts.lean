import Qiki.Chat.CartAfter
import Qiki.Chat.NegatedConfirmation
import Qiki.Collections.FirstMatch

/-! How much of each product a cart holds, and what adding and removing do to it. -/
namespace Qiki.Chat

open Unicode Orders

section
variable (db : Database) (products : List Product)

/-- The line stands for this product. -/
def means (id : Uuid) (item : ChatOrderItem) : Bool := meant db products item.product = some id

/-- The lines of one product. -/
def linesOf (id : Uuid) (items : List ChatOrderItem) : List ChatOrderItem :=
  items.filter (means db products id)

/-- The amount in some lines. A line without a quantity adds nothing yet. -/
def amount (items : List ChatOrderItem) : ℕ := (items.map fun item => item.quantity.getD 0).sum

/-- The lines that stand for none of the products that the candidates name. -/
def otherLines (candidates items : List ChatOrderItem) : List ChatOrderItem :=
  items.filter fun item => !(cartProducts db products candidates).any fun id =>
    means db products id item

/-- Every candidate is in the cart with its whole quantity on top, and the other lines stay. -/
structure Adds (before candidates after : List ChatOrderItem) : Prop where
  amounts : ∀ id ∈ cartProducts db products candidates, amount (linesOf db products id after) =
    amount (linesOf db products id before) + amount (linesOf db products id candidates)
  inCart : cartProducts db products candidates ⊆ cartProducts db products after
  others : otherLines db products candidates after = otherLines db products candidates before

/-- Every product that a candidate names is gone, and the other lines stay. -/
structure Removes (before candidates after : List ChatOrderItem) : Prop where
  gone : ∀ id ∈ cartProducts db products candidates, linesOf db products id after = []
  others : otherLines db products candidates after = otherLines db products candidates before

/-- The quantities that the first line of a product and the candidates for it state. -/
def statedQuantities (id : Uuid) (items candidates : List ChatOrderItem) : List ℕ :=
  ((linesOf db products id items).take 1 ++ linesOf db products id candidates).filterMap
    (·.quantity)

/-- Behind the first quantity that is stated for a product nothing more is asked for. -/
def StatesOneQuantity (items candidates : List ChatOrderItem) : Prop :=
  ∀ id ∈ cartProducts db products candidates,
    ∀ n ∈ (statedQuantities db products id items candidates).tail, n = 0

/-- The cart has at most one line of what the candidates name, one that the first candidate means. -/
def OnlyFirstInCart (items candidates : List ChatOrderItem) : Prop :=
  ∀ id ∈ cartProducts db products candidates, (linesOf db products id items).length ≤
    if candidates.head?.any (means db products id) then 1 else 0

/-- What a candidate does to the lines of its product. -/
def mergeLine (lines : List ChatOrderItem) (candidate : ChatOrderItem) : List ChatOrderItem :=
  match lines with
  | [] => [candidate]
  | line :: rest => { line with quantity := line.quantity.or candidate.quantity } :: rest

end

section
variable {db : Database} {products : List Product} {items candidates : List ChatOrderItem}
  {item candidate : ChatOrderItem} {id : Uuid}

theorem means_iff : means db products id item = true ↔ meant db products item.product = some id :=
  decide_eq_true_iff

theorem findMatchingItemIndex_of_means (h : means db products id candidate = true) :
    findMatchingItemIndex db items candidate products = items.findIdx? (means db products id) := by
  obtain ⟨p, hp, hid⟩ := Option.map_eq_some_iff.mp (means_iff.mp h)
  have htest : (fun item : ChatOrderItem => (matchProduct db item.product products).any
      fun found => found.id = p.id) = means db products id := by
    funext item
    unfold means meant
    rw [hid]
    cases matchProduct db item.product products with
    | none => rfl
    | some found => simp
  unfold findMatchingItemIndex
  rw [hp]
  exact congrArg (items.findIdx? ·) htest

/-- A line that takes over a quantity stands for the same product. -/
theorem means_fill (h : means db products id item = true) :
    means db products id ⟨orElse item.product candidate.product,
      item.quantity.or candidate.quantity⟩ = true := by
  have hitem := means_iff.mp h
  rw [means_iff, orElse_of_present (present_of_meant hitem)]
  exact hitem

theorem mergeCandidateItems_of_none (h : means db products id candidate = true)
    (hnone : items.findIdx? (means db products id) = none) :
    mergeCandidateItems db items candidate products = items ++ [candidate] := by
  unfold mergeCandidateItems
  rw [findMatchingItemIndex_of_means h, hnone]
  split_ifs with hempty
  · rw [List.isEmpty_iff.mp hempty, List.nil_append]
  · rfl

theorem mergeCandidateItems_of_some {i : ℕ} (h : means db products id candidate = true)
    (hfound : items.findIdx? (means db products id) = some i) :
    mergeCandidateItems db items candidate products = items.modify i fun item =>
      ⟨orElse item.product candidate.product, item.quantity.or candidate.quantity⟩ := by
  have hne : items.isEmpty = false := by
    cases items with
    | nil => cases hfound
    | cons => rfl
  unfold mergeCandidateItems
  rw [findMatchingItemIndex_of_means h, hfound, hne]
  rfl

theorem linesOf_of_not_found (h : items.findIdx? (means db products id) = none) :
    linesOf db products id items = [] := by
  apply List.filter_eq_nil_iff.mpr
  intro item hitem
  rw [List.findIdx?_eq_none_iff.mp h item hitem]
  exact Bool.false_ne_true

/-- The lines of the candidate's own product. -/
theorem linesOf_mergeCandidateItems (h : means db products id candidate = true) :
    linesOf db products id (mergeCandidateItems db items candidate products) =
      mergeLine (linesOf db products id items) candidate := by
  cases hfound : items.findIdx? (means db products id) with
  | none =>
    rw [mergeCandidateItems_of_none h hfound, linesOf, List.filter_append,
      List.filter_cons_of_pos h]
    change linesOf db products id items ++ [candidate] = _
    rw [linesOf_of_not_found hfound]
    rfl
  | some i =>
    rw [mergeCandidateItems_of_some h hfound, linesOf,
      FirstMatch.filter_modify hfound fun item hitem => means_fill hitem]
    change (linesOf db products id items).modifyHead _ = _
    cases hlines : linesOf db products id items with
    | nil =>
      obtain ⟨hlt, hmeans, -⟩ := List.findIdx?_eq_some_iff_getElem.mp hfound
      have hmem : items[i] ∈ linesOf db products id items :=
        List.mem_filter.mpr ⟨List.getElem_mem hlt, hmeans⟩
      rw [hlines] at hmem
      cases hmem
    | cons line rest =>
      have hline : means db products id line = true :=
        (List.mem_filter.mp (hlines ▸ List.mem_cons_self : line ∈ linesOf db products id items)).2
      rw [List.modifyHead_cons, orElse_of_present (present_of_meant (means_iff.mp hline))]
      rfl

/-- Lines of other products. -/
theorem filter_mergeCandidateItems {q : ChatOrderItem → Bool}
    (h : means db products id candidate = true)
    (hq : ∀ item, means db products id item = true → q item = false) :
    (mergeCandidateItems db items candidate products).filter q = items.filter q := by
  cases hfound : items.findIdx? (means db products id) with
  | none =>
    rw [mergeCandidateItems_of_none h hfound, List.filter_append,
      List.filter_cons_of_neg (Bool.not_eq_true _ ▸ hq _ h), List.filter_nil, List.append_nil]
  | some i =>
    rw [mergeCandidateItems_of_some h hfound]
    exact FirstMatch.filter_modify_of_not hfound (fun item hitem => means_fill hitem) hq

/-- What a run of candidates leaves alone. -/
theorem filter_foldl_mergeCandidateItems {q : ChatOrderItem → Bool}
    (h : ∀ candidate ∈ candidates, ∃ id, means db products id candidate = true ∧
      ∀ item, means db products id item = true → q item = false) :
    (candidates.foldl (fun items candidate => mergeCandidateItems db items candidate products)
      items).filter q = items.filter q := by
  induction candidates generalizing items with
  | nil => rfl
  | cons candidate candidates ih =>
    obtain ⟨id, hid, hq⟩ := h candidate List.mem_cons_self
    rw [List.foldl_cons, ih fun c hc => h c (List.mem_cons_of_mem _ hc),
      filter_mergeCandidateItems hid hq]

theorem linesOf_foldl_mergeCandidateItems
    (h : ∀ candidate ∈ candidates, ∃ id, means db products id candidate = true) :
    linesOf db products id (candidates.foldl
        (fun items candidate => mergeCandidateItems db items candidate products) items) =
      (linesOf db products id candidates).foldl mergeLine (linesOf db products id items) := by
  induction candidates generalizing items with
  | nil => rfl
  | cons candidate candidates ih =>
    have hrest := @ih (mergeCandidateItems db items candidate products)
      fun c hc => h c (List.mem_cons_of_mem _ hc)
    obtain ⟨id', hid'⟩ := h candidate List.mem_cons_self
    cases hid : means db products id candidate with
    | true =>
      have hlines : linesOf db products id (candidate :: candidates) =
          candidate :: linesOf db products id candidates := List.filter_cons_of_pos hid
      rw [List.foldl_cons, hrest, linesOf_mergeCandidateItems hid, hlines, List.foldl_cons]
    | false =>
      have hlines : linesOf db products id (candidate :: candidates) =
          linesOf db products id candidates := List.filter_cons_of_neg (by simp [hid])
      have hne : id' ≠ id := by
        rintro rfl
        exact Bool.false_ne_true (hid.symm.trans hid')
      have hother : linesOf db products id (mergeCandidateItems db items candidate products) =
          linesOf db products id items := by
        apply filter_mergeCandidateItems hid'
        intro item hitem
        rw [← Bool.not_eq_true, means_iff, means_iff.mp hitem]
        exact fun heq => hne (Option.some.inj heq)
      rw [List.foldl_cons, hrest, hother, hlines]

/-! The amount in the lines of one product. -/

theorem amount_eq_sum (items : List ChatOrderItem) :
    amount items = (items.filterMap (·.quantity)).sum := by
  induction items with
  | nil => rfl
  | cons item items ih =>
    have hcons : amount (item :: items) = item.quantity.getD 0 + amount items := List.sum_cons
    cases hquantity : item.quantity <;> simp [hcons, ih, hquantity]

/-- The first line takes the first quantity that is stated. -/
theorem foldl_mergeLine (line : ChatOrderItem) (rest candidates : List ChatOrderItem) :
    candidates.foldl mergeLine (line :: rest) =
      { line with quantity := ((line :: candidates).filterMap (·.quantity)).head? } :: rest := by
  induction candidates generalizing line with
  | nil =>
    have hfirst : ([line].filterMap (·.quantity)).head? = line.quantity := by
      cases hline : line.quantity <;> simp [hline]
    rw [List.foldl_nil, hfirst]
  | cons candidate candidates ih =>
    rw [List.foldl_cons, mergeLine, ih]
    cases hline : line.quantity with
    | some n => simp [hline]
    | none => cases hcandidate : candidate.quantity <;> simp [hline, hcandidate]

/-- What the lines gain, and what is lost behind the first quantity. -/
theorem amount_foldl_mergeLine (lines candidates : List ChatOrderItem) :
    amount (candidates.foldl mergeLine lines) +
        (((lines.take 1 ++ candidates).filterMap (·.quantity)).tail).sum =
      amount lines + amount candidates := by
  have hcons (line : ChatOrderItem) (rest candidates : List ChatOrderItem) :
      amount (candidates.foldl mergeLine (line :: rest)) +
          (((line :: candidates).filterMap (·.quantity)).tail).sum =
        amount (line :: rest) + amount candidates := by
    have hstated : amount (line :: candidates) =
        ((line :: candidates).filterMap (·.quantity)).sum := amount_eq_sum _
    rw [foldl_mergeLine]
    cases hquantities : (line :: candidates).filterMap (·.quantity) with
    | nil =>
      rw [hquantities] at hstated
      simp only [amount, List.map_cons, List.sum_cons, List.sum_nil, List.head?_nil,
        Option.getD_none, List.tail_nil] at hstated ⊢
      omega
    | cons n stated =>
      rw [hquantities] at hstated
      simp only [amount, List.map_cons, List.sum_cons, List.head?_cons, Option.getD_some,
        List.tail_cons] at hstated ⊢
      omega
  cases lines with
  | cons line rest => exact hcons line rest candidates
  | nil =>
    cases candidates with
    | nil => rfl
    | cons candidate candidates =>
      have hfirst := hcons candidate [] candidates
      simp only [amount, List.map_cons, List.map_nil, List.sum_cons, List.sum_nil] at hfirst ⊢
      rw [List.foldl_cons, mergeLine, List.take_nil, List.nil_append]
      omega

theorem mem_cartProducts_iff : id ∈ cartProducts db products items ↔
    linesOf db products id items ≠ [] := by
  rw [cartProducts, List.mem_filterMap, Ne, linesOf, List.filter_eq_nil_iff]
  push Not
  exact exists_congr fun item => and_congr_right fun _ => means_iff.symm

theorem foldl_mergeLine_ne_nil {lines : List ChatOrderItem} (h : candidates ≠ []) :
    candidates.foldl mergeLine lines ≠ [] := by
  cases lines with
  | cons line rest =>
    rw [foldl_mergeLine]
    exact List.cons_ne_nil _ _
  | nil =>
    cases candidates with
    | nil => exact absurd rfl h
    | cons candidate candidates =>
      rw [List.foldl_cons, mergeLine, foldl_mergeLine]
      exact List.cons_ne_nil _ _

/-! The two operations. -/

theorem exists_means {candidate : ChatOrderItem}
    (h : (matchProduct db candidate.product products).isSome = true) :
    ∃ id, means db products id candidate = true := by
  obtain ⟨p, hp⟩ := Option.isSome_iff_exists.mp h
  exact ⟨p.id, means_iff.mpr (by rw [meant, hp, Option.map_some])⟩

theorem mem_cartProducts_of_means (hmem : candidate ∈ candidates)
    (h : means db products id candidate = true) : id ∈ cartProducts db products candidates :=
  List.mem_filterMap.mpr ⟨candidate, hmem, means_iff.mp h⟩

theorem otherLines_false (hid : id ∈ cartProducts db products candidates)
    (hitem : means db products id item = true) :
    (!(cartProducts db products candidates).any fun id => means db products id item) = false := by
  rw [Bool.not_eq_false', List.any_eq_true]
  exact ⟨id, hid, hitem⟩

theorem adds_iff (slots : ChatOrderSlots)
    (h : ∀ candidate ∈ candidates, (matchProduct db candidate.product products).isSome = true) :
    Adds db products slots.items candidates (appendOrderItems db slots candidates products).items ↔
      StatesOneQuantity db products slots.items candidates := by
  have hlines (id : Uuid) : linesOf db products id
      (appendOrderItems db slots candidates products).items =
        (linesOf db products id candidates).foldl mergeLine (linesOf db products id slots.items) :=
    linesOf_foldl_mergeCandidateItems fun c hc => exists_means (h c hc)
  have hexact (id : Uuid) : amount (linesOf db products id
      (appendOrderItems db slots candidates products).items) =
        amount (linesOf db products id slots.items) + amount (linesOf db products id candidates) ↔
      ∀ n ∈ (statedQuantities db products id slots.items candidates).tail, n = 0 := by
    have hsum := amount_foldl_mergeLine (linesOf db products id slots.items)
      (linesOf db products id candidates)
    rw [← hlines] at hsum
    rw [← List.sum_eq_zero_iff]
    unfold statedQuantities
    omega
  have hinCart : cartProducts db products candidates ⊆
      cartProducts db products (appendOrderItems db slots candidates products).items := by
    intro id hid
    rw [mem_cartProducts_iff, hlines]
    exact foldl_mergeLine_ne_nil (mem_cartProducts_iff.mp hid)
  have hothers : otherLines db products candidates
      (appendOrderItems db slots candidates products).items =
        otherLines db products candidates slots.items := by
    apply filter_foldl_mergeCandidateItems
    intro candidate hmem
    obtain ⟨id, hid⟩ := exists_means (h candidate hmem)
    exact ⟨id, hid, fun item hitem =>
      otherLines_false (mem_cartProducts_of_means hmem hid) hitem⟩
  constructor
  · intro hadds id hid
    exact (hexact id).mp (hadds.amounts id hid)
  · intro hstated
    exact ⟨fun id hid => (hexact id).mpr (hstated id hid), hinCart, hothers⟩

theorem items_removeOrderItem_filter {slots : ChatOrderSlots} {q : ChatOrderItem → Bool}
    (h : means db products id candidate = true)
    (hq : ∀ item, means db products id item = true → q item = false) :
    (removeOrderItem db slots candidate products).items.filter q = slots.items.filter q := by
  unfold removeOrderItem
  rw [findMatchingItemIndex_of_means h]
  cases hfound : slots.items.findIdx? (means db products id) with
  | none => rfl
  | some i => exact FirstMatch.filter_eraseIdx_of_not hfound hq

theorem linesOf_removeOrderItem {slots : ChatOrderSlots}
    (h : means db products id candidate = true) :
    linesOf db products id (removeOrderItem db slots candidate products).items =
      (linesOf db products id slots.items).tail := by
  unfold removeOrderItem
  rw [findMatchingItemIndex_of_means h]
  cases hfound : slots.items.findIdx? (means db products id) with
  | none =>
    change linesOf db products id slots.items = _
    rw [linesOf_of_not_found hfound, List.tail_nil]
  | some i => exact FirstMatch.filter_eraseIdx hfound

theorem removes_iff (slots : ChatOrderSlots)
    (h : (matchProduct db candidate.product products).isSome = true) :
    Removes db products slots.items (candidate :: candidates)
        (removeOrderItem db slots candidate products).items ↔
      OnlyFirstInCart db products slots.items (candidate :: candidates) := by
  obtain ⟨own, hown⟩ := exists_means h
  have hgone (id : Uuid) :
      linesOf db products id (removeOrderItem db slots candidate products).items = [] ↔
        (linesOf db products id slots.items).length ≤
          if (candidate :: candidates).head?.any (means db products id) then 1 else 0 := by
    rw [List.head?_cons, Option.any_some]
    cases hid : means db products id candidate with
    | true =>
      rw [linesOf_removeOrderItem hid, if_pos rfl, ← List.length_eq_zero_iff, List.length_tail]
      omega
    | false =>
      have hother : linesOf db products id (removeOrderItem db slots candidate products).items =
          linesOf db products id slots.items := by
        apply items_removeOrderItem_filter hown
        intro item hitem
        rw [← Bool.not_eq_true, means_iff, means_iff.mp hitem, ← means_iff.mp hown, ← means_iff]
        exact Bool.not_eq_true _ ▸ hid
      rw [hother, if_neg Bool.false_ne_true, ← List.length_eq_zero_iff, Nat.le_zero]
  have hothers : otherLines db products (candidate :: candidates)
      (removeOrderItem db slots candidate products).items =
        otherLines db products (candidate :: candidates) slots.items :=
    items_removeOrderItem_filter hown fun item hitem =>
      otherLines_false (mem_cartProducts_of_means List.mem_cons_self hown) hitem
  constructor
  · intro hremoves id hid
    exact (hgone id).mp (hremoves.gone id hid)
  · intro honly
    exact ⟨fun id hid => (hgone id).mpr (honly id hid), hothers⟩

end

section
variable {rt : Runtime} {turn : OrderTurn} {r : TurnReading} {slots : ChatOrderSlots}

/-- Adding adds exactly when it states one quantity a product, a stated quantity in the cart
included; removing removes exactly when the cart has one line of what is named at most, and the
first candidate means it. -/
theorem add_and_remove_iff (h : ∀ candidate ∈ r.candidates,
      (matchProduct rt.db candidate.product turn.products).isSome = true) :
    (detectOrderItemsOperation rt.db turn.content r.previousSlots r.candidates turn.products =
        some .add → ∃ after, applyItems rt turn r slots = .ok after ∧
          (Adds rt.db turn.products slots.items r.candidates after.items ↔
            StatesOneQuantity rt.db turn.products slots.items r.candidates)) ∧
      (detectOrderItemsOperation rt.db turn.content r.previousSlots r.candidates turn.products =
        some .remove → ∃ after, applyItems rt turn r slots = .ok after ∧
          (Removes rt.db turn.products slots.items r.candidates after.items ↔
            OnlyFirstInCart rt.db turn.products slots.items r.candidates)) := by
  have hnone : detectOrderItemsOperation rt.db turn.content r.previousSlots [] turn.products =
      none := rfl
  constructor
  · intro hadd
    refine ⟨appendOrderItems rt.db slots r.candidates turn.products, ?_, adds_iff slots h⟩
    unfold applyItems
    split
    case h_1 hempty =>
      rw [hempty, hnone] at hadd
      cases hadd
    case h_2 => rw [hadd]
  · intro hremove
    cases hcandidates : r.candidates with
    | nil =>
      rw [hcandidates, hnone] at hremove
      cases hremove
    | cons candidate candidates =>
      refine ⟨removeOrderItem rt.db slots candidate turn.products, ?_,
        removes_iff slots (h candidate (hcandidates ▸ List.mem_cons_self))⟩
      unfold applyItems
      rw [hcandidates] at hremove ⊢
      simp only [hremove]

end

/-- A message to the cart of `lanSlots`, and what is read from it. -/
def lanTurn (content : Text) : OrderTurn := (answerToSummary content).orderTurn

def lanReading (content : Text) : TurnReading := readTurn plainRuntime (lanTurn content)

/-- "bỏ 2 bình gas elf" takes the only line out of the cart. -/
theorem elf_removed : ∃ after,
    applyItems plainRuntime (lanTurn "bỏ 2 bình gas elf") (lanReading "bỏ 2 bình gas elf") lanSlots =
        .ok after ∧
      Removes plainRuntime.db (lanTurn "bỏ 2 bình gas elf").products lanSlots.items
        (lanReading "bỏ 2 bình gas elf").candidates after.items := by
  have honly : OnlyFirstInCart plainRuntime.db (lanTurn "bỏ 2 bình gas elf").products
      lanSlots.items (lanReading "bỏ 2 bình gas elf").candidates := by
    unfold OnlyFirstInCart
    decide +kernel
  obtain ⟨after, hafter, hremoves⟩ := (@add_and_remove_iff plainRuntime
    (lanTurn "bỏ 2 bình gas elf") (lanReading "bỏ 2 bình gas elf") lanSlots
    (by decide +kernel)).2 (by decide +kernel)
  exact ⟨after, hafter, hremoves.mpr honly⟩

/-- "thêm 3 bình gas elf" (three more) leaves the two cylinders in the cart two. -/
theorem elf_not_added :
    ¬ ∀ (rt : Runtime) (turn : OrderTurn) (r : TurnReading) (slots : ChatOrderSlots),
      (∀ candidate ∈ r.candidates,
        (matchProduct rt.db candidate.product turn.products).isSome = true) →
      (detectOrderItemsOperation rt.db turn.content r.previousSlots r.candidates turn.products =
        some .add → ∃ after, applyItems rt turn r slots = .ok after ∧
          Adds rt.db turn.products slots.items r.candidates after.items) ∧
      (detectOrderItemsOperation rt.db turn.content r.previousSlots r.candidates turn.products =
        some .remove → ∃ after, applyItems rt turn r slots = .ok after ∧
          Removes rt.db turn.products slots.items r.candidates after.items) := by
  intro h
  obtain ⟨after, hafter, hadds⟩ := (h plainRuntime (lanTurn "thêm 3 bình gas elf")
    (lanReading "thêm 3 bình gas elf") lanSlots (by decide +kernel)).1 (by decide +kernel)
  have hleft : (match applyItems plainRuntime (lanTurn "thêm 3 bình gas elf")
      (lanReading "thêm 3 bình gas elf") lanSlots with
        | .ok after => amount (linesOf plainRuntime.db (lanTurn "thêm 3 bình gas elf").products
          elfGas.id after.items)
        | .error _ => 0) = 2 := by
    decide +kernel
  have hasked : amount (linesOf plainRuntime.db (lanTurn "thêm 3 bình gas elf").products elfGas.id
      lanSlots.items) + amount (linesOf plainRuntime.db
        (lanTurn "thêm 3 bình gas elf").products elfGas.id
        (lanReading "thêm 3 bình gas elf").candidates) = 5 := by
    decide +kernel
  have hexact := hadds.amounts elfGas.id (by decide +kernel)
  rw [hafter] at hleft
  have habsurd : 2 = 5 := hleft.symm.trans (hexact.trans hasked)
  omega

end Qiki.Chat
