import Qiki.Text.LetterCase
import Qiki.Text.Boundary

/-! The base letters of the words of a text. They are the same in every normal form and in lower
case. -/

namespace Text

/-- A text is a word or is cut at a space. -/
theorem word_induction (space : Char → Bool) {P : Text → Prop}
    (word : ∀ w, (∀ c ∈ w, space c = false) → P w)
    (cut : ∀ x c y, space c = true → P x → P y → P (x ++ c :: y)) (s : Text) : P s := by
  suffices hfrom : ∀ w, (∀ c ∈ w, space c = false) → P (w ++ s) from
    hfrom [] (List.forall_mem_nil _)
  induction s with
  | nil =>
    intro w hw
    rw [List.append_nil]
    exact word w hw
  | cons c s ih =>
    intro w hw
    cases hc : space c with
    | true => exact cut w c s hc (word w hw) (ih [] (List.forall_mem_nil _))
    | false =>
      have hnext := ih (w ++ [c]) fun d hd => by
        rcases List.mem_append.mp hd with hd | hd
        · exact hw d hd
        · rw [List.mem_singleton.mp hd, hc]
      rwa [List.append_assoc] at hnext

/-- Words are found letter by letter. -/
theorem words_map {space : Char → Bool} {g : Char → Char} (hg : ∀ c, space (g c) = space c)
    (s : Text) : words space (s.map g) = (words space s).map (List.map g) := by
  induction s using word_induction space with
  | word w hw =>
    by_cases hnil : w = []
    · rw [hnil]
      rfl
    · rw [words_of_word hnil hw, words_of_word]
      · rfl
      · exact fun hmap => hnil (List.map_eq_nil_iff.mp hmap)
      · intro d hd
        obtain ⟨c, hc, rfl⟩ := List.mem_map.mp hd
        rw [hg, hw c hc]
  | cut x c y hc ihx ihy =>
    have hgc : space (g c) = true := by rw [hg, hc]
    rw [List.map_append, List.map_cons, words_append hgc, words_append hc, ihx, ihy, List.map_append]

theorem words_congr {space space' : Char → Bool} {s : Text} (hs : ∀ c ∈ s, space c = space' c) :
    words space s = words space' s := by
  unfold words
  congr 1
  induction s with
  | nil => rfl
  | cons c s ih =>
    rw [List.splitOnP_cons_eq_if_modifyHead, List.splitOnP_cons_eq_if_modifyHead,
      ih fun d hd => hs d (List.mem_cons_of_mem c hd), hs c List.mem_cons_self]

theorem mem_of_mem_words {space : Char → Bool} {s w : Text} {c : Char} (hw : w ∈ words space s)
    (hc : c ∈ w) : c ∈ s := by
  induction s using word_induction space with
  | word v hv =>
    by_cases hnil : v = []
    · rw [hnil] at hw
      cases hw
    · rw [words_of_word hnil hv, List.mem_singleton] at hw
      rwa [← hw]
  | cut x d y hd ihx ihy =>
    rw [words_append hd, List.mem_append] at hw
    rcases hw with hw | hw
    · exact List.mem_append_left _ (ihx hw)
    · exact List.mem_append_right x (List.mem_cons_of_mem d (ihy hw))

/-- With a space before each word the first is no exception. -/
theorem cons_join {c : Char} {ws : List Text} (hws : ws ≠ []) :
    c :: join [c] ws = ws.flatMap (c :: ·) := by
  induction ws with
  | nil => exact absurd rfl hws
  | cons w ws ih =>
    cases ws with
    | nil => simp [join]
    | cons v ws =>
      have hjoin : join [c] (w :: v :: ws) = w ++ c :: join [c] (v :: ws) := by
        simp [join, List.intercalate]
      rw [hjoin, ih (List.cons_ne_nil v ws), List.flatMap_cons (x := w)]
      rfl

namespace Members

/-- A statement about the characters of a text is decided by going through them. -/
scoped instance (priority := high) decidableForall (P : Char → Prop) [DecidablePred P] (s : Text) :
    Decidable (∀ c, c ∈ s → P c) := List.decidableBAll P s

scoped instance (priority := high) decidableExists (P : Char → Prop) [DecidablePred P] (s : Text) :
    Decidable (∃ c, c ∈ s ∧ P c) := List.decidableBEx P s

end Members

end Text

namespace Unicode

/-- What decomposition, composition, letter case and white space have to do with one another. -/
structure Canonical (db : Database) : Prop where
  decompose_ne_nil : ∀ c, db.decompose c ≠ []
  decomposed : ∀ c, ∀ d ∈ db.decompose c, db.decompose d = [d]
  composed : ∀ a b c, db.compose a b = some c → db.decompose c = db.decompose a ++ db.decompose b
  lower_ne_nil : ∀ c, db.lower c ≠ []
  lowered : ∀ c, ∀ d ∈ db.lower c, db.lower d = [d]
  lower_decompose : ∀ c, (db.lower c).flatMap db.decompose = (db.decompose c).flatMap db.lower
  lower_mark : ∀ c, db.nonspacingMark c = true ∨ db.combiningClass c ≠ 0 → db.lower c = [c]
  lower_letter : ∀ c, db.decompose c = [c] → db.nonspacingMark c = false →
    ∀ d ∈ db.lower c, db.nonspacingMark d = false
  space_boundary : ∀ c, db.space c = true → ∃ starter, IsBoundary db c starter ∧
    db.space starter = true ∧ ∀ d, db.compose starter d = none ∧ db.compose d starter = none
  decompose_space : ∀ c, db.space c = false → ∀ d ∈ db.decompose c, db.space d = false
  lower_space : ∀ c, db.space c = false → ∀ d ∈ db.lower c, db.space d = false
  sigma : ∀ c ∈ ['Σ', 'σ', 'ς'], db.decompose c = [c] ∧ db.nonspacingMark c = false ∧
    db.space c = false

/-- What a base letter gives does not depend on its case, and that of two marks not on their
order. -/
structure Caseless {β : Type} (db : Database) (f : Char → List β) : Prop where
  lower : ∀ c, db.decompose c = [c] → db.nonspacingMark c = false → (db.lower c).flatMap f = f c
  sigma : f 'σ' = f 'Σ' ∧ f 'ς' = f 'Σ'
  marks : ∀ c d, db.combiningClass c ≠ 0 → db.combiningClass d ≠ 0 →
    db.nonspacingMark c = false → db.nonspacingMark d = false → f c ++ f d = f d ++ f c

/-- The decomposition of a character without its marks. -/
def baseOf (db : Database) (c : Char) : Text := (db.decompose c).filter fun d => !db.nonspacingMark d

/-- What the base letters of a text give. -/
def bases {β : Type} (db : Database) (f : Char → List β) (s : Text) : List β :=
  s.flatMap fun c => (baseOf db c).flatMap f

section
variable {β : Type} {db : Database} {f : Char → List β}

@[simp] theorem bases_nil : bases db f [] = [] := rfl

@[simp] theorem bases_cons (c : Char) (s : Text) :
    bases db f (c :: s) = (baseOf db c).flatMap f ++ bases db f s := List.flatMap_cons

@[simp] theorem bases_append (s t : Text) : bases db f (s ++ t) = bases db f s ++ bases db f t :=
  List.flatMap_append

theorem baseOf_decomposed {c : Char} (hc : db.decompose c = [c]) :
    baseOf db c = if db.nonspacingMark c then [] else [c] := by
  rw [baseOf, hc]
  cases h : db.nonspacingMark c with
  | true => simp [h]
  | false => simp [h]

theorem bases_decomposed {s : Text} (hs : ∀ d ∈ s, db.decompose d = [d]) :
    bases db f s = (s.filter fun d => !db.nonspacingMark d).flatMap f := by
  induction s with
  | nil => rfl
  | cons c s ih =>
    rw [bases_cons, ih fun d hd => hs d (List.mem_cons_of_mem c hd),
      baseOf_decomposed (hs c List.mem_cons_self), List.filter_cons]
    cases db.nonspacingMark c with
    | true => rfl
    | false => simp

/-! Canonical decomposition. -/

variable (h : Canonical db)

include h in
theorem Canonical.decompose_nfd {s : Text} : ∀ d ∈ nfd db s, db.decompose d = [d] := by
  intro d hd
  obtain ⟨c, -, hc⟩ := mem_nfd.mp hd
  exact h.decomposed c d hc

variable (hf : Caseless db f)

include hf in
/-- Two decomposed marks give the same in either order. -/
theorem Caseless.comm {c d : Char} (hc : db.decompose c = [c]) (hd : db.decompose d = [d])
    (hcc : db.combiningClass c ≠ 0) (hcd : db.combiningClass d ≠ 0) :
    (baseOf db c).flatMap f ++ (baseOf db d).flatMap f =
      (baseOf db d).flatMap f ++ (baseOf db c).flatMap f := by
  rw [baseOf_decomposed hc, baseOf_decomposed hd]
  cases hmc : db.nonspacingMark c with
  | true => simp
  | false =>
    cases hmd : db.nonspacingMark d with
    | true => simp
    | false => simpa using hf.marks c d hcc hcd hmc hmd

include hf in
theorem Caseless.bases_insertMark {c : Char} {s : Text} (hc : db.decompose c = [c])
    (hs : ∀ d ∈ s, db.decompose d = [d]) : bases db f (insertMark db c s) = bases db f (c :: s) := by
  induction s with
  | nil => rfl
  | cons d s ih =>
    rw [insertMark]
    split_ifs with hstop
    · rfl
    · push Not at hstop
      have hcomm := hf.comm hc (hs d List.mem_cons_self) hstop.1 hstop.2.1
      have hrest := ih fun e he => hs e (List.mem_cons_of_mem d he)
      rw [bases_cons, hrest, bases_cons, bases_cons, bases_cons, ← List.append_assoc, ← hcomm,
        List.append_assoc]

include hf in
theorem Caseless.bases_foldr {s : Text} (hs : ∀ d ∈ s, db.decompose d = [d]) :
    bases db f (s.foldr (insertMark db) []) = bases db f s := by
  induction s with
  | nil => rfl
  | cons c s ih =>
    have hrest := fun d hd => hs d (List.mem_cons_of_mem c hd)
    have hmarks : ∀ d ∈ s.foldr (insertMark db) [], db.decompose d = [d] := fun d hd =>
      hrest d ((perm_foldr_insertMark s).mem_iff.mp hd)
    rw [List.foldr_cons, hf.bases_insertMark (hs c List.mem_cons_self) hmarks, bases_cons, bases_cons,
      ih hrest]

include h in
theorem Canonical.baseOf_flatMap (c : Char) : (db.decompose c).flatMap (baseOf db) = baseOf db c := by
  have hone : ∀ d ∈ db.decompose c, baseOf db d = if db.nonspacingMark d then [] else [d] :=
    fun d hd => baseOf_decomposed (h.decomposed c d hd)
  rw [List.flatMap_congr hone, baseOf]
  induction db.decompose c with
  | nil => rfl
  | cons d s ih =>
    rw [List.flatMap_cons, ih, List.filter_cons]
    cases db.nonspacingMark d with
    | true => rfl
    | false => rfl

include h hf in
theorem Canonical.bases_nfd (s : Text) : bases db f (nfd db s) = bases db f s := by
  have hdecomposed : ∀ d ∈ s.flatMap db.decompose, db.decompose d = [d] := by
    intro d hd
    obtain ⟨c, -, hc⟩ := List.mem_flatMap.mp hd
    exact h.decomposed c d hc
  rw [nfd, hf.bases_foldr hdecomposed]
  clear hdecomposed
  induction s with
  | nil => rfl
  | cons c s ih =>
    have hc : bases db f (db.decompose c) = (baseOf db c).flatMap f := by
      rw [bases, ← List.flatMap_assoc, h.baseOf_flatMap]
    rw [List.flatMap_cons, bases_append, ih, bases_cons, hc]

/-! Composition. -/

/-- A character composes with the starter unless a mark of its class or a higher one is between. -/
def unblocked (db : Database) (pending : Text) (c : Char) : Bool :=
  pending.head?.all fun d => db.combiningClass d < db.combiningClass c

theorem composeFrom_cons (starter c : Char) (pending s : Text) :
    composeFrom db starter pending (c :: s) =
      match if unblocked db pending c then db.compose starter c else none with
      | some composite => composeFrom db composite pending s
      | none =>
        if db.combiningClass c = 0 then starter :: pending.reverse ++ composeFrom db c [] s
        else composeFrom db starter (c :: pending) s := by
  cases pending with
  | nil => rfl
  | cons d pending =>
    simp only [composeFrom, unblocked, List.head?_cons, Option.all_some]
    rfl

include h hf in
theorem Canonical.bases_composeFrom {s : Text} (hs : ∀ c ∈ s, db.decompose c = [c]) (starter : Char)
    {pending : Text}
    (hp : ∀ c ∈ pending, db.decompose c = [c] ∧ db.combiningClass c ≠ 0) :
    bases db f (composeFrom db starter pending s) =
      bases db f (starter :: (pending.reverse ++ s)) := by
  induction s generalizing starter pending with
  | nil => rw [composeFrom, List.append_nil]
  | cons c s ih =>
    have hc := hs c List.mem_cons_self
    have hrest := fun d hd => hs d (List.mem_cons_of_mem c hd)
    rw [composeFrom_cons]
    split
    · next composite hcomposite =>
      -- the mark is taken in front of the marks that stay, which it may pass
      obtain ⟨hfree, hcompose⟩ := (Option.ite_none_right_eq_some).mp hcomposite
      have hpass (p : Text) (hp : ∀ d ∈ p, db.decompose d = [d] ∧ db.combiningClass d ≠ 0)
          (hcc : p ≠ [] → db.combiningClass c ≠ 0) :
          (baseOf db c).flatMap f ++ bases db f p = bases db f p ++ (baseOf db c).flatMap f := by
        induction p with
        | nil => simp
        | cons d p ihp =>
          have hcc := hcc (List.cons_ne_nil d p)
          obtain ⟨hd, hcd⟩ := hp d List.mem_cons_self
          have hcomm := hf.comm hc hd hcc hcd
          have hlater := ihp (fun e he => hp e (List.mem_cons_of_mem d he)) fun _ => hcc
          rw [bases_cons, ← List.append_assoc, hcomm, List.append_assoc, hlater, List.append_assoc]
      have hclass : pending.reverse ≠ [] → db.combiningClass c ≠ 0 := by
        intro hne
        cases pending with
        | nil => exact absurd rfl hne
        | cons d pending =>
          have hless : db.combiningClass d < db.combiningClass c := by simpa [unblocked] using hfree
          omega
      have hmoved := hpass pending.reverse (fun d hd => hp d (List.mem_reverse.mp hd)) hclass
      have hbase : baseOf db composite = baseOf db starter ++ baseOf db c := by
        rw [baseOf, h.composed starter c composite hcompose, List.filter_append, ← baseOf, ← baseOf]
      rw [ih hrest composite hp]
      simp only [bases_cons, bases_append, hbase, List.flatMap_append]
      rw [List.append_assoc, ← List.append_assoc _ (bases db f pending.reverse), hmoved,
        List.append_assoc]
    · next hnone =>
      split_ifs with hclass
      · rw [bases_append, ih hrest c (fun d hd => absurd hd List.not_mem_nil)]
        simp only [List.reverse_nil, List.nil_append, bases_cons, bases_append, List.append_assoc]
      · rw [ih hrest starter (List.forall_mem_cons.mpr ⟨⟨hc, hclass⟩, hp⟩)]
        simp only [List.reverse_cons, bases_cons, bases_append, bases_nil, List.append_assoc,
          List.append_nil]

include h hf in
theorem Canonical.bases_compose {s : Text} (hs : ∀ c ∈ s, db.decompose c = [c]) :
    bases db f (compose db s) = bases db f s := by
  induction s with
  | nil => rfl
  | cons c s ih =>
    have hrest := fun d hd => hs d (List.mem_cons_of_mem c hd)
    rw [compose]
    split_ifs with hc
    · rw [h.bases_composeFrom hf hrest c (fun d hd => absurd hd List.not_mem_nil)]
      rfl
    · rw [bases_cons, bases_cons, ih hrest]

include h hf in
theorem Canonical.bases_nfc (s : Text) : bases db f (nfc db s) = bases db f s := by
  rw [nfc, h.bases_compose hf h.decompose_nfd, h.bases_nfd hf]

/-! Letter case. -/

include h hf in
theorem Canonical.bases_lowerChar (c : Char) :
    bases db f (db.lower c) = (baseOf db c).flatMap f := by
  have hfilter : (db.lower c).flatMap (baseOf db) =
      ((db.decompose c).flatMap db.lower).filter fun d => !db.nonspacingMark d := by
    rw [← h.lower_decompose, List.filter_flatMap]
    rfl
  have hletter : ∀ d ∈ db.decompose c,
      ((db.lower d).filter fun e => !db.nonspacingMark e).flatMap f =
        (if db.nonspacingMark d then [] else [d]).flatMap f := by
    intro d hd
    cases hmark : db.nonspacingMark d with
    | true =>
      rw [h.lower_mark d (Or.inl hmark)]
      simp [hmark]
    | false =>
      have hd := h.decomposed c d hd
      have hall := h.lower_letter d hd hmark
      rw [List.filter_eq_self.mpr fun e he => by rw [hall e he]; rfl]
      simpa using hf.lower d hd hmark
  rw [bases, ← List.flatMap_assoc, hfilter, List.filter_flatMap, List.flatMap_assoc,
    List.flatMap_congr hletter, ← h.baseOf_flatMap c, List.flatMap_assoc]
  exact List.flatMap_congr fun d hd => by rw [baseOf_decomposed (h.decomposed c d hd)]

include h hf in
theorem Canonical.bases_lowerFrom (before s : Text) :
    bases db f (lowerFrom db before s) = bases db f s := by
  induction s generalizing before with
  | nil => rfl
  | cons c s ih =>
    rw [lowerFrom, bases_append, ih, bases_cons]
    congr 1
    by_cases hc : c = 'Σ'
    · have hone (d : Char) (hd : d ∈ ['Σ', 'σ', 'ς']) : baseOf db d = [d] := by
        obtain ⟨hdecompose, hmark, -⟩ := h.sigma d hd
        rw [baseOf_decomposed hdecompose, hmark]
        rfl
      rw [if_pos hc, hc, hone 'Σ' (by decide)]
      split_ifs
      · rw [bases_cons, hone 'ς' (by decide)]
        simp [hf.sigma.2]
      · rw [bases_cons, hone 'σ' (by decide)]
        simp [hf.sigma.1]
    · rw [if_neg hc, h.bases_lowerChar hf]

include h hf in
theorem Canonical.bases_lower (s : Text) : bases db f (lower db s) = bases db f s :=
  h.bases_lowerFrom hf [] s

/-! What keeps to itself between two spaces. -/

theorem composeFrom_inert {starter : Char} (hstarter : ∀ d, db.compose starter d = none)
    (pending s : Text) :
    composeFrom db starter pending s = starter :: (pending.reverse ++ compose db s) := by
  induction s generalizing pending with
  | nil => rw [composeFrom, compose, List.append_nil]
  | cons d s ih =>
    rw [composeFrom_cons, hstarter d, ite_self, compose]
    split_ifs with hd
    · rfl
    · rw [ih, List.reverse_cons, List.append_assoc]
      rfl

section
variable {c : Char} (hclass : db.combiningClass c = 0)
  (hcompose : ∀ d, db.compose c d = none ∧ db.compose d c = none)
include hclass hcompose

theorem composeFrom_append (starter : Char) (pending x y : Text) :
    composeFrom db starter pending (x ++ c :: y) =
      composeFrom db starter pending x ++ c :: compose db y := by
  induction x generalizing starter pending with
  | nil =>
    have hnone : composeFrom db starter pending (c :: y) =
        starter :: pending.reverse ++ composeFrom db c [] y := by
      rw [composeFrom_cons, (hcompose starter).2, ite_self]
      exact if_pos hclass
    rw [List.nil_append, hnone, composeFrom_inert fun d => (hcompose d).1, composeFrom]
    rfl
  | cons d x ih =>
    rw [List.cons_append, composeFrom_cons, composeFrom_cons]
    cases if unblocked db pending d then db.compose starter d else none with
    | some composite => exact ih composite pending
    | none =>
      dsimp only
      split_ifs with hd
      · rw [ih d [], List.append_assoc]
      · exact ih starter (d :: pending)

theorem compose_append (x y : Text) :
    compose db (x ++ c :: y) = compose db x ++ c :: compose db y := by
  induction x with
  | nil =>
    have hstart : compose db (c :: y) = composeFrom db c [] y := if_pos hclass
    rw [List.nil_append, hstart, composeFrom_inert fun d => (hcompose d).1]
    rfl
  | cons d x ih =>
    rw [List.cons_append, compose, compose]
    split_ifs with hd
    · exact composeFrom_append hclass hcompose d [] x y
    · rw [ih, List.cons_append]

end

theorem mem_composeFrom {starter d : Char} {pending s : Text}
    (hd : d ∈ composeFrom db starter pending s) :
    (d = starter ∨ d ∈ pending ∨ d ∈ s) ∨ ∃ a b, db.compose a b = some d := by
  induction s generalizing starter pending with
  | nil =>
    rw [composeFrom, List.mem_cons, List.mem_reverse] at hd
    exact Or.inl (hd.imp_right Or.inl)
  | cons c s ih =>
    rw [composeFrom_cons] at hd
    split at hd
    · next composite hcomposite =>
      obtain ⟨-, hcompose⟩ := (Option.ite_none_right_eq_some).mp hcomposite
      rcases ih hd with (rfl | hpending | hs) | hab
      · exact Or.inr ⟨starter, c, hcompose⟩
      · exact Or.inl (Or.inr (Or.inl hpending))
      · exact Or.inl (Or.inr (Or.inr (List.mem_cons_of_mem c hs)))
      · exact Or.inr hab
    · next =>
      split_ifs at hd
      · rcases List.mem_append.mp hd with hd | hd
        · rw [List.mem_cons, List.mem_reverse] at hd
          exact Or.inl (hd.imp_right Or.inl)
        · rcases ih hd with (rfl | hpending | hs) | hab
          · exact Or.inl (Or.inr (Or.inr List.mem_cons_self))
          · cases hpending
          · exact Or.inl (Or.inr (Or.inr (List.mem_cons_of_mem c hs)))
          · exact Or.inr hab
      · rcases ih hd with (rfl | hpending | hs) | hab
        · exact Or.inl (Or.inl rfl)
        · rcases List.mem_cons.mp hpending with rfl | hpending
          · exact Or.inl (Or.inr (Or.inr List.mem_cons_self))
          · exact Or.inl (Or.inr (Or.inl hpending))
        · exact Or.inl (Or.inr (Or.inr (List.mem_cons_of_mem c hs)))
        · exact Or.inr hab

/-- A composed text has characters of the text and composites. -/
theorem mem_compose {s : Text} {d : Char} (hd : d ∈ compose db s) :
    d ∈ s ∨ ∃ a b, db.compose a b = some d := by
  induction s with
  | nil => cases hd
  | cons c s ih =>
    rw [compose] at hd
    split_ifs at hd
    · rcases mem_composeFrom hd with (rfl | hpending | hs) | hab
      · exact Or.inl List.mem_cons_self
      · cases hpending
      · exact Or.inl (List.mem_cons_of_mem c hs)
      · exact Or.inr hab
    · rcases List.mem_cons.mp hd with rfl | hd
      · exact Or.inl List.mem_cons_self
      · exact (ih hd).imp_left (List.mem_cons_of_mem c)

theorem composeFrom_ne_nil (starter : Char) (pending s : Text) :
    composeFrom db starter pending s ≠ [] := by
  induction s generalizing starter pending with
  | nil => exact List.cons_ne_nil starter _
  | cons c s ih =>
    rw [composeFrom_cons]
    split
    · exact ih _ _
    · split_ifs
      · exact List.cons_ne_nil starter _
      · exact ih _ _

/-- The text is cut at spaces, nothing becomes a space or vanishes, and the base letters stay. -/
structure KeepsWords (db : Database) (f : Char → List β) (g : Text → Text) : Prop where
  cut : ∀ c, db.space c = true → ∃ c', db.space c' = true ∧ ∀ x y, g (x ++ c :: y) = g x ++ c' :: g y
  inside : ∀ s, (∀ c ∈ s, db.space c = false) → ∀ c ∈ g s, db.space c = false
  nil : g [] = []
  ne_nil : ∀ s, s ≠ [] → g s ≠ []
  bases : ∀ s, bases db f (g s) = bases db f s

include h in
theorem Canonical.space_lower {s : Text} (hs : ∀ c ∈ s, db.space c = false) :
    ∀ c ∈ lower db s, db.space c = false := by
  intro d hd
  rcases mem_lowerFrom hd with hsigma | ⟨c, hc, -, hd⟩
  · exact (h.sigma d (List.mem_cons_of_mem _ hsigma)).2.2
  · exact h.lower_space c (hs c hc) d hd

include h in
theorem Canonical.space_nfd {s : Text} (hs : ∀ c ∈ s, db.space c = false) :
    ∀ c ∈ nfd db s, db.space c = false := by
  intro d hd
  obtain ⟨c, hc, hd⟩ := mem_nfd.mp hd
  exact h.decompose_space c (hs c hc) d hd

include h in
/-- A composite has two characters in its decomposition, and a space has one. -/
theorem Canonical.space_composite {a b c : Char} (hc : db.compose a b = some c) :
    db.space c = false := by
  by_contra hspace
  obtain ⟨starter, hboundary, -, -⟩ := h.space_boundary c (by simpa using hspace)
  have hlength := congrArg List.length (h.composed a b c hc)
  have ha := List.length_pos_iff.mpr (h.decompose_ne_nil a)
  have hb := List.length_pos_iff.mpr (h.decompose_ne_nil b)
  rw [hboundary.decompose_starter, List.length_append, List.length_singleton] at hlength
  omega

include h hf in
theorem Canonical.keepsWords_lower : KeepsWords db f (lower db) where
  cut c hc := by
    obtain ⟨starter, hboundary, -, -⟩ := h.space_boundary c hc
    exact ⟨c, hc, hboundary.lower_append⟩
  inside s hs := h.space_lower hs
  nil := rfl
  ne_nil s hs := by
    cases s with
    | nil => exact absurd rfl hs
    | cons c s =>
      unfold lower
      rw [lowerFrom]
      split_ifs
      · exact List.cons_ne_nil _ _
      · exact List.cons_ne_nil _ _
      · exact List.append_ne_nil_of_left_ne_nil (h.lower_ne_nil c) _
  bases := h.bases_lower hf

include h in
theorem Canonical.nfd_ne_nil {s : Text} (hs : s ≠ []) : nfd db s ≠ [] := by
  obtain ⟨c, t, rfl⟩ := List.exists_cons_of_ne_nil hs
  obtain ⟨d, hd⟩ := List.exists_mem_of_ne_nil _ (h.decompose_ne_nil c)
  exact List.ne_nil_of_mem (mem_nfd.mpr ⟨c, List.mem_cons_self, hd⟩)

include h hf in
theorem Canonical.keepsWords_nfd : KeepsWords db f (nfd db) where
  cut c hc := by
    obtain ⟨starter, hboundary, hstarter, -⟩ := h.space_boundary c hc
    exact ⟨starter, hstarter, hboundary.nfd_append⟩
  inside s hs := h.space_nfd hs
  nil := rfl
  ne_nil s hs := h.nfd_ne_nil hs
  bases := h.bases_nfd hf

include h hf in
theorem Canonical.keepsWords_nfc : KeepsWords db f (nfc db) where
  cut c hc := by
    obtain ⟨starter, hboundary, hstarter, hcompose⟩ := h.space_boundary c hc
    refine ⟨starter, hstarter, fun x y => ?_⟩
    rw [nfc, hboundary.nfd_append, compose_append hboundary.class_starter hcompose]
    rfl
  inside s hs := by
    intro d hd
    rcases mem_compose hd with hd | ⟨a, b, hd⟩
    · exact h.space_nfd hs d hd
    · exact h.space_composite hd
  nil := rfl
  ne_nil s hs := by
    obtain ⟨c, t, hct⟩ := List.exists_cons_of_ne_nil (h.nfd_ne_nil hs)
    rw [nfc, hct, compose]
    split_ifs
    · exact composeFrom_ne_nil c [] t
    · exact List.cons_ne_nil c _
  bases := h.bases_nfc hf

/-! The words. -/

/-- The base letters of each word. -/
def baseWords (db : Database) (f : Char → List β) (s : Text) : List (List β) :=
  (Text.words db.space s).map (bases db f)

theorem baseWords_append {c : Char} (hc : db.space c = true) (x y : Text) :
    baseWords db f (x ++ c :: y) = baseWords db f x ++ baseWords db f y := by
  rw [baseWords, Text.words_append hc, List.map_append]
  rfl

theorem KeepsWords.baseWords_eq {g : Text → Text} (hg : KeepsWords db f g) (s : Text) :
    baseWords db f (g s) = baseWords db f s := by
  induction s using Text.word_induction db.space with
  | word w hw =>
    by_cases hnil : w = []
    · rw [hnil, hg.nil]
    · rw [baseWords, baseWords, Text.words_of_word (hg.ne_nil w hnil) (hg.inside w hw),
        Text.words_of_word hnil hw, List.map_singleton, List.map_singleton, hg.bases]
  | cut x c y hc ihx ihy =>
    obtain ⟨c', hc', hcut⟩ := hg.cut c hc
    rw [hcut, baseWords_append hc', baseWords_append hc, ihx, ihy]

/-- Where words may vanish, the words that are left have the base letters they had. -/
theorem baseWords_filter {g : Text → Text}
    (hcut : ∀ c, db.space c = true →
      ∃ c', db.space c' = true ∧ ∀ x y, g (x ++ c :: y) = g x ++ c' :: g y)
    (hinside : ∀ s, (∀ c ∈ s, db.space c = false) → ∀ c ∈ g s, db.space c = false)
    (hbases : ∀ s, bases db f (g s) = bases db f s) (hnil : ∀ s, bases db f s = [] ↔ g s = [])
    (s : Text) : baseWords db f (g s) = (baseWords db f s).filter fun w => !w.isEmpty := by
  induction s using Text.word_induction db.space with
  | word w hw =>
    by_cases hgone : g w = []
    · have hbase : bases db f w = [] := (hnil w).mpr hgone
      by_cases hw0 : w = []
      · rw [hgone, hw0]
        rfl
      · rw [hgone, baseWords, baseWords, Text.words_of_word hw0 hw, List.map_singleton, hbase]
        rfl
    · have hw0 : w ≠ [] := by
        rintro rfl
        exact hgone ((hnil []).mp rfl)
      have hbase : (bases db f w).isEmpty = false := by
        rw [List.isEmpty_eq_false_iff]
        exact fun h0 => hgone ((hnil w).mp h0)
      rw [baseWords, baseWords, Text.words_of_word hgone (hinside w hw), Text.words_of_word hw0 hw,
        List.map_singleton, List.map_singleton, hbases, List.filter_cons, hbase]
      rfl
  | cut x c y hc ihx ihy =>
    obtain ⟨c', hc', hg⟩ := hcut c hc
    rw [hg, baseWords_append hc', baseWords_append hc, ihx, ihy, List.filter_append]

end

end Unicode
