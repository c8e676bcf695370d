import Qiki.Text.Boundary
import Qiki.Text.Spelling

/-! `VietnamesePhoneValidator`: which phone numbers it accepts, and the form it gives them. -/
namespace Qiki.Chat

open Unicode Regex

/-- `VietnamesePhoneValidator.PATTERN`: `^(\+84[35789][0-9]{8}|0[35789][0-9]{8})$` -/
def phonePattern : Regex :=
  let subscriber := seq (oneOf false (['3', '5', '7', '8', '9'].map .char))
    (times (oneOf false [.range '0' '9']) 8)
  seq (altOf [seq (literal "+84") subscriber, seq (literal "0") subscriber]) finish

/-- `_validate_phone`: `VietnamesePhoneValidator.validate`, where an error is `None`. -/
def validatePhone (db : Database) (phone : Text) : Option Text :=
  let normalized := (Text.strip db.space phone).filter fun c => c ≠ ' ' && c ≠ '-'
  if (matchStart ⟨db, false⟩ phonePattern normalized).isSome then
    match normalized with
    | '0' :: rest => some ("+84" ++ rest)
    | _ => some normalized
  else none

/-- What follows the prefix of a phone number. -/
def IsSubscriber (s : Text) : Prop :=
  ∃ d ds, s = d :: ds ∧ d ∈ ['3', '5', '7', '8', '9'] ∧ ds.length = 8 ∧
    ∀ c ∈ ds, '0' ≤ c ∧ c ≤ '9'

theorem newline_not_mem_subscriber {x : Text} (hx : IsSubscriber x) : '\n' ∉ x := by
  obtain ⟨d, ds, rfl, hd, -, hds⟩ := hx
  intro hmem
  rcases List.mem_cons.mp hmem with rfl | hmem
  · revert hd
    decide
  · have hdigit := (hds _ hmem).1
    revert hdigit
    decide

theorem spells_phone {m : Mode} (hcase : m.ignoreCase = false) : Spells m
    (altOf [seq (literal "+84") (seq (oneOf false (['3', '5', '7', '8', '9'].map .char))
        (times (oneOf false [.range '0' '9']) 8)),
      seq (literal "0") (seq (oneOf false (['3', '5', '7', '8', '9'].map .char))
        (times (oneOf false [.range '0' '9']) 8))])
    fun s => ∃ x, IsSubscriber x ∧ (s = "+84" ++ x ∨ s = '0' :: x) := by
  have hsubscriber : Spells m (seq (oneOf false (['3', '5', '7', '8', '9'].map .char))
      (times (oneOf false [.range '0' '9']) 8)) IsSubscriber := by
    refine ((Spells.oneOf _).seq (Spells.times _ 7)).congr fun s => ⟨?_, ?_⟩
    · rintro ⟨_, ds, ⟨d, hd, rfl⟩, ⟨hlength, hds⟩, rfl⟩
      refine ⟨d, ds, rfl, ?_, hlength, fun c hc => ?_⟩
      · exact (any_char hcase _ d).mp hd
      · simpa [Mode.matchesClass, Mode.variants, hcase] using hds c hc
    · rintro ⟨d, ds, rfl, hd, hlength, hds⟩
      refine ⟨[d], ds, ⟨d, ?_, rfl⟩, ⟨hlength, fun c hc => ?_⟩, rfl⟩
      · exact (any_char hcase _ d).mpr hd
      · simpa [Mode.matchesClass, Mode.variants, hcase] using hds c hc
  refine (((Spells.literal hcase '+' ['8', '4']).seq hsubscriber).alt
    ((Spells.literal hcase '0' []).seq hsubscriber)).congr fun s => ⟨?_, ?_⟩
  · rintro (⟨_, x, rfl, hx, rfl⟩ | ⟨_, x, rfl, hx, rfl⟩)
    · exact ⟨x, hx, Or.inl rfl⟩
    · exact ⟨x, hx, Or.inr rfl⟩
  · rintro ⟨x, hx, rfl | rfl⟩
    · exact Or.inl ⟨_, x, rfl, hx, rfl⟩
    · exact Or.inr ⟨_, x, rfl, hx, rfl⟩

/-- The digits in which a phone number is checked. -/
def phoneDigits (db : Database) (phone : Text) : Text :=
  (Text.strip db.space phone).filter fun c => c ≠ ' ' && c ≠ '-'

section
variable {db : Database} {phone normalized : Text}

/-- A number is valid when its digits are a subscriber behind a prefix, a newline at the end
aside. -/
theorem validatePhone_eq_some : validatePhone db phone = some normalized ↔
    ∃ x tail, IsSubscriber x ∧ (tail = [] ∨ tail = ['\n']) ∧ normalized = "+84" ++ (x ++ tail) ∧
      (phoneDigits db phone = "+84" ++ (x ++ tail) ∨ phoneDigits db phone = '0' :: (x ++ tail)) := by
  have hmatch := matchStart_finish (spells_phone (m := ⟨db, false⟩) rfl) (phoneDigits db phone)
  change (matchStart ⟨db, false⟩ phonePattern (phoneDigits db phone)).isSome = true ↔ _ at hmatch
  simp only [validatePhone]
  rw [← phoneDigits]
  constructor
  · intro hsome
    split_ifs at hsome with hmatched
    have hshape : ∃ x tail, IsSubscriber x ∧ (tail = [] ∨ tail = ['\n']) ∧
        (phoneDigits db phone = "+84" ++ (x ++ tail) ∨ phoneDigits db phone = '0' :: (x ++ tail)) := by
      rcases hmatch.mp hmatched with ⟨x, hx, hs⟩ | ⟨t, ⟨x, hx, ht⟩, hs⟩
      · exact ⟨x, [], hx, Or.inl rfl, by rwa [List.append_nil]⟩
      · refine ⟨x, ['\n'], hx, Or.inr rfl, ?_⟩
        rcases ht with rfl | rfl
        · exact Or.inl hs
        · exact Or.inr hs
    obtain ⟨x, tail, hx, htail, hdigits⟩ := hshape
    refine ⟨x, tail, hx, htail, ?_, hdigits⟩
    rcases hdigits with hdigits | hdigits
    · rw [hdigits] at hsome
      exact (Option.some.inj hsome).symm
    · rw [hdigits] at hsome
      exact (Option.some.inj hsome).symm
  · rintro ⟨x, tail, hx, htail, rfl, hdigits⟩
    rw [if_pos]
    · rcases hdigits with hdigits | hdigits
      · rw [hdigits]
        rfl
      · rw [hdigits]
        rfl
    · rw [hmatch]
      rcases htail with rfl | rfl
      · rw [List.append_nil] at hdigits
        exact Or.inl ⟨x, hx, hdigits⟩
      · rcases hdigits with hdigits | hdigits
        · exact Or.inr ⟨_, ⟨x, hx, Or.inl rfl⟩, hdigits⟩
        · exact Or.inr ⟨_, ⟨x, hx, Or.inr rfl⟩, hdigits⟩

theorem validatePhone_strip (phone : Text) :
    validatePhone db (Text.strip db.space phone) = validatePhone db phone := by
  unfold validatePhone
  rw [Text.strip_strip]

/-- The characters of an accepted phone number, newlines included. -/
def phoneChar (c : Char) : Bool := ('0' ≤ c && c ≤ '9') || c ∈ ['+', ' ', '-', '\n']

theorem phoneChar_of_range {c : Char} (h : '0' ≤ c ∧ c ≤ '9') : phoneChar c = true := by
  rw [phoneChar, decide_eq_true h.1, decide_eq_true h.2]
  rfl

theorem phoneChar_subscriber {x : Text} (hx : IsSubscriber x) : ∀ c ∈ x, phoneChar c = true := by
  obtain ⟨d, ds, rfl, hd, -, hds⟩ := hx
  intro c hc
  rcases List.mem_cons.mp hc with rfl | hc
  · have hlisted : ['3', '5', '7', '8', '9'].all phoneChar = true := by decide
    exact List.all_eq_true.mp hlisted c hd
  · exact phoneChar_of_range (hds c hc)

theorem phoneChar_of_validatePhone (h : validatePhone db phone = some normalized) :
    ∀ c ∈ Text.strip db.space phone, phoneChar c = true := by
  obtain ⟨x, tail, hx, htail, -, hdigits⟩ := validatePhone_eq_some.mp h
  have hbody : ∀ c ∈ x ++ tail, phoneChar c = true := by
    intro c hc
    rcases List.mem_append.mp hc with hc | hc
    · exact phoneChar_subscriber hx c hc
    · rcases htail with rfl | rfl
      · cases hc
      · rw [List.mem_singleton.mp hc]
        decide
  have hkept : ∀ c ∈ phoneDigits db phone, phoneChar c = true := by
    intro c hc
    rcases hdigits with hdigits | hdigits
    · rw [hdigits] at hc
      rcases List.mem_append.mp hc with hc | hc
      · have hprefix : ("+84" : Text).all phoneChar = true := by decide
        exact List.all_eq_true.mp hprefix c hc
      · exact hbody c hc
    · rw [hdigits] at hc
      rcases List.mem_cons.mp hc with rfl | hc
      · decide
      · exact hbody c hc
  intro c hc
  by_cases hfiltered : (c ≠ ' ' && c ≠ '-') = true
  · exact hkept c (List.mem_filter.mpr ⟨hc, hfiltered⟩)
  · have hblank : c = ' ' ∨ c = '-' := by
      by_contra hne
      rw [not_or] at hne
      exact hfiltered (by simp [hne.1, hne.2])
    rcases hblank with rfl | rfl
    · decide
    · decide

end

end Qiki.Chat
