import Sieshka.Services.Checkout
import Sieshka.Web.Cart

/-!
# Phones on the two sides

The form and the service both count the digits of a phone. The service counts those of
every script and keeps them, so that a phone with other digits than those of ASCII can be
taken by one side only, or end up in the number of a customer.
-/

namespace Sieshka

/-! ## The specification -/

/-- The two sides take the same phone, and make the same number of it again. -/
structure SamePhone (phone : String) : Prop where
  accepted : (∃ number, normalizePhone phone = .ok number) ↔ validatePhone phone = true
  shape : ∀ number, normalizePhone phone = .ok number →
    ∃ digits : List Char, number = String.ofList ('+' :: '7' :: digits) ∧
      digits.length = 10 ∧ ∀ c ∈ digits, c.isDigit = true
  again : ∀ number, normalizePhone phone = .ok number → normalizePhone number = .ok number

/-- The digits of any script in a phone. -/
def decimalDigits (phone : String) : List Char :=
  phone.toList.filter fun c => (decimalValue c).isSome

/-- The digits of ASCII in a phone. -/
def asciiDigits (phone : String) : List Char := phone.toList.filter Char.isDigit

/-- Eleven digits of which the first is 7 or 8. -/
def Eleven (digits : List Char) : Prop :=
  digits.length = 11 ∧ (digits.head? = some '7' ∨ digits.head? = some '8')

/-! ## The digits -/

theorem decimal_of_isDigit {c : Char} (h : c.isDigit = true) : (decimalValue c).isSome := by
  rw [decimalValue, Option.isSome_map, List.find?_isSome]
  refine ⟨0x30, by decide, ?_⟩
  have hc : 48 ≤ c.val ∧ c.val ≤ 57 := by simpa [Char.isDigit] using h
  have hlow : 48 ≤ c.toNat := hc.1
  have hhigh : c.toNat ≤ 57 := hc.2
  simp only [Bool.and_eq_true, decide_eq_true_eq]
  omega

theorem asciiDigits_sublist (phone : String) :
    (asciiDigits phone).Sublist (decimalDigits phone) := by
  have hfilter : asciiDigits phone = (decimalDigits phone).filter Char.isDigit := by
    rw [asciiDigits, decimalDigits, List.filter_filter]
    apply List.filter_congr
    intro c _
    cases h : c.isDigit with
    | true => simp [decimal_of_isDigit h]
    | false => simp
  rw [hfilter]
  exact List.filter_sublist

theorem digits_eq_iff (phone : String) :
    asciiDigits phone = decimalDigits phone ↔
      ∀ c ∈ phone.toList, (decimalValue c).isSome → c.isDigit = true := by
  constructor
  · intro heq c hmem hdec
    have hdigit : c ∈ asciiDigits phone := by
      rw [heq]
      exact List.mem_filter.mpr ⟨hmem, hdec⟩
    exact (List.mem_filter.mp hdigit).2
  · intro hall
    apply List.filter_congr
    intro c hmem
    rw [Bool.eq_iff_iff]
    exact ⟨decimal_of_isDigit, hall c hmem⟩

theorem validatePhone_iff (phone : String) :
    validatePhone phone = true ↔ Eleven (asciiDigits phone) := by
  unfold validatePhone Eleven asciiDigits
  cases phone.toList.filter Char.isDigit with
  | nil => simp
  | cons c rest => simp [and_comm]

theorem normalizePhone_eq_ok_iff {phone number : String} :
    normalizePhone phone = .ok number ↔
      Eleven (decimalDigits phone) ∧
        number = String.ofList ('+' :: '7' :: (decimalDigits phone).tail) := by
  unfold normalizePhone Eleven decimalDigits
  cases phone.toList.filter fun c => (decimalValue c).isSome with
  | nil => simp
  | cons c rest =>
      by_cases h : (c = '7' ∨ c = '8') ∧ rest.length = 10
      · simp [h, eq_comm]
      · dsimp only
        rw [if_neg h]
        simp only [reduceCtorEq, List.length_cons, List.head?_cons, Option.some.injEq,
          List.tail_cons, false_iff, not_and]
        rintro ⟨hlen, hfirst⟩
        exact absurd ⟨hfirst, by omega⟩ h

/-- The number made of a phone is made of itself. -/
theorem normalizePhone_again {phone number : String} (h : normalizePhone phone = .ok number) :
    normalizePhone number = .ok number := by
  obtain ⟨⟨hlen, -⟩, rfl⟩ := normalizePhone_eq_ok_iff.mp h
  have htail : (decimalDigits phone).tail.filter (fun c => (decimalValue c).isSome) =
      (decimalDigits phone).tail := by
    rw [List.filter_eq_self]
    intro c hmem
    exact (List.mem_filter.mp (List.mem_of_mem_tail hmem)).2
  have hdigits : decimalDigits (String.ofList ('+' :: '7' :: (decimalDigits phone).tail)) =
      '7' :: (decimalDigits phone).tail := by
    have hplus : (decimalValue '+').isSome = false := by decide
    have hseven : (decimalValue '7').isSome = true := by decide
    rw [decimalDigits, String.toList_ofList]
    simp only [List.filter_cons, hplus, hseven, htail, if_true, Bool.false_eq_true, if_false]
  rw [normalizePhone_eq_ok_iff, hdigits]
  constructor
  · exact ⟨by simp [hlen], Or.inl rfl⟩
  · rfl

/-! ## The result -/

/-- The two sides agree on a phone exactly when its digits are those of ASCII, or neither
counts eleven of them that begin with 7 or 8. -/
theorem same_phone_iff (phone : String) :
    SamePhone phone ↔
      (∀ c ∈ phone.toList, (decimalValue c).isSome → c.isDigit = true) ∨
        ¬ Eleven (decimalDigits phone) ∧ ¬ Eleven (asciiDigits phone) := by
  have haccepted : (∃ number, normalizePhone phone = .ok number) ↔
      Eleven (decimalDigits phone) := by
    simp [normalizePhone_eq_ok_iff]
  rw [← digits_eq_iff]
  constructor
  · rintro ⟨hboth, -, -⟩
    rw [haccepted, validatePhone_iff] at hboth
    by_cases h : Eleven (decimalDigits phone)
    · have hlen := h.1.trans (hboth.mp h).1.symm
      exact Or.inl ((asciiDigits_sublist phone).eq_of_length hlen.symm)
    · exact Or.inr ⟨h, fun h' => h (hboth.mpr h')⟩
  · intro h
    have hboth : Eleven (decimalDigits phone) ↔ Eleven (asciiDigits phone) := by
      rcases h with heq | ⟨hdecimal, hascii⟩
      · rw [heq]
      · exact iff_of_false hdecimal hascii
    constructor
    · rw [haccepted, validatePhone_iff, hboth]
    · intro number hnumber
      obtain ⟨heleven, rfl⟩ := normalizePhone_eq_ok_iff.mp hnumber
      have heq : asciiDigits phone = decimalDigits phone :=
        h.resolve_right fun hno => hno.1 heleven
      refine ⟨(decimalDigits phone).tail, rfl, by simp [heleven.1], ?_⟩
      intro c hmem
      rw [← heq] at hmem
      exact (List.mem_filter.mp (List.mem_of_mem_tail hmem)).2
    · intro number hnumber
      exact normalizePhone_again hnumber

/-- A phone with Arabic digits is taken by the service only. -/
theorem arabic_phone_differs : ¬ ∀ phone, SamePhone phone := by
  intro hall
  have h := (hall "7\u0660\u0661\u0662\u0663\u0664\u0665\u0666\u0667\u0668\u0669").accepted.mp
    ⟨_, normalizePhone_eq_ok_iff.mpr ⟨⟨by decide, Or.inl (by decide)⟩, rfl⟩⟩
  revert h
  decide

end Sieshka
