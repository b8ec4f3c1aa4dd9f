import Sieshka.Properties.InitData
import Sieshka.Properties.ValueTexts

/-!
# The signature of an event

The texts that the two sides hash are the same where every value is written alike. No other
values make up for one that is not: what one text has more than the other, once a whole
number has brought it, is points, zeros and minus signs in a proportion that no value
changes.
-/

namespace Sieshka

open MaxWebappAuth

namespace ZaloEvents

/-! ## The specification -/

namespace Value

/-- A value that both sides write alike. -/
def alike (printable : CodePoint → Bool) : Value → Bool
  | str _ => true
  | obj fields => (obj fields).plain
  | value => value.plainRepr printable

/-- A value that can be encoded. -/
def encodable : Value → Bool
  | str s => !s.any surrogate
  | _ => true

end Value

/-- The server accepts the event as the sender has signed it, under every key. -/
def Accepted (printable : CodePoint → Bool) (payload : Payload) : Prop :=
  ∀ apiKey, hashedText printable payload apiKey = .ok (sentText payload apiKey) ∧
    ∀ sha256, verifyZaloSignature printable sha256 payload (signature sha256 payload apiKey)
      apiKey = .ok true

/-! ## What is left over -/

/-- A character of the text of zero. -/
def ofZero (c : CodePoint) : Prop :=
  c = codePoint '.' ∨ c = codePoint '0' ∨ c = codePoint '-'

theorem ofZero_of_mem {t : List Char} (ht : t = ['0'] ∨ t = ['.', '0'] ∨ t = ['0', '.', '0'] ∨
    t = ['-', '0', '.', '0']) : ∀ c ∈ chars t, ofZero c := by
  intro c hc
  rcases ht with rfl | rfl | rfl | rfl <;>
  · simp only [chars, List.map_cons, List.map_nil, List.mem_cons, List.not_mem_nil,
      or_false] at hc
    unfold ofZero
    tauto

/-- What the server's text has more than the sender's, once it has more. -/
structure Debris (w : Text) : Prop where
  only : ∀ c ∈ w, ofZero c
  balanced : w.count (codePoint '.') = w.count (codePoint '0')
  some : 0 < w.count (codePoint '.')
  signs : w.count (codePoint '-') < w.count (codePoint '.')

namespace Debris

variable {w w' : Text}

theorem perm (h : Debris w) (hperm : w.Perm w') : Debris w' where
  only c hc := h.only c (hperm.mem_iff.mpr hc)
  balanced := by rw [← hperm.count_eq, ← hperm.count_eq, h.balanced]
  some := by rw [← hperm.count_eq]; exact h.some
  signs := by rw [← hperm.count_eq, ← hperm.count_eq]; exact h.signs

theorem ne_nil (h : Debris w) : w ≠ [] := by
  rintro rfl
  exact absurd h.some (by decide)

theorem point_zero : Debris (chars ['.', '0']) where
  only := ofZero_of_mem (Or.inr (Or.inl rfl))
  balanced := by decide
  some := by decide
  signs := by decide

/-- A character that is never left over. -/
def never (c : Char) : Bool := c != '.' && c != '0' && c != '-'

theorem not_mem {c : Char} (h : Debris w) (hc : never c = true) : codePoint c ∉ w := by
  intro hmem
  simp only [never, Bool.and_eq_true, bne_iff_ne, ne_eq] at hc
  rcases h.only _ hmem with heq | heq | heq
  · exact hc.1.1 (codePoint_injective heq)
  · exact hc.1.2 (codePoint_injective heq)
  · exact hc.2 (codePoint_injective heq)

variable {more more' : Text}

theorem head_ne {c : Char} (h : Debris w) (hc : never c = true) :
    w ++ more ≠ codePoint c :: more' := by
  intro heq
  cases w with
  | nil => exact h.ne_nil rfl
  | cons d w =>
      obtain rfl := (List.cons.inj heq).1
      exact h.not_mem hc List.mem_cons_self

/-- Nor is it behind a sign: a sign is never alone. -/
theorem signed_head_ne {c : Char} (h : Debris w) (hc : never c = true) (negative : Bool)
    (size : List Char) : w ++ more ≠ chars (signed negative (c :: size)) ++ more' := by
  intro heq
  cases negative with
  | false => exact h.head_ne hc heq
  | true =>
      match w, h, heq with
      | [], h, _ => exact h.ne_nil rfl
      | [d], h, heq =>
          obtain rfl := (List.cons.inj heq).1
          exact absurd h.some (by decide)
      | d :: e :: w, h, heq =>
          obtain rfl := (List.cons.inj (List.cons.inj heq).2).1
          exact h.not_mem hc (List.mem_cons_of_mem _ List.mem_cons_self)

/-- A string turns what is left over around. -/
theorem turn {s : Text} (h : Debris w) (heq : w ++ (s ++ more) = s ++ more') :
    ∃ w', Debris w' ∧ w' ++ more = more' := by
  rw [← List.append_assoc] at heq
  rcases List.append_eq_append_iff.mp heq with ⟨extra, hextra, hmore⟩ | ⟨extra, hextra, hmore⟩
  · exfalso
    have hlen := congrArg List.length hextra
    have hpos := List.length_pos_iff.mpr h.ne_nil
    simp only [List.length_append] at hlen
    omega
  · refine ⟨extra, h.perm ?_, hmore.symm⟩
    have hperm : (s ++ w).Perm (s ++ extra) := by
      rw [← hextra]
      exact List.perm_append_comm
    exact (List.perm_append_left_iff s).mp hperm

/-- A zero is the one number that can be read from what is left over. -/
theorem zero {p : List Char} (h : Debris w) (hp : p = ['0'] ∨ p = ['0', '.', '0'] ∨
    p = ['-', '0', '.', '0']) (heq : w ++ (chars p ++ more) = chars ['0'] ++ more') :
    ∃ w', Debris w' ∧ w' ++ more = more' := by
  cases w with
  | nil => exact absurd rfl h.ne_nil
  | cons d w =>
      obtain ⟨rfl, htail⟩ := List.cons.inj heq
      refine ⟨w ++ chars p, ?_, by rw [List.append_assoc]; exact htail⟩
      have honly : ∀ c ∈ chars p, ofZero c := by
        apply ofZero_of_mem
        tauto
      have hcounts : (chars p).count (codePoint '0') = (chars p).count (codePoint '.') + 1 ∧
          (chars p).count (codePoint '-') ≤ (chars p).count (codePoint '.') := by
        rcases hp with rfl | rfl | rfl <;> decide
      have hpoint : (codePoint '0' :: w).count (codePoint '.') = w.count (codePoint '.') :=
        List.count_cons_of_ne (by decide)
      have hzero : (codePoint '0' :: w).count (codePoint '0') = w.count (codePoint '0') + 1 :=
        List.count_cons_self
      have hminus : (codePoint '0' :: w).count (codePoint '-') = w.count (codePoint '-') :=
        List.count_cons_of_ne (by decide)
      have hbalanced := h.balanced
      have hsome := h.some
      have hsigns := h.signs
      constructor
      · intro c hc
        rcases List.mem_append.mp hc with hc | hc
        · exact h.only c (List.mem_cons_of_mem _ hc)
        · exact honly c hc
      · rw [List.count_append, List.count_append]
        omega
      · rw [List.count_append]
        omega
      · rw [List.count_append, List.count_append]
        omega

end Debris

/-! ## Numbers that begin with a zero -/

section Fraction

variable {d : Doubles.Decimal}

theorem never_of_digit {c : Char} (hc : c ∈ d.digits) (hne : c ≠ '0') :
    Debris.never c = true := by
  have hdigit := isDigit_of_mem_digits hc
  simp only [Debris.never, Bool.and_eq_true, bne_iff_ne, ne_eq]
  refine ⟨⟨?_, hne⟩, ?_⟩
  · rintro rfl
    cases hdigit
  · rintro rfl
    cases hdigit

/-- A number of at least one, or one with an exponent, begins with a digit. -/
theorem jsDecimal_head (h : 0 < d.point ∨ d.point ≤ -6) :
    ∃ c rest, jsDecimal d = c :: rest ∧ Debris.never c = true := by
  obtain ⟨c, rest, hdigits, hc⟩ := head_digits d
  have hnever : Debris.never c = true := by
    apply never_of_digit (d := d) _ hc
    rw [hdigits]
    exact List.mem_cons_self
  have hpos := digits_pos d
  unfold jsDecimal
  split_ifs with hwhole hfixed
  · exact ⟨c, rest ++ _, by rw [hdigits]; rfl, hnever⟩
  · obtain ⟨k, hk⟩ : ∃ k, d.point.toNat = k + 1 := ⟨(d.point - 1).toNat, by omega⟩
    refine ⟨c, rest.take k ++ '.' :: rest.drop k, ?_, hnever⟩
    rw [fixed, if_neg (by omega), hdigits, hk]
    rfl
  · obtain ⟨y, more, hexp, -⟩ := exponential_cons c rest (d.point - 1) 1
    exact ⟨c, y :: more, by rw [hdigits, hexp], hnever⟩

/-- Any other number is a fraction in digits. -/
theorem jsDecimal_fraction (hlow : -6 < d.point) (hhigh : d.point ≤ 0) :
    jsDecimal d = '0' :: '.' :: (zeros (-d.point) ++ d.digits) := by
  have hpos := digits_pos d
  rw [jsDecimal, if_neg (by omega), if_pos (by omega), fixed, if_pos hhigh]

theorem reprDecimal_apart (hlow : -6 < d.point) (hhigh : d.point ≤ 0) :
    Apart (reprDecimal d) (zeros (-d.point) ++ d.digits) := by
  obtain ⟨c, rest, hdigits, hc⟩ := head_digits d
  have hpos := digits_pos d
  by_cases hexp : d.point ≤ -4
  · obtain ⟨y, more, heq, -⟩ := exponential_cons c rest (d.point - 1) 2
    obtain ⟨k, hk⟩ : ∃ k, (-d.point).toNat = k + 1 := ⟨(-d.point - 1).toNat, by omega⟩
    rw [reprDecimal, if_pos (Or.inl hexp), hdigits, heq, zeros, hk, List.replicate_succ]
    exact Apart.of_head hc
  · rw [reprDecimal, if_neg (by omega), if_neg (by omega), fixed, if_pos hhigh, hdigits]
    have hdigit : c.isDigit = true := by
      apply isDigit_of_mem_digits (d := d)
      rw [hdigits]
      exact List.mem_cons_self
    have hpoint : '.' ≠ c := by
      rintro rfl
      cases hdigit
    -- the second character is the point, or a digit
    unfold zeros
    cases (-d.point).toNat with
    | zero => exact Apart.of_head hc.symm
    | succ k =>
        cases k with
        | zero => exact (Apart.of_head hpoint).cons '0'
        | succ k => exact (Apart.of_head (by decide)).cons '0'

theorem point_not_mem (n : ℤ) : codePoint '.' ∉ chars (zeros n ++ d.digits) := by
  intro hmem
  obtain ⟨c, hc, heq⟩ := List.mem_map.mp hmem
  obtain rfl := codePoint_injective heq
  rcases List.mem_append.mp hc with hzero | hdigit
  · exact absurd (List.eq_of_mem_replicate hzero) (by decide)
  · cases isDigit_of_mem_digits hdigit

/-- What is left over has the zero and the point that a fraction begins with, and no more. -/
theorem Debris.eq_of_prefix {w extra tail : Text} (h : Debris w)
    (htail : codePoint '.' ∉ tail)
    (heq : codePoint '0' :: codePoint '.' :: tail = w ++ extra) : extra = tail := by
  have hcount : (w ++ extra).count (codePoint '.') = 1 := by
    rw [← heq, List.count_cons_of_ne (by decide), List.count_cons_self,
      List.count_eq_zero_of_not_mem htail]
  rw [List.count_append] at hcount
  match w, h, heq, hcount with
  | [], h, _, _ => exact absurd rfl h.ne_nil
  | [a], h, heq, _ =>
      obtain rfl := (List.cons.inj heq).1
      exact absurd h.some (by decide)
  | a :: b :: w, h, heq, hcount =>
      obtain ⟨rfl, htail'⟩ := List.cons.inj heq
      obtain ⟨rfl, hrest⟩ := List.cons.inj htail'
      have hbalanced := h.balanced
      have hsigns := h.signs
      rw [List.count_cons_of_ne (by decide), List.count_cons_self] at hcount
      rw [List.count_cons_of_ne (by decide), List.count_cons_self, List.count_cons_self,
        List.count_cons_of_ne (by decide)] at hbalanced
      rw [List.count_cons_of_ne (by decide), List.count_cons_of_ne (by decide),
        List.count_cons_of_ne (by decide), List.count_cons_self] at hsigns
      cases w with
      | nil => exact hrest.symm
      | cons c w =>
          exfalso
          have hhere : 0 < (c :: w).count c := List.count_pos_iff.mpr List.mem_cons_self
          rcases h.only c (by simp) with rfl | rfl | rfl <;> omega

/-- With a sign there would be two points. -/
theorem Debris.not_signed {w extra tail : Text} (h : Debris w) (htail : codePoint '.' ∉ tail) :
    codePoint '-' :: codePoint '0' :: codePoint '.' :: tail ≠ w ++ extra := by
  intro heq
  have hcount : (w ++ extra).count (codePoint '.') = 1 := by
    rw [← heq, List.count_cons_of_ne (by decide), List.count_cons_of_ne (by decide),
      List.count_cons_self, List.count_eq_zero_of_not_mem htail]
  rw [List.count_append] at hcount
  cases w with
  | nil => exact h.ne_nil rfl
  | cons a w =>
      obtain rfl := (List.cons.inj heq).1
      have hsigns := h.signs
      rw [List.count_cons_self] at hsigns
      omega

/-- A fraction is not read from what is left over: neither all of it, since its last digit is
no zero, nor a part. -/
theorem Debris.fraction_ne {w more more' : Text} (h : Debris w) (hlow : -6 < d.point)
    (hhigh : d.point ≤ 0) (negative : Bool) :
    w ++ (chars (signed negative (reprDecimal d)) ++ more) ≠
      chars (signed negative (jsDecimal d)) ++ more' := by
  intro heq
  have happart := reprDecimal_apart hlow hhigh
  rw [jsDecimal_fraction hlow hhigh] at heq
  obtain ⟨before, last, hlast, hne⟩ := last_toDigits d.reduced
  rcases List.append_eq_append_iff.mp heq with ⟨extra, hextra, hmore⟩ | ⟨extra, hextra, hmore⟩
  · cases negative with
    | false =>
        obtain rfl := h.eq_of_prefix (point_not_mem _) hextra
        exact (happart.map codePoint_injective).append_ne _ _ hmore
    | true => exact h.not_signed (point_not_mem _) hextra
  · -- the last digit would be left over
    have hnever : never last = true := by
      apply never_of_digit (d := d) _ hne
      rw [Doubles.Decimal.digits, hlast]
      simp
    apply h.not_mem hnever
    rw [hextra]
    apply List.mem_append_left
    apply List.mem_map_of_mem
    have hmem : last ∈ d.digits := by
      rw [Doubles.Decimal.digits, hlast]
      simp
    cases negative <;> simp [signed, hmem]

end Fraction

/-! ## Values one after the other -/

/-- A number that does not begin with a zero. -/
theorem Debris.number_ne {w more more' : Text} (h : Debris w) {negative : Bool}
    {size : Doubles.Magnitude} (hsize : size ≠ .zero)
    (hfinite : ∀ d, size = .finite d → 0 < d.point ∨ d.point ≤ -6) :
    w ++ more ≠ chars (jsNumber negative size) ++ more' := by
  cases size with
  | zero => exact absurd rfl hsize
  | infinite => exact h.signed_head_ne (c := 'I') (by decide) negative _
  | finite d =>
      obtain ⟨c, rest, heq, hnever⟩ := jsDecimal_head (hfinite d rfl)
      rw [jsNumber, heq]
      exact h.signed_head_ne hnever negative rest

theorem intText_of_zero {n : ℤ} (h : intSize n = .zero) : intText n = ['0'] := by
  have hplain : plainInt n = true := by rw [plainInt, h]
  have hcompares := compares_int n
  rw [h] at hcompares
  exact hcompares.eq_iff.mpr hplain

theorem point_of_int {n : ℤ} {d : Doubles.Decimal} (h : intSize n = .finite d) : 0 < d.point := by
  have hpos := digits_pos d
  rcases Nat.eq_zero_or_pos n.natAbs with hzero | hn
  · rw [intSize_eq_zero hzero] at h
    cases h
  · rcases Doubles.magnitude_natCast hn with hsize | ⟨d', hsize, hexp, -⟩
    · rw [intSize, hsize] at h
      cases h
    · rw [intSize, hsize] at h
      obtain rfl := Doubles.Magnitude.finite.inj h
      rw [Doubles.Decimal.point]
      omega

variable {printable : CodePoint → Bool}

theorem Debris.float {w more more' : Text} (h : Debris w) (negative : Bool)
    (size : Doubles.Magnitude)
    (heq : w ++ (chars (reprFloat negative size) ++ more) =
      chars (jsNumber negative size) ++ more') :
    ∃ w', Debris w' ∧ w' ++ more = more' := by
  cases size with
  | zero =>
      apply h.zero _ heq
      cases negative with
      | false => exact Or.inr (Or.inl rfl)
      | true => exact Or.inr (Or.inr rfl)
  | infinite =>
      exact absurd heq (h.number_ne Doubles.Magnitude.noConfusion fun _ => nofun)
  | finite d =>
      by_cases hfraction : -6 < d.point ∧ d.point ≤ 0
      · exact absurd heq (h.fraction_ne hfraction.1 hfraction.2 negative)
      · apply absurd heq
        apply h.number_ne Doubles.Magnitude.noConfusion
        intro d' hd
        obtain rfl := Doubles.Magnitude.finite.inj hd
        omega

/-- A value is read from what is left over only where it leaves as much again. -/
theorem Debris.value {w more more' : Text} (h : Debris w) (v : Value)
    (heq : w ++ (v.hashed printable ++ more) = v.sent ++ more') :
    ∃ w', Debris w' ∧ w' ++ more = more' := by
  cases v with
  | null => exact absurd heq (h.head_ne (c := 'n') (by decide))
  | bool b =>
      cases b with
      | false => exact absurd heq (h.head_ne (c := 'f') (by decide))
      | true => exact absurd heq (h.head_ne (c := 't') (by decide))
  | int n =>
      by_cases hsize : intSize n = .zero
      · rw [Value.sent, hsize] at heq
        exact h.zero (Or.inl (intText_of_zero hsize)) heq
      · exact absurd heq (h.number_ne hsize fun d hd => Or.inl (point_of_int hd))
  | float negative coefficient exponent => exact h.float negative _ heq
  | str s => exact h.turn heq
  | arr items => exact absurd heq (h.head_ne (c := '[') (by decide))
  | obj fields => exact absurd heq (h.head_ne (c := '{') (by decide))

/-- What is left over is never used up. -/
theorem Debris.values_ne {w : Text} (h : Debris w) (values : List Value) :
    w ++ values.flatMap (Value.hashed printable) ≠ values.flatMap Value.sent := by
  induction values generalizing w with
  | nil =>
      intro heq
      exact h.ne_nil (List.append_eq_nil_iff.mp heq).1
  | cons v values ih =>
      intro heq
      obtain ⟨w', hw', hrest⟩ := h.value v heq
      exact ih hw' hrest

/-- A value that is not written alike differs from the start, or leaves `.0` over. -/
theorem compares_value (printable : CodePoint → Bool) (v : Value) :
    (v.alike printable = true ∧ v.hashed printable = v.sent) ∨
      (v.alike printable = false ∧
        ((∀ more more', v.hashed printable ++ more ≠ v.sent ++ more') ∨
          v.hashed printable = v.sent ++ chars ['.', '0'])) := by
  have hnumber {plain : Bool} {text text' : List Char} (h : Compares plain text text') :
      (plain = true ∧ chars text = chars text') ∨ (plain = false ∧
        ((∀ more more', chars text ++ more ≠ chars text' ++ more') ∨
          chars text = chars text' ++ chars ['.', '0'])) := by
    cases h with
    | alike hplain heq => exact Or.inl ⟨hplain, congrArg chars heq⟩
    | apart hplain hapart =>
        exact Or.inr ⟨hplain, Or.inl (hapart.map codePoint_injective).append_ne⟩
    | longer hplain heq =>
        refine Or.inr ⟨hplain, Or.inr ?_⟩
        rw [heq, chars, List.map_append]
        rfl
  cases v with
  | null =>
      have hapart : Apart (Value.null.hashed printable) Value.null.sent :=
        Value.apart_null printable
      exact Or.inr ⟨rfl, Or.inl hapart.append_ne⟩
  | bool b =>
      have hapart : Apart ((Value.bool b).hashed printable) (Value.bool b).sent :=
        Value.apart_bool printable b
      exact Or.inr ⟨rfl, Or.inl hapart.append_ne⟩
  | int n => exact hnumber (compares_int n)
  | float negative coefficient exponent => exact hnumber (compares_reprFloat negative _)
  | str s => exact Or.inl ⟨rfl, rfl⟩
  | arr items =>
      cases hplain : (Value.arr items).plainRepr printable with
      | true => exact Or.inl ⟨hplain, (Value.repr_eq_iff _).mpr hplain⟩
      | false =>
          refine Or.inr ⟨hplain, Or.inl fun more more' heq => ?_⟩
          rcases Value.arr_unique heq with rfl | ⟨item, rfl, hitem⟩
          · cases hplain
          · rw [Value.plainRepr, (Value.repr_eq_iff item).mp hitem] at hplain
            cases hplain
  | obj fields =>
      cases hplain : (Value.obj fields).plain with
      | true => exact Or.inl ⟨hplain, (Value.dumps_eq_iff _).mpr hplain⟩
      | false =>
          refine Or.inr ⟨hplain, Or.inl fun more more' heq => ?_⟩
          obtain ⟨hordered, hfields, -⟩ := Value.obj_unique heq
          have htrue : (Value.obj fields).plain = true := by
            rw [Value.plain, Bool.and_eq_true, decide_eq_true_eq, Value.plainFields_iff]
            refine ⟨hordered, fun field hfield => ?_⟩
            obtain ⟨hkey, hvalue⟩ := hfields field hfield
            exact ⟨(dumpsStr_eq_iff _).mp hkey, (Value.dumps_eq_iff _).mp hvalue⟩
          rw [htrue] at hplain
          cases hplain

theorem values_eq_iff (values : List Value) :
    values.flatMap (Value.hashed printable) = values.flatMap Value.sent ↔
      ∀ v ∈ values, v.alike printable = true := by
  induction values with
  | nil => simp
  | cons v values ih =>
      rw [List.flatMap_cons, List.flatMap_cons, List.forall_mem_cons]
      rcases compares_value printable v with ⟨halike, heq⟩ | ⟨hnot, hne | hlonger⟩
      · rw [heq, List.append_right_inj, ih]
        simp [halike]
      · rw [hnot]
        exact iff_of_false (hne _ _) (fun h => Bool.false_ne_true h.1)
      · rw [hnot]
        apply iff_of_false _ (fun h => Bool.false_ne_true h.1)
        intro heq
        rw [hlonger, List.append_assoc] at heq
        exact Debris.point_zero.values_ne values (List.append_cancel_left heq)

/-! ## Encoding -/

theorem surrogate_codePoint (c : Char) : surrogate (codePoint c) = false := by
  have hlow : ¬ (0xd800 ≤ c.toNat ∧ c.toNat < 0xe000) := by
    rcases c.valid with h | h
    · exact fun hrange => absurd hrange.1 (not_le.mpr h)
    · exact fun hrange => absurd hrange.2 (not_lt.mpr h.1)
  simp only [surrogate, val_codePoint, Bool.and_eq_false_iff, decide_eq_false_iff_not]
  omega

theorem encodable_chars (t : List Char) : Encodable (chars t) := by
  intro c hc
  obtain ⟨d, -, rfl⟩ := List.mem_map.mp hc
  exact surrogate_codePoint d

theorem encodable_append {t t' : Text} :
    Encodable (t ++ t') ↔ Encodable t ∧ Encodable t' := by
  simp only [MaxWebappAuth.Encodable, List.mem_append, or_imp, forall_and]

theorem encodable_flatMap {α : Type} {f : α → Text} {xs : List α} :
    Encodable (xs.flatMap f) ↔ ∀ x ∈ xs, Encodable (f x) := by
  induction xs with
  | nil => simp [MaxWebappAuth.Encodable]
  | cons x xs ih => rw [List.flatMap_cons, encodable_append, ih, List.forall_mem_cons]

theorem encodable_intercalate {sep : Text} {texts : List Text} (hsep : Encodable sep)
    (h : ∀ t ∈ texts, Encodable t) : Encodable (sep.intercalate texts) := by
  induction texts with
  | nil => simp [MaxWebappAuth.Encodable]
  | cons text others ih =>
      obtain ⟨htext, hothers⟩ := List.forall_mem_cons.mp h
      cases others with
      | nil => simpa using htext
      | cons other others =>
          rw [List.intercalate_cons_cons]
          exact encodable_append.mpr ⟨encodable_append.mpr ⟨htext, hsep⟩, ih hothers⟩

theorem encodable_bracketed {opening closing : Char} {separator : List Char} {texts : List Text}
    (h : ∀ t ∈ texts, Encodable t) : Encodable (bracketed opening closing separator texts) := by
  have hbody := encodable_intercalate (encodable_chars separator) h
  have hends : Encodable (chars [opening]) ∧ Encodable (chars [closing]) :=
    ⟨encodable_chars _, encodable_chars _⟩
  exact encodable_append.mpr ⟨hends.1, encodable_append.mpr ⟨hbody, hends.2⟩⟩

theorem encodable_stringifyStr (s : Text) : Encodable (stringifyStr s) := by
  have hchar (c : CodePoint) : Encodable (stringifyChar c) := by
    unfold stringifyChar
    split
    · exact encodable_chars _
    · split_ifs with hescaped
      · exact encodable_chars _
      · intro d hd
        rw [List.mem_singleton.mp hd]
        exact Bool.eq_false_iff.mpr fun hsurrogate => hescaped (Or.inr hsurrogate)
  have hbody := encodable_flatMap.mpr fun c (_ : c ∈ s) => hchar c
  have hquote : Encodable (chars ['"']) := encodable_chars _
  exact encodable_append.mpr ⟨hquote, encodable_append.mpr ⟨hbody, hquote⟩⟩

/-- A value between brackets has no surrogate in its text. -/
theorem Value.encodable_stringify (v : Value) : Encodable (v.write stringifyStyle) := by
  induction v with
  | null => exact encodable_chars _
  | bool b => exact encodable_chars _
  | int n => exact encodable_chars _
  | float negative coefficient exponent => exact encodable_chars _
  | str s => exact encodable_stringifyStr s
  | arr items ih =>
      rw [write, writeItems_eq]
      exact encodable_bracketed (List.forall_mem_map.mpr ih)
  | obj fields ih =>
      rw [write_obj_stringify]
      apply encodable_bracketed
      intro text htext
      obtain ⟨entry, hentry, rfl⟩ := List.mem_map.mp htext
      obtain ⟨field, hfield, rfl⟩ := List.mem_map.mp (mem_jsOrder.mp hentry)
      exact encodable_append.mpr ⟨encodable_stringifyStr _,
        encodable_append.mpr ⟨encodable_chars _, ih field hfield⟩⟩

theorem Value.encodable_sent (v : Value) : Encodable v.sent ↔ v.encodable = true := by
  cases v with
  | null => exact iff_of_true (Value.encodable_stringify _) rfl
  | bool b => exact iff_of_true (Value.encodable_stringify _) rfl
  | int n => exact iff_of_true (encodable_chars _) rfl
  | float negative coefficient exponent => exact iff_of_true (encodable_chars _) rfl
  | str s => simp [sent, MaxWebappAuth.Encodable, encodable]
  | arr items => exact iff_of_true (Value.encodable_stringify _) rfl
  | obj fields => exact iff_of_true (Value.encodable_stringify _) rfl

theorem wellFormed_of_encodable {t : Text} (h : Encodable t) :
    wellFormed t = t.map fun c => Char.ofNat c.val := by
  fun_induction wellFormed t with
  | case1 => rfl
  | case2 c =>
      rw [if_neg (by simp [h c List.mem_cons_self])]
      rfl
  | case3 hi lo rest hpair ih =>
      exfalso
      have hlone := h hi List.mem_cons_self
      simp only [surrogate, Bool.and_eq_false_iff, decide_eq_false_iff_not] at hlone
      omega
  | case4 hi lo rest hpair ih =>
      rw [if_neg (by simp [h hi List.mem_cons_self]),
        ih fun c hc => h c (List.mem_cons_of_mem _ hc)]
      rfl

theorem encode_of_encodable {t : Text} (h : Encodable t) :
    encode t = .ok (String.ofList (t.map fun c => Char.ofNat c.val)) := by
  rw [encode, if_neg]
  simpa [MaxWebappAuth.Encodable] using h

theorem toNat_ofNat {c : CodePoint} (h : surrogate c = false) :
    (Char.ofNat c.val).toNat = c.val := by
  have hvalid : c.val.isValidChar := by
    have hlt := c.isLt
    simp only [surrogate, Bool.and_eq_false_iff, decide_eq_false_iff_not] at h
    unfold Nat.isValidChar
    omega
  rw [Char.ofNat, dif_pos hvalid]
  rfl

theorem map_ofNat_inj {t t' : Text} (h : Encodable t) (h' : Encodable t')
    (heq : t.map (fun c => Char.ofNat c.val) = t'.map fun c => Char.ofNat c.val) : t = t' := by
  have hvals {s : Text} (hs : Encodable s) :
      (s.map fun c => Char.ofNat c.val).map Char.toNat = s.map Fin.val := by
    rw [List.map_map]
    exact List.map_inj_left.mpr fun c hc => toNat_ofNat (hs c hc)
  have hsame := congrArg (List.map Char.toNat) heq
  rw [hvals h, hvals h'] at hsame
  exact Fin.val_injective.list_map hsame

/-! ## Acceptance -/

variable {payload : Payload}

theorem mem_sortedFields {field : Text × Value} :
    field ∈ sortedFields payload ↔ field ∈ payload :=
  List.mem_insertionSort _

theorem encodable_ofString (s : String) : Encodable (Text.ofString s) := encodable_chars _

theorem compareDigest_self (digest : BitVec 256) :
    compareDigest (hexdigest digest) (hexdigest digest) = .ok true := by
  simp [compareDigest, hexdigest_isAscii]

theorem verify_of_hashedText {sha256 : String → BitVec 256} {signature : Text}
    {apiKey text : String} (h : hashedText printable payload apiKey = .ok text) :
    verifyZaloSignature printable sha256 payload signature apiKey =
      compareDigest (hexdigest (sha256 text)) signature := by
  simp only [verifyZaloSignature, h, bind, Except.bind]

theorem flatMap_sortedFields (f : Value → Text) :
    (sortedFields payload).flatMap (fun field => f field.2) =
      ((sortedFields payload).map Prod.snd).flatMap f := by
  rw [List.flatMap_map]

theorem texts_eq_iff :
    content printable payload = ((sortedFields payload).flatMap fun field => field.2.sent) ↔
      ∀ field ∈ payload, field.2.alike printable = true := by
  rw [content, flatMap_sortedFields, flatMap_sortedFields, values_eq_iff, List.forall_mem_map]
  simp only [mem_sortedFields]

/-- The event is accepted where the texts are the same and can be encoded. -/
theorem accepted_of_alike
    (h : ∀ field ∈ payload, field.2.alike printable = true ∧ field.2.encodable = true) :
    Accepted printable payload := by
  intro apiKey
  have htexts := texts_eq_iff.mpr fun field hfield => (h field hfield).1
  have hencodable : Encodable
      ((sortedFields payload).flatMap (fun field => field.2.sent) ++ Text.ofString apiKey) := by
    refine encodable_append.mpr ⟨encodable_flatMap.mpr ?_, encodable_ofString apiKey⟩
    intro field hfield
    exact field.2.encodable_sent.mpr (h field (mem_sortedFields.mp hfield)).2
  have hhashed : hashedText printable payload apiKey = .ok (sentText payload apiKey) := by
    rw [hashedText, htexts, encode_of_encodable hencodable, sentText,
      wellFormed_of_encodable hencodable]
  refine ⟨hhashed, fun sha256 => ?_⟩
  rw [verify_of_hashedText hhashed, signature]
  exact compareDigest_self _

/-- The server hashes no text with a surrogate in it. -/
theorem encodable_of_hashedText {apiKey text : String}
    (h : hashedText printable payload apiKey = .ok text) :
    ∀ field ∈ payload, field.2.encodable = true := by
  intro field hfield
  have hcontent := (encodable_append.mp (encode_ok_iff.mp ⟨text, h⟩)).1
  have hvalue := encodable_flatMap.mp hcontent field (mem_sortedFields.mpr hfield)
  cases hv : field.2 with
  | str s =>
      rw [hv] at hvalue
      exact (Value.encodable_sent (.str s)).mp hvalue
  | null => rfl
  | bool b => rfl
  | int n => rfl
  | float negative coefficient exponent => rfl
  | arr items => rfl
  | obj fields => rfl

theorem alike_of_hashedText {apiKey : String}
    (h : hashedText printable payload apiKey = .ok (sentText payload apiKey)) :
    ∀ field ∈ payload, field.2.alike printable = true := by
  have hvalues := encodable_of_hashedText h
  apply texts_eq_iff.mp
  have hhashed := encode_ok_iff.mp ⟨_, h⟩
  have hsent : Encodable
      ((sortedFields payload).flatMap (fun field => field.2.sent) ++ Text.ofString apiKey) := by
    refine encodable_append.mpr ⟨encodable_flatMap.mpr ?_, encodable_ofString apiKey⟩
    intro field hfield
    exact field.2.encodable_sent.mpr (hvalues field (mem_sortedFields.mp hfield))
  rw [hashedText, encode_of_encodable hhashed, sentText, wellFormed_of_encodable hsent] at h
  have hchars := String.ofList_injective (Except.ok.inj h)
  exact List.append_cancel_right (map_ofNat_inj hhashed hsent hchars)

/-- The server accepts a correctly signed event if and only if both sides write each of its
values alike, and no string at the top has a surrogate in it. -/
theorem accepted_iff (printable : CodePoint → Bool) (payload : Payload) :
    Accepted printable payload ↔
      ∀ field ∈ payload, field.2.alike printable = true ∧ field.2.encodable = true := by
  constructor
  · intro h field hfield
    have hhashed := (h "").1
    exact ⟨alike_of_hashedText hhashed field hfield,
      encodable_of_hashedText hhashed field hfield⟩
  · exact accepted_of_alike

/-- The event as it is documented. -/
def documentedEvent (event appId userId : Text) (timestamp : ℤ) : Payload :=
  [(Text.ofString "event", .str event), (Text.ofString "appId", .str appId),
    (Text.ofString "userId", .str userId), (Text.ofString "timestamp", .int timestamp)]

theorem documentedEvent_accepted (printable : CodePoint → Bool) {event appId userId : Text}
    {timestamp : ℤ} (hevent : Encodable event) (happ : Encodable appId)
    (huser : Encodable userId) (htimestamp : timestamp.natAbs < 2 ^ 53) :
    Accepted printable (documentedEvent event appId userId timestamp) := by
  have hstr {s : Text} (hs : Encodable s) :
      (Value.str s).alike printable = true ∧ (Value.str s).encodable = true :=
    ⟨rfl, (Value.str s).encodable_sent.mp hs⟩
  apply accepted_of_alike
  simp only [documentedEvent, List.forall_mem_cons]
  refine ⟨hstr hevent, hstr happ, hstr huser, ⟨plainInt_of_lt htimestamp, rfl⟩, ?_⟩
  simp

/-- The documented event, with a flag. -/
def flaggedEvent : Payload :=
  documentedEvent (Text.ofString "user.revoke.consent") (Text.ofString "a1")
    (Text.ofString "u1") 1670553442564 ++ [(Text.ofString "test", .bool true)]

theorem flagged_event_refused : ¬ Accepted (fun _ => false) flaggedEvent := by
  intro h
  have hflag : (Text.ofString "test", Value.bool true) ∈ flaggedEvent := by
    simp [flaggedEvent]
  exact Bool.false_ne_true (alike_of_hashedText (h "").1 _ hflag)

end ZaloEvents

end Sieshka
