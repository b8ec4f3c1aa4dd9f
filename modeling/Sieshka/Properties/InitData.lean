import Sieshka.Services.MaxWebappAuth

/-!
# When the check of signed data raises

Most of what can go wrong is answered with `None`. What is not caught: a text that cannot
be encoded, a hash that is not ASCII, a date too large for a `float`, an infinite user id,
and whatever `json.loads` raises besides a `ValueError`.
-/

namespace Sieshka

namespace MaxWebappAuth

/-! ## The specification -/

variable (F : WebAppFunctions)

/-- The text can be encoded. -/
def Encodable (t : Text) : Prop := ∀ c ∈ t, surrogate c = false

/-- The user value is read without an exception that is not caught. -/
structure UserHarmless (userRaw : Text) : Prop where
  loads : ∀ e, F.loads userRaw = .error e → caught e = true
  id : ∀ fields key negative, F.loads userRaw = .ok (.obj fields) →
    (fields.find? fun f => f.1 = "id") ≠ some (key, .inf negative)

/-- The date is no larger than a `float`, and if it is not too old, the user value is
harmless. -/
structure DateHarmless (values : List (Text × Text)) (authDate : Int) : Prop where
  limit : authDate.natAbs < floatLimit
  user : F.expired authDate = false → ∀ userRaw,
    dictGet values (Text.ofString "user") = some userRaw → userRaw ≠ [] → UserHarmless F userRaw

/-- If there is a date, it is harmless. -/
def ValuesHarmless (values : List (Text × Text)) : Prop :=
  ∀ authDateRaw authDate, dictGet values (Text.ofString "auth_date") = some authDateRaw →
    toInt authDateRaw = .ok authDate → DateHarmless F values authDate

/-- The data has the signature that is made of the token. -/
def Signed (webAppData botToken hash : Text) : Prop :=
  ∃ token signed, encode botToken = .ok token ∧
    encode (launchParams F webAppData) = .ok signed ∧ hexdigest (F.digest token signed) = hash

/-- What is compared can be encoded and compared, and the values, if the signature is right,
are harmless. -/
structure Harmless (webAppData botToken hash : Text) : Prop where
  token : Encodable botToken
  params : Encodable (launchParams F webAppData)
  ascii : hash.isAscii = true
  values : Signed F webAppData botToken hash → ValuesHarmless F (decoded F webAppData)

variable {F}

/-! ## The steps -/

theorem encode_ok_iff {t : Text} : (∃ s, encode t = .ok s) ↔ Encodable t := by
  unfold encode Encodable
  split_ifs with h
  · simpa using h
  · simpa using h

theorem hexdigest_isAscii (digest : BitVec 256) : (hexdigest digest).isAscii = true := by
  have hchar : ∀ d < 16, (codePoint (hexChar d)).val < 0x80 := by decide
  rw [Text.isAscii, List.all_eq_true]
  intro c hc
  obtain ⟨x, hx, rfl⟩ := List.mem_map.mp hc
  obtain ⟨d, hd, rfl⟩ := mem_hexDigits hx
  simpa using hchar d hd

/-- `int` of a value raises what is caught, unless the value is infinite. -/
theorem toInt_error {value : Json} {e : PyError} (h : value.toInt = .error e) :
    caught e = true ∨ ∃ negative, value = .inf negative := by
  cases value with
  | inf negative => exact Or.inr ⟨negative, rfl⟩
  | str s =>
      apply Or.inl
      rw [Json.toInt] at h
      cases hread : readInt 10 s.toList with
      | none =>
          rw [hread] at h
          cases h
          rfl
      | some n =>
          rw [hread] at h
          dsimp only at h
          split_ifs at h
          cases h
          rfl
  | int n => cases h
  | bool b => cases h
  | float q => cases h
  | null => cases h; exact Or.inl rfl
  | nan => cases h; exact Or.inl rfl
  | arr elements => cases h; exact Or.inl rfl
  | obj fields => cases h; exact Or.inl rfl

theorem userId_error_iff {userRaw : Text} :
    (∀ e, userId F userRaw = .error e → caught e = true) ↔ UserHarmless F userRaw := by
  unfold userId
  constructor
  · intro h
    constructor
    · intro e he
      exact h e (by rw [he]; rfl)
    · intro fields key negative hfields hid
      have hover := h (.overflowError "cannot convert float infinity to integer") (by
        rw [hfields]
        simp [bind, Except.bind, hid, Json.toInt])
      cases hover
  · rintro ⟨hloads, hid⟩ e he
    cases hread : F.loads userRaw with
    | error e' =>
        rw [hread] at he
        cases he
        exact hloads e hread
    | ok value =>
        rw [hread] at he
        cases value with
        | obj fields =>
            simp only [bind, Except.bind] at he
            cases hfind : fields.find? fun f => f.1 = "id" with
            | none =>
                rw [hfind] at he
                cases he
                rfl
            | some f =>
                rw [hfind] at he
                apply (toInt_error he).resolve_right
                rintro ⟨negative, hinf⟩
                exact hid fields f.1 negative hread (by rw [hfind, ← hinf])
        | null => cases he; rfl
        | bool b => cases he; rfl
        | int n => cases he; rfl
        | float q => cases he; rfl
        | nan => cases he; rfl
        | inf negative => cases he; rfl
        | str s => cases he; rfl
        | arr elements => cases he; rfl

theorem checkUser_returns_iff {userRaw : Text} :
    (∃ r, checkUser F userRaw = .ok r) ↔ UserHarmless F userRaw := by
  rw [← userId_error_iff]
  unfold checkUser
  cases hid : userId F userRaw with
  | ok id => simp
  | error e => by_cases hc : caught e = true <;> simp [hc]

theorem checkDated_returns_iff {values : List (Text × Text)} {authDate : Int} :
    (∃ r, checkDated F values authDate = .ok r) ↔ DateHarmless F values authDate := by
  unfold checkDated checkAge
  constructor
  · intro h
    by_cases hlimit : floatLimit ≤ authDate.natAbs
    · rw [if_pos hlimit] at h
      obtain ⟨r, hr⟩ := h
      cases hr
    · rw [if_neg hlimit] at h
      constructor
      · exact Nat.lt_of_not_le hlimit
      · intro hexpired userRaw huser hblank
        rw [← checkUser_returns_iff]
        simpa [bind, Except.bind, hexpired, huser, hblank] using h
  · rintro ⟨hlimit, huser⟩
    rw [if_neg (Nat.not_le.mpr hlimit)]
    cases hexpired : F.expired authDate with
    | true => exact ⟨none, rfl⟩
    | false =>
        cases hvalue : dictGet values (Text.ofString "user") with
        | none => exact ⟨none, rfl⟩
        | some userRaw =>
            by_cases hblank : userRaw = []
            · exact ⟨none, by simp [bind, Except.bind, pure, Except.pure, hblank]⟩
            · obtain ⟨r, hr⟩ := checkUser_returns_iff.mpr (huser hexpired userRaw hvalue hblank)
              exact ⟨r, by simp [bind, Except.bind, hblank, hr]⟩

theorem checkValues_returns_iff {values : List (Text × Text)} :
    (∃ r, checkValues F values = .ok r) ↔ ValuesHarmless F values := by
  unfold checkValues ValuesHarmless
  cases hdate : dictGet values (Text.ofString "auth_date") with
  | none => simp
  | some authDateRaw =>
      dsimp only
      cases hint : toInt authDateRaw with
      | error e =>
          apply iff_of_true ⟨none, rfl⟩
          intro raw n hraw hn
          obtain rfl := Option.some.inj hraw
          cases hint.symm.trans hn
      | ok authDate =>
          rw [checkDated_returns_iff]
          constructor
          · intro h raw n hraw hn
            obtain rfl := Option.some.inj hraw
            obtain rfl := Except.ok.inj (hint.symm.trans hn)
            exact h
          · intro h
            exact h authDateRaw authDate rfl hint

theorem compareDigest_hexdigest (digest : BitVec 256) (hash : Text) :
    compareDigest (hexdigest digest) hash =
      if hash.isAscii then .ok (decide (hexdigest digest = hash))
      else .error (.typeError "comparing strings with non-ASCII characters is not supported") := by
  rw [compareDigest, hexdigest_isAscii, Bool.true_and]

theorem validate_of_hash {webAppData botToken hash : Text} (htoken : botToken ≠ [])
    (hdata : webAppData ≠ []) (hhash : hashes webAppData = [hash]) :
    validateInitData F webAppData botToken = (do
      let token ← encode botToken
      let signed ← encode (launchParams F webAppData)
      if ← compareDigest (hexdigest (F.digest token signed)) hash then
        checkValues F (decoded F webAppData)
      else return none) := by
  rw [validateInitData, if_neg htoken, if_neg hdata, hhash]

theorem harmless_of_returns {webAppData botToken hash : Text} (htoken : botToken ≠ [])
    (hdata : webAppData ≠ []) (hhash : hashes webAppData = [hash])
    (h : ∃ r, validateInitData F webAppData botToken = .ok r) :
    Harmless F webAppData botToken hash := by
  rw [validate_of_hash htoken hdata hhash] at h
  obtain ⟨r, hr⟩ := h
  cases htok : encode botToken with
  | error e => simp [htok, bind, Except.bind] at hr
  | ok token =>
      cases hparams : encode (launchParams F webAppData) with
      | error e => simp [htok, hparams, bind, Except.bind] at hr
      | ok signed =>
          simp only [htok, hparams, bind, Except.bind, compareDigest_hexdigest] at hr
          cases hascii : hash.isAscii with
          | false => simp [hascii] at hr
          | true =>
              constructor
              · exact encode_ok_iff.mp ⟨token, htok⟩
              · exact encode_ok_iff.mp ⟨signed, hparams⟩
              · exact hascii
              · rintro ⟨token', signed', htok', hparams', hsigned⟩
                obtain rfl := Except.ok.inj (htok.symm.trans htok')
                obtain rfl := Except.ok.inj (hparams.symm.trans hparams')
                rw [← checkValues_returns_iff]
                exact ⟨r, by simpa [hascii, hsigned] using hr⟩

theorem returns_of_harmless {webAppData botToken hash : Text} (htoken : botToken ≠ [])
    (hdata : webAppData ≠ []) (hhash : hashes webAppData = [hash])
    (h : Harmless F webAppData botToken hash) :
    ∃ r, validateInitData F webAppData botToken = .ok r := by
  obtain ⟨token, htok⟩ := encode_ok_iff.mpr h.token
  obtain ⟨signed, hparams⟩ := encode_ok_iff.mpr h.params
  rw [validate_of_hash htoken hdata hhash]
  simp only [htok, hparams, bind, Except.bind, compareDigest_hexdigest, h.ascii, if_true]
  by_cases hsigned : hexdigest (F.digest token signed) = hash
  · obtain ⟨r, hr⟩ := checkValues_returns_iff.mpr
      (h.values ⟨token, signed, htok, hparams, hsigned⟩)
    exact ⟨r, by simpa [hsigned] using hr⟩
  · exact ⟨none, by simp [hsigned, pure, Except.pure]⟩

/-! ## The result -/

/-- The check returns exactly when, if it gets as far as one hash, nothing in the data is of
the kind that raises. -/
theorem validate_returns_iff (F : WebAppFunctions) (webAppData botToken : Text) :
    (∃ r, validateInitData F webAppData botToken = .ok r) ↔
      ∀ hash, botToken ≠ [] → webAppData ≠ [] → hashes webAppData = [hash] →
        Harmless F webAppData botToken hash := by
  constructor
  · intro h hash htoken hdata hhash
    exact harmless_of_returns htoken hdata hhash h
  · intro h
    by_cases htoken : botToken = []
    · exact ⟨none, if_pos htoken⟩
    · by_cases hdata : webAppData = []
      · exact ⟨none, by rw [validateInitData, if_neg htoken, if_pos hdata]⟩
      · match hhash : hashes webAppData with
        | [hash] =>
            exact returns_of_harmless htoken hdata hhash (h hash htoken hdata hhash)
        | [] =>
            exact ⟨none, by rw [validateInitData, if_neg htoken, if_neg hdata, hhash]⟩
        | _ :: _ :: _ =>
            exact ⟨none, by rw [validateInitData, if_neg htoken, if_neg hdata, hhash]⟩

/-- A hash that is not ASCII makes the check raise. -/
theorem accented_hash_raises :
    ¬ ∀ F webAppData botToken, ∃ r, validateInitData F webAppData botToken = .ok r := by
  intro hall
  have F : WebAppFunctions := ⟨id, fun _ _ => 0, fun _ => .ok .null, fun _ => false⟩
  have hhash : hashes (Text.ofString "hash=\u00e9") = [Text.ofString "\u00e9"] := by
    decide +kernel
  have h := harmless_of_returns (by decide) (by decide) hhash
    (hall F (Text.ofString "hash=\u00e9") (Text.ofString "token"))
  have hascii := h.ascii
  revert hascii
  decide

end MaxWebappAuth

end Sieshka
