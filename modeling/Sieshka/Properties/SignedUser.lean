import Sieshka.Delimiters
import Sieshka.Services.MaxWebappAuth

/-!
# Whose signature it is

The signed text joins the decoded pairs with newlines. It determines the pairs, and with
them the user, where no pair has a newline with an equals sign behind it; otherwise data
can be cut into other pairs under the same signature.
-/

namespace Sieshka

namespace MaxWebappAuth

/-! ## The specification -/

/-- No pair, with its value decoded, could be read as more than one: behind a newline in it
there is no equals sign. -/
def Unsplittable (F : WebAppFunctions) (webAppData : Text) : Prop :=
  ∀ kv ∈ decoded F webAppData, ∀ before after,
    pairText kv = before ++ codePoint '\n' :: after → codePoint '=' ∉ after

/-! ## The pairs of a signed text -/

theorem not_mem_key {webAppData : Text} {kv : Text × Text} (h : kv ∈ pairs webAppData) :
    codePoint '=' ∉ kv.1 := by
  obtain ⟨p, -, hp⟩ := List.mem_filterMap.mp h
  split_ifs at hp
  obtain rfl := Option.some.inj hp
  intro hmem
  have hne := List.all_eq_true.mp List.all_takeWhile _ hmem
  simp at hne

theorem not_mem_key_decoded {F : WebAppFunctions} {webAppData : Text} {kv : Text × Text}
    (h : kv ∈ decoded F webAppData) : codePoint '=' ∉ kv.1 := by
  rw [decoded, List.mem_insertionSort] at h
  obtain ⟨raw, hraw, rfl⟩ := List.mem_map.mp h
  have hkey := not_mem_key (List.mem_filter.mp hraw).1
  exact hkey

/-- The pair that a text spells. -/
def pairOf (text : Text) : Text × Text :=
  (text.takeWhile (· ≠ codePoint '='), (text.dropWhile (· ≠ codePoint '=')).tail)

theorem pairOf_pairText {kv : Text × Text} (h : codePoint '=' ∉ kv.1) :
    pairOf (pairText kv) = kv := by
  have hkey : ∀ c ∈ kv.1, decide (c ≠ codePoint '=') = true := by
    intro c hc
    simpa using ne_of_mem_of_not_mem hc h
  ext1
  · rw [pairOf, pairText, List.takeWhile_append_of_pos hkey]
    simp
  · rw [pairOf, pairText, List.dropWhile_append_of_pos hkey]
    simp

theorem map_pairOf (F : WebAppFunctions) (webAppData : Text) :
    ((decoded F webAppData).map pairText).map pairOf = decoded F webAppData := by
  rw [List.map_map]
  apply (List.map_congr_left _).trans (List.map_id _)
  intro kv hkv
  exact pairOf_pairText (not_mem_key_decoded hkv)

theorem Unsplittable.solid {F : WebAppFunctions} {webAppData : Text}
    (h : Unsplittable F webAppData) :
    ∀ text ∈ (decoded F webAppData).map pairText,
      Solid (codePoint '\n') (codePoint '=') text := by
  intro text htext
  obtain ⟨kv, hkv, rfl⟩ := List.mem_map.mp htext
  constructor
  · simp [pairText]
  · exact h kv hkv

/-- Data that cannot be split otherwise is determined by its signed text. -/
theorem decoded_of_launchParams {F : WebAppFunctions} {webAppData webAppData' : Text}
    (h : Unsplittable F webAppData) (h' : Unsplittable F webAppData')
    (heq : launchParams F webAppData = launchParams F webAppData') :
    decoded F webAppData = decoded F webAppData' := by
  have htexts := intercalate_inj (by decide) h.solid h'.solid heq
  calc
    decoded F webAppData = ((decoded F webAppData).map pairText).map pairOf :=
      (map_pairOf F webAppData).symm
    _ = ((decoded F webAppData').map pairText).map pairOf := by rw [htexts]
    _ = decoded F webAppData' := map_pairOf F webAppData'

theorem user_of_checkDated {F : WebAppFunctions} {values : List (Text × Text)} {authDate id : Int}
    (h : checkDated F values authDate = .ok (some id)) :
    ∃ userRaw, dictGet values (Text.ofString "user") = some userRaw ∧
      userId F userRaw = .ok id := by
  unfold checkDated at h
  cases hage : checkAge F authDate with
  | error e => simp [hage, bind, Except.bind] at h
  | ok expired =>
      cases expired with
      | true => simp [hage, bind, Except.bind, pure, Except.pure] at h
      | false =>
          cases huser : dictGet values (Text.ofString "user") with
          | none => simp [hage, bind, Except.bind, pure, Except.pure, huser] at h
          | some userRaw =>
              simp only [hage, huser, bind, Except.bind, Bool.false_eq_true, if_false] at h
              split_ifs at h
              · cases h
              · unfold checkUser at h
                cases hid : userId F userRaw with
                | ok id' =>
                    rw [hid] at h
                    cases h
                    exact ⟨userRaw, rfl, hid⟩
                | error e =>
                    rw [hid] at h
                    dsimp only at h
                    split_ifs at h
                    cases h

/-- The user of accepted data is the one of its decoded pairs. -/
theorem user_of_accepted {F : WebAppFunctions} {webAppData botToken : Text} {id : Int}
    (h : validateInitData F webAppData botToken = .ok (some id)) :
    ∃ userRaw, dictGet (decoded F webAppData) (Text.ofString "user") = some userRaw ∧
      userId F userRaw = .ok id := by
  have hvalues : checkValues F (decoded F webAppData) = .ok (some id) := by
    unfold validateInitData at h
    split_ifs at h
    · cases h
    · cases h
    · split at h
      · cases htoken : encode botToken with
        | error e => simp [htoken, bind, Except.bind] at h
        | ok token =>
            cases hparams : encode (launchParams F webAppData) with
            | error e => simp [htoken, hparams, bind, Except.bind] at h
            | ok signed =>
                simp only [htoken, hparams, bind, Except.bind] at h
                split at h
                · cases h
                · split_ifs at h
                  · exact h
                  · cases h
      · cases h
  unfold checkValues at hvalues
  split at hvalues
  · cases hvalues
  · split at hvalues
    · cases hvalues
    · exact user_of_checkDated hvalues

/-! ## The result -/

/-- Two accepted strings with one signed text, neither of which can be split otherwise, have
one user. -/
theorem same_user_of_same_text (F : WebAppFunctions) (botToken : Text)
    {webAppData webAppData' : Text} {id id' : Int}
    (h : validateInitData F webAppData botToken = .ok (some id))
    (h' : validateInitData F webAppData' botToken = .ok (some id'))
    (htext : launchParams F webAppData = launchParams F webAppData')
    (hsplit : Unsplittable F webAppData) (hsplit' : Unsplittable F webAppData') : id = id' := by
  obtain ⟨userRaw, huser, hid⟩ := user_of_accepted h
  obtain ⟨userRaw', huser', hid'⟩ := user_of_accepted h'
  rw [decoded_of_launchParams hsplit hsplit' htext] at huser
  obtain rfl := Option.some.inj (huser.symm.trans huser')
  exact Except.ok.inj (hid.symm.trans hid')

/-! ## Samples -/

/-- `unquote` of a text whose escapes are ASCII. -/
def asciiUnquote : Text → Text
  | c :: a :: b :: rest =>
      if c = codePoint '%' then
        match digitValue (Char.ofNat a.val), digitValue (Char.ofNat b.val) with
        | some high, some low => Fin.ofNat _ (16 * high + low) :: asciiUnquote rest
        | _, _ => c :: asciiUnquote (a :: b :: rest)
      else c :: asciiUnquote (a :: b :: rest)
  | rest => rest

/-- `json.loads` of an object with a number as its `id` and nothing else. -/
def loadsId (t : Text) : Except PyError Json :=
  match encode t with
  | .error e => .error e
  | .ok s =>
      let opening := "\x7b\"id\":".toList
      let number := (s.toList.drop opening.length).dropLast
      if opening <+: s.toList ∧ s.toList.getLast? = some '\x7d' then
        match readInt 10 number with
        | some n => .ok (.obj [("id", .int n)])
        | none => .error (.valueError "Expecting value")
      else .error (.valueError "Expecting value")

/-- The check a hundred seconds after the date in the samples, with the digest of their
signed text under the token `token`. -/
def sampleFunctions (digest : BitVec 256) : WebAppFunctions where
  unquote := asciiUnquote
  digest _ _ := digest
  loads := loadsId
  expired authDate := 86400 < 1700000100 - authDate

theorem unsplittable_of_no_newline {F : WebAppFunctions} {webAppData : Text}
    (h : ∀ kv ∈ decoded F webAppData, codePoint '\n' ∉ pairText kv) :
    Unsplittable F webAppData := by
  intro kv hkv before after heq
  apply absurd _ (h kv hkv)
  rw [heq]
  simp

/-- The data of user 1. -/
def plainData : Text :=
  Text.ofString ("auth_date=1700000000&user=\x7b\"id\":1\x7d&hash=" ++
    "ef2e6a8f4d68f77e7583bab37029d8a79023b127dc5c59fdd15b46d331fafa80")

/-- The same, encoded otherwise and in another order. -/
def recodedData : Text :=
  Text.ofString ("hash=ef2e6a8f4d68f77e7583bab37029d8a79023b127dc5c59fdd15b46d331fafa80" ++
    "&user=%7B\"id\":1%7d&auth_date=17%300000000")

/-- The check with the digest of the text that the two have. -/
def plainFunctions : WebAppFunctions :=
  sampleFunctions 0xef2e6a8f4d68f77e7583bab37029d8a79023b127dc5c59fdd15b46d331fafa80

theorem plain_accepted :
    validateInitData plainFunctions plainData (Text.ofString "token") = .ok (some 1) := by
  decide +kernel

theorem recoded_accepted :
    validateInitData plainFunctions recodedData (Text.ofString "token") = .ok (some 1) := by
  decide +kernel

/-- Encoded otherwise, the data is that of the same user. -/
theorem same_user_recoded :
    ∃ id id', validateInitData plainFunctions plainData (Text.ofString "token") = .ok (some id) ∧
      validateInitData plainFunctions recodedData (Text.ofString "token") = .ok (some id') ∧
      id = id' := by
  refine ⟨1, 1, plain_accepted, recoded_accepted, ?_⟩
  have htext : launchParams plainFunctions plainData =
      launchParams plainFunctions recodedData := by
    decide +kernel
  have hplain : ∀ kv ∈ decoded plainFunctions plainData, codePoint '\n' ∉ pairText kv := by
    decide +kernel
  have hrecoded : ∀ kv ∈ decoded plainFunctions recodedData,
      codePoint '\n' ∉ pairText kv := by
    decide +kernel
  exact same_user_of_same_text plainFunctions (Text.ofString "token") plain_accepted
    recoded_accepted htext (unsplittable_of_no_newline hplain)
    (unsplittable_of_no_newline hrecoded)

/-- The data of user 1, with another value that spells the data of user 2. -/
def smugglingData : Text :=
  Text.ofString ("auth_date=1700000000&user=\x7b\"id\":1\x7d&z=q%0Auser=\x7b\"id\":2\x7d" ++
    "&hash=bd6e61d9ad881a543fc1f439986175d6777df4bbc63dafccbc85bc5d3dbe65d7")

/-- The same text, cut so that user 2 comes last. -/
def resplitData : Text :=
  Text.ofString ("auth_date=1700000000&user=\x7b\"id\":1\x7d%0Az=q&user=\x7b\"id\":2\x7d" ++
    "&hash=bd6e61d9ad881a543fc1f439986175d6777df4bbc63dafccbc85bc5d3dbe65d7")

/-- The check with the digest of the text that the two have. -/
def smugglingFunctions : WebAppFunctions :=
  sampleFunctions 0xbd6e61d9ad881a543fc1f439986175d6777df4bbc63dafccbc85bc5d3dbe65d7

/-- Cut into other pairs, the signed text of user 1 is that of user 2. -/
theorem resplit_changes_user :
    ¬ ∀ F botToken webAppData webAppData' id id',
      validateInitData F webAppData botToken = .ok (some id) →
      validateInitData F webAppData' botToken = .ok (some id') →
      launchParams F webAppData = launchParams F webAppData' → id = id' := by
  intro hall
  have h := hall smugglingFunctions (Text.ofString "token") smugglingData resplitData 1 2
    (by decide +kernel) (by decide +kernel) (by decide +kernel)
  cases h

end MaxWebappAuth

end Sieshka
