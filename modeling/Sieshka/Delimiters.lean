import Mathlib.Data.List.Infix

/-!
# Delimited text

What is between an opening that has been read and its closing: up to the first place
where the closing stands, or, where a doubled quote stands for itself, up to the first
quote that is not one of two. Every text has such an end or none, and one end at most.

Texts that are joined by a separator can be taken apart again where no separator in a text
is followed by the mark that every text has.
-/

namespace Sieshka

variable {α : Type}

/-! ## Up to the first closing -/

/-- After `body`, the closing stands for the first time. -/
def EndsAt (close body : List α) : Prop := ¬ close <:+: (body ++ close).dropLast

theorem endsAt_nil {close : List α} (hclose : close ≠ []) : EndsAt close [] := by
  intro hin
  have hlen := hin.length_le
  have hpos := List.length_pos_iff.mpr hclose
  simp only [List.nil_append, List.length_dropLast] at hlen
  omega

theorem endsAt_cons_iff {close body : List α} (hclose : close ≠ []) {c : α} :
    EndsAt close (c :: body) ↔
      ¬ close <+: c :: (body ++ close) ∧ EndsAt close body := by
  have hne : body ++ close ≠ [] := by simp [hclose]
  have hdrop : (c :: body ++ close).dropLast = c :: (body ++ close).dropLast :=
    List.dropLast_cons_of_ne_nil hne
  have hopens : close <+: c :: (body ++ close) ↔ close <+: c :: (body ++ close).dropLast := by
    have hshort : c :: (body ++ close).dropLast <+: c :: (body ++ close) := by
      rw [List.cons_prefix_cons]
      exact ⟨rfl, List.dropLast_prefix _⟩
    constructor
    · intro h
      apply List.prefix_of_prefix_length_le h hshort
      have hpos := List.length_pos_iff.mpr hclose
      simp only [List.length_cons, List.length_dropLast, List.length_append]
      omega
    · intro h
      exact h.trans hshort
  rw [EndsAt, hdrop, List.infix_cons_iff, not_or, EndsAt, hopens]

/-- Where the body goes on, the closing does not stand yet. -/
theorem EndsAt.not_opens {close body rest : List α} {c : α} (hclose : close ≠ [])
    (h : EndsAt close (c :: body)) : ¬ close <+: c :: (body ++ (close ++ rest)) := by
  intro hopens
  apply ((endsAt_cons_iff hclose).mp h).1
  have hshort : c :: (body ++ close) <+: c :: (body ++ (close ++ rest)) := by
    rw [← List.append_assoc, List.cons_prefix_cons]
    exact ⟨rfl, List.prefix_append _ _⟩
  apply List.prefix_of_prefix_length_le hopens hshort
  simp only [List.length_cons, List.length_append]
  omega

theorem exists_endsAt {close : List α} (hclose : close ≠ []) (text : List α) :
    ¬ close <:+: text ∨
      ∃ body rest, text = body ++ (close ++ rest) ∧ EndsAt close body := by
  induction text with
  | nil =>
      apply Or.inl
      rw [List.infix_nil]
      exact hclose
  | cons c text ih =>
      by_cases hhere : close <+: c :: text
      · obtain ⟨rest, hrest⟩ := hhere
        exact Or.inr ⟨[], rest, by rw [List.nil_append, hrest], endsAt_nil hclose⟩
      · rcases ih with hno | ⟨body, rest, rfl, hends⟩
        · apply Or.inl
          rw [List.infix_cons_iff, not_or]
          exact ⟨hhere, hno⟩
        · refine Or.inr ⟨c :: body, rest, rfl, (endsAt_cons_iff hclose).mpr ⟨?_, hends⟩⟩
          intro hopens
          apply hhere
          have hlong : c :: (body ++ close) <+: c :: (body ++ (close ++ rest)) := by
            rw [← List.append_assoc, List.cons_prefix_cons]
            exact ⟨rfl, List.prefix_append _ _⟩
          exact hopens.trans hlong

theorem EndsAt.unique {close body body' rest rest' : List α} (hclose : close ≠ [])
    (h : EndsAt close body) (h' : EndsAt close body')
    (heq : body ++ (close ++ rest) = body' ++ (close ++ rest')) : body = body' := by
  induction body generalizing body' with
  | nil =>
      cases body' with
      | nil => rfl
      | cons c body' =>
          exact absurd ⟨rest, heq⟩ (h'.not_opens hclose)
  | cons c body ih =>
      cases body' with
      | nil => exact absurd ⟨rest', heq.symm⟩ (h.not_opens hclose)
      | cons c' body' =>
          obtain ⟨rfl, htail⟩ := List.cons.inj heq
          rw [ih ((endsAt_cons_iff hclose).mp h).2 ((endsAt_cons_iff hclose).mp h').2 htail]

/-! ## Doubled quotes -/

/-- A text in which every quote is one of two. -/
inductive Doubled (quote : α) : List α → Prop
  | nil : Doubled quote []
  | other {c body} (hc : c ≠ quote) (h : Doubled quote body) : Doubled quote (c :: body)
  | pair {body} (h : Doubled quote body) : Doubled quote (quote :: quote :: body)

theorem doubled_cons_iff {quote c : α} {text : List α} :
    Doubled quote (c :: text) ↔
      (c ≠ quote ∧ Doubled quote text) ∨
        c = quote ∧ ∃ rest, text = quote :: rest ∧ Doubled quote rest := by
  constructor
  · intro h
    cases h with
    | other hc h => exact Or.inl ⟨hc, h⟩
    | pair h => exact Or.inr ⟨rfl, _, rfl, h⟩
  · rintro (⟨hc, h⟩ | ⟨rfl, rest, rfl, h⟩)
    · exact .other hc h
    · exact .pair h

theorem exists_doubled (quote : α) (text : List α) :
    Doubled quote text ∨ ∃ body rest, text = body ++ quote :: rest ∧ Doubled quote body ∧
      rest.head? ≠ some quote := by
  classical
  induction hn : text.length using Nat.strong_induction_on generalizing text with
  | _ n ih =>
      cases text with
      | nil => exact Or.inl .nil
      | cons c text =>
          by_cases hc : c = quote
          · subst hc
            cases text with
            | nil => exact Or.inr ⟨[], [], rfl, .nil, by simp⟩
            | cons c' text =>
                by_cases hc' : c' = c
                · subst hc'
                  rcases ih text.length (by simp at hn; omega) text rfl with
                    h | ⟨body, rest, rfl, hbody, hrest⟩
                  · exact Or.inl (.pair h)
                  · exact Or.inr ⟨c' :: c' :: body, rest, rfl, .pair hbody, hrest⟩
                · exact Or.inr ⟨[], c' :: text, rfl, .nil, by simpa using hc'⟩
          · rcases ih text.length (by simp at hn; omega) text rfl with
              h | ⟨body, rest, rfl, hbody, hrest⟩
            · exact Or.inl (.other hc h)
            · exact Or.inr ⟨c :: body, rest, rfl, .other hc hbody, hrest⟩

/-- A text with its quotes doubled does not go on behind a single quote. -/
theorem Doubled.not_append {quote : α} {body rest : List α} (h : Doubled quote body)
    (hrest : rest.head? ≠ some quote) : ¬ Doubled quote (body ++ quote :: rest) := by
  induction h with
  | nil =>
      rw [List.nil_append, doubled_cons_iff]
      rintro (⟨hc, -⟩ | ⟨-, rest', rfl, -⟩)
      · exact hc rfl
      · exact hrest rfl
  | other hc _ ih =>
      rw [List.cons_append, doubled_cons_iff]
      rintro (⟨-, hd⟩ | ⟨hq, -⟩)
      · exact ih hd
      · exact hc hq
  | pair _ ih =>
      rw [List.cons_append, doubled_cons_iff]
      rintro (⟨hc, -⟩ | ⟨-, rest', htail, hd⟩)
      · exact hc rfl
      · obtain ⟨-, rfl⟩ := List.cons.inj htail
        exact ih hd

theorem Doubled.unique {quote : α} {body body' rest rest' : List α} (h : Doubled quote body)
    (h' : Doubled quote body') (hrest : rest.head? ≠ some quote)
    (hrest' : rest'.head? ≠ some quote)
    (heq : body ++ quote :: rest = body' ++ quote :: rest') : body = body' := by
  induction h generalizing body' with
  | nil =>
      cases h' with
      | nil => rfl
      | other hc _ => exact absurd (List.cons.inj heq).1.symm hc
      | pair _ =>
          have htail := (List.cons.inj heq).2
          rw [htail] at hrest
          simp at hrest
  | @other c body hc _ ih =>
      cases h' with
      | nil => exact absurd (List.cons.inj heq).1 hc
      | other _ h' =>
          obtain ⟨rfl, htail⟩ := List.cons.inj heq
          rw [ih h' htail]
      | pair _ => exact absurd (List.cons.inj heq).1 hc
  | pair _ ih =>
      cases h' with
      | nil =>
          have htail := (List.cons.inj heq).2
          rw [← htail] at hrest'
          simp at hrest'
      | other hc _ => exact absurd (List.cons.inj heq).1.symm hc
      | pair h' =>
          obtain ⟨-, htail⟩ := List.cons.inj heq
          obtain ⟨-, htail⟩ := List.cons.inj htail
          rw [ih h' htail]

/-! ## Joined texts -/

section Joined

/-- The text has the mark, but not behind a separator in it. -/
structure Solid (sep mark : α) (text : List α) : Prop where
  marked : mark ∈ text
  whole : ∀ before after, text = before ++ sep :: after → mark ∉ after

variable {sep mark : α}

theorem Solid.split {text : List α} (h : Solid sep mark text) :
    ∃ before after, text = before ++ mark :: after ∧ sep ∉ before := by
  obtain ⟨before, after, rfl⟩ := List.append_of_mem h.marked
  refine ⟨before, after, rfl, ?_⟩
  intro hsep
  obtain ⟨first, second, rfl⟩ := List.append_of_mem hsep
  apply h.whole first (second ++ mark :: after) (by simp)
  simp

/-- What is behind a text: nothing, or a separator and the next text. -/
def Follows (sep mark : α) (rest : List α) : Prop :=
  rest = [] ∨ ∃ text more, rest = sep :: (text ++ more) ∧ Solid sep mark text

theorem Follows.head_eq {rest more : List α} {c : α} (h : Follows sep mark rest)
    (heq : rest = c :: more) : c = sep := by
  rcases h with rfl | ⟨text, more', rfl, -⟩
  · cases heq
  · exact (List.cons.inj heq).1.symm

/-- A text does not go on over the separator behind it. -/
theorem Solid.not_longer {text extra rest : List α} (hmark : mark ≠ sep)
    (h : Solid sep mark (text ++ extra)) (hrest : Follows sep mark (extra ++ rest))
    (hafter : Follows sep mark rest) : extra = [] := by
  cases extra with
  | nil => rfl
  | cons c extra =>
      exfalso
      obtain rfl : c = sep := hrest.head_eq rfl
      rcases hrest with hnil | ⟨next, more, heq, hnext⟩
      · cases hnil
      · obtain ⟨before, after, rfl, hbefore⟩ := hnext.split
        apply h.whole text extra rfl
        have htail : extra ++ rest = before ++ (mark :: (after ++ more)) := by
          simpa using (List.cons.inj heq).2
        rcases List.append_eq_append_iff.mp htail with ⟨z, rfl, hz⟩ | ⟨z, rfl, hz⟩
        · exfalso
          cases z with
          | nil => exact hmark (hafter.head_eq (by simpa using hz))
          | cons d z =>
              obtain rfl : d = c := hafter.head_eq hz
              exact hbefore (by simp)
        · cases z with
          | nil => exact absurd (hafter.head_eq hz.symm) hmark
          | cons d z =>
              obtain ⟨rfl, -⟩ := List.cons.inj hz
              simp

theorem Solid.unique {text text' rest rest' : List α} (hmark : mark ≠ sep)
    (h : Solid sep mark text) (h' : Solid sep mark text') (hrest : Follows sep mark rest)
    (hrest' : Follows sep mark rest') (heq : text ++ rest = text' ++ rest') : text = text' := by
  rcases List.append_eq_append_iff.mp heq with ⟨extra, rfl, rfl⟩ | ⟨extra, rfl, rfl⟩
  · rw [h'.not_longer hmark hrest hrest', List.append_nil]
  · rw [h.not_longer hmark hrest' hrest, List.append_nil]

theorem intercalate_cons (sep : α) (text : List α) (others : List (List α)) :
    List.intercalate [sep] (text :: others) = text ++ (others.map (sep :: ·)).flatten := by
  induction others generalizing text with
  | nil => simp
  | cons other others ih => rw [List.intercalate_cons_cons, ih]; simp

theorem follows_flatten {texts : List (List α)} (h : ∀ text ∈ texts, Solid sep mark text) :
    Follows sep mark (texts.map (sep :: ·)).flatten := by
  cases texts with
  | nil => exact Or.inl rfl
  | cons text others =>
      exact Or.inr ⟨text, (others.map (sep :: ·)).flatten, by simp, h text List.mem_cons_self⟩

theorem flatten_inj {texts texts' : List (List α)} (hmark : mark ≠ sep)
    (h : ∀ text ∈ texts, Solid sep mark text) (h' : ∀ text ∈ texts', Solid sep mark text)
    (heq : (texts.map (sep :: ·)).flatten = (texts'.map (sep :: ·)).flatten) :
    texts = texts' := by
  induction texts generalizing texts' with
  | nil =>
      cases texts' with
      | nil => rfl
      | cons text' others' => simp at heq
  | cons text others ih =>
      cases texts' with
      | nil => simp at heq
      | cons text' others' =>
          have hothers := fun other hmem => h other (List.mem_cons_of_mem _ hmem)
          have hothers' := fun other hmem => h' other (List.mem_cons_of_mem _ hmem)
          have htail : text ++ (others.map (sep :: ·)).flatten =
              text' ++ (others'.map (sep :: ·)).flatten := by
            simpa using heq
          obtain rfl := (h text List.mem_cons_self).unique hmark (h' text' List.mem_cons_self)
            (follows_flatten hothers) (follows_flatten hothers') htail
          rw [ih hothers hothers' (List.append_cancel_left htail)]

/-- Solid texts are found again in the text they are joined to. -/
theorem intercalate_inj {texts texts' : List (List α)} (hmark : mark ≠ sep)
    (h : ∀ text ∈ texts, Solid sep mark text) (h' : ∀ text ∈ texts', Solid sep mark text)
    (heq : List.intercalate [sep] texts = List.intercalate [sep] texts') : texts = texts' := by
  have hblank {text : List α} (hsolid : Solid sep mark text) (rest : List α) :
      text ++ rest ≠ [] := by
    intro hnil
    have hmem := hsolid.marked
    rw [(List.append_eq_nil_iff.mp hnil).1] at hmem
    cases hmem
  cases texts with
  | nil =>
      cases texts' with
      | nil => rfl
      | cons text' others' =>
          rw [intercalate_cons] at heq
          exact absurd heq.symm (hblank (h' text' List.mem_cons_self) _)
  | cons text others =>
      cases texts' with
      | nil =>
          rw [intercalate_cons] at heq
          exact absurd heq (hblank (h text List.mem_cons_self) _)
      | cons text' others' =>
          rw [intercalate_cons, intercalate_cons] at heq
          apply flatten_inj hmark h h'
          simpa using heq

end Joined

/-! ## Texts that differ at a place -/

/-- Neither text goes on where the other ends. -/
def Apart (text text' : List α) : Prop := ¬ text <+: text' ∧ ¬ text' <+: text

namespace Apart

variable {text text' : List α}

/-- Whatever follows, they stay different. -/
theorem append_ne (h : Apart text text') (more more' : List α) : text ++ more ≠ text' ++ more' := by
  intro heq
  rcases List.append_eq_append_iff.mp heq with ⟨extra, hextra, -⟩ | ⟨extra, hextra, -⟩
  · exact h.1 ⟨extra, hextra.symm⟩
  · exact h.2 ⟨extra, hextra.symm⟩

theorem ne (h : Apart text text') : text ≠ text' := by
  rintro rfl
  exact h.1 List.prefix_rfl

theorem of_head {c c' : α} (hne : c ≠ c') : Apart (c :: text) (c' :: text') := by
  constructor
  · intro h
    exact hne (List.cons_prefix_cons.mp h).1
  · intro h
    exact hne (List.cons_prefix_cons.mp h).1.symm

theorem cons (c : α) (h : Apart text text') : Apart (c :: text) (c :: text') := by
  constructor
  · intro hpre
    exact h.1 (List.cons_prefix_cons.mp hpre).2
  · intro hpre
    exact h.2 (List.cons_prefix_cons.mp hpre).2

theorem append_left (before : List α) (h : Apart text text') :
    Apart (before ++ text) (before ++ text') := by
  induction before with
  | nil => exact h
  | cons c before ih => exact ih.cons c

theorem map {β : Type} {f : α → β} (hf : Function.Injective f) (h : Apart text text') :
    Apart (text.map f) (text'.map f) := by
  constructor
  · intro hpre
    exact h.1 ((List.prefix_map_iff_of_injective hf).mp hpre)
  · intro hpre
    exact h.2 ((List.prefix_map_iff_of_injective hf).mp hpre)

/-- Two ways to write a character, alike or apart, agree on a text where they agree on all its
characters. -/
theorem flatMap_eq_iff {β : Type} {f g : β → List α} {alike : β → Bool}
    (h : ∀ b, (alike b = true ∧ f b = g b) ∨ (alike b = false ∧ Apart (f b) (g b)))
    (texts : List β) : texts.flatMap f = texts.flatMap g ↔ texts.all alike = true := by
  induction texts with
  | nil => simp
  | cons b texts ih =>
      rw [List.flatMap_cons, List.flatMap_cons, List.all_cons, Bool.and_eq_true]
      rcases h b with ⟨halike, heq⟩ | ⟨halike, hapart⟩
      · rw [heq, List.append_right_inj, ih]
        simp [halike]
      · constructor
        · intro heq
          exact absurd heq (hapart.append_ne _ _)
        · intro hall
          rw [halike] at hall
          exact absurd hall.1 (by decide)

end Apart

/-! ## Values with brackets and quotes -/

/-- The characters that a value is read by. -/
structure Marks (α : Type) where
  opens : α → Bool
  closes : α → Bool
  quotes : α → Bool
  escape : α
  /-- what follows a value outside of brackets, closings aside -/
  separates : α → Bool

/-- Where a reader is. -/
inductive Marks.Place (α : Type)
  | outside (depth : ℕ)
  | quoted (depth : ℕ) (quote : α)
  | escaped (depth : ℕ) (quote : α)

section Values

variable [DecidableEq α] (M : Marks α)

namespace Marks

/-- Neither a quote nor a bracket nor a separator. -/
def plain (c : α) : Bool := !M.quotes c && !M.opens c && !M.closes c && !M.separates c

/-- The same characters, but for what separates. -/
def separatedBy (separates : α → Bool) : Marks α where
  opens := M.opens
  closes := M.closes
  quotes := M.quotes
  escape := M.escape
  separates := separates

/-- One character, `none` where the value has ended before it. -/
def step : Place α → α → Option (Place α)
  | .outside depth, c =>
      if M.quotes c then some (.quoted depth c)
      else if M.opens c then some (.outside (depth + 1))
      else if depth = 0 ∧ (M.closes c ∨ M.separates c) then none
      else if M.closes c then some (.outside (depth - 1))
      else some (.outside depth)
  | .quoted depth quote, c =>
      if c = M.escape then some (.escaped depth quote)
      else if c = quote then some (.outside depth)
      else some (.quoted depth quote)
  | .escaped depth quote, _ => some (.quoted depth quote)

def read (place : Place α) (text : List α) : Option (Place α) := text.foldlM M.step place

/-- Read to its end, the text is back where it began, and it has ended nowhere before. -/
def Whole (text : List α) : Prop := ∀ depth, M.read (.outside depth) text = some (.outside depth)

/-- The same between brackets. -/
def Inner (text : List α) : Prop :=
  ∀ depth, M.read (.outside (depth + 1)) text = some (.outside (depth + 1))

/-- The same between quotes. -/
def Quoted (quote : α) (text : List α) : Prop :=
  ∀ depth, M.read (.quoted depth quote) text = some (.quoted depth quote)

/-- A character that a value ends before. -/
def ends (c : α) : Bool := !M.quotes c && !M.opens c && (M.closes c || M.separates c)

end Marks

variable {M}

namespace Marks

theorem read_append (place : Place α) (text more : List α) :
    M.read place (text ++ more) = (M.read place text).bind fun reached => M.read reached more :=
  List.foldlM_append

theorem read_cons (place : Place α) (c : α) (text : List α) :
    M.read place (c :: text) = (M.step place c).bind fun reached => M.read reached text :=
  List.foldlM_cons

theorem read_nil (place : Place α) : M.read place [] = some place := rfl

theorem Whole.append {text more : List α} (h : M.Whole text) (hmore : M.Whole more) :
    M.Whole (text ++ more) := by
  intro depth
  rw [read_append, h depth]
  exact hmore depth

theorem Whole.inner {text : List α} (h : M.Whole text) : M.Inner text :=
  fun depth => h (depth + 1)

theorem Inner.append {text more : List α} (h : M.Inner text) (hmore : M.Inner more) :
    M.Inner (text ++ more) := by
  intro depth
  rw [read_append, h depth]
  exact hmore depth

theorem Quoted.append {quote : α} {text more : List α} (h : M.Quoted quote text)
    (hmore : M.Quoted quote more) : M.Quoted quote (text ++ more) := by
  intro depth
  rw [read_append, h depth]
  exact hmore depth

theorem inner_nil : M.Inner [] := fun _ => rfl

theorem quoted_nil (quote : α) : M.Quoted quote [] := fun _ => rfl

theorem whole_of_plain {text : List α} (h : ∀ c ∈ text, M.plain c = true) : M.Whole text := by
  intro depth
  induction text with
  | nil => rfl
  | cons c text ih =>
      have hc := h c List.mem_cons_self
      have hstep : M.step (.outside depth) c = some (.outside depth) := by
        simp only [plain, Bool.and_eq_true, Bool.not_eq_true'] at hc
        simp [step, hc]
      rw [read_cons, hstep]
      exact ih fun d hd => h d (List.mem_cons_of_mem _ hd)

/-- A separator between brackets. -/
theorem inner_separator {c : α} (hquotes : M.quotes c = false) (hopens : M.opens c = false)
    (hcloses : M.closes c = false) : M.Inner [c] := by
  intro depth
  simp [read_cons, read_nil, step, hquotes, hopens, hcloses]

theorem quoted_of_plain {quote : α} {text : List α}
    (h : ∀ c ∈ text, c ≠ M.escape ∧ c ≠ quote) : M.Quoted quote text := by
  intro depth
  induction text with
  | nil => rfl
  | cons c text ih =>
      have hc := h c List.mem_cons_self
      have hstep : M.step (.quoted depth quote) c = some (.quoted depth quote) := by
        simp [step, hc]
      rw [read_cons, hstep]
      exact ih fun d hd => h d (List.mem_cons_of_mem _ hd)

theorem quoted_escape (quote c : α) : M.Quoted quote [M.escape, c] := by
  intro depth
  simp [read_cons, read_nil, step]

theorem Quoted.flatMap {β : Type} {quote : α} {f : β → List α}
    (h : ∀ b, M.Quoted quote (f b)) (texts : List β) : M.Quoted quote (texts.flatMap f) := by
  induction texts with
  | nil => exact quoted_nil quote
  | cons b texts ih => exact (h b).append ih

theorem Quoted.whole {quote : α} {text : List α} (hquote : M.quotes quote = true)
    (hescape : quote ≠ M.escape) (h : M.Quoted quote text) :
    M.Whole (quote :: (text ++ [quote])) := by
  intro depth
  have hopen : M.step (.outside depth) quote = some (.quoted depth quote) := by
    simp [step, hquote]
  rw [read_cons, hopen, Option.bind_some, read_append, h depth]
  simp [read_cons, read_nil, step, hescape]

theorem Inner.whole {opening closing : α} {text : List α} (hopening : M.opens opening = true)
    (hunquoted : M.quotes opening = false) (hclosing : M.closes closing = true)
    (hquotes : M.quotes closing = false) (hopens : M.opens closing = false)
    (h : M.Inner text) : M.Whole (opening :: (text ++ [closing])) := by
  intro depth
  have hopen : M.step (.outside depth) opening = some (.outside (depth + 1)) := by
    simp [step, hunquoted, hopening]
  rw [read_cons, hopen, Option.bind_some, read_append, h depth]
  simp [read_cons, read_nil, step, hclosing, hquotes, hopens]

theorem Inner.intercalate {sep : List α} {texts : List (List α)} (hsep : M.Inner sep)
    (h : ∀ text ∈ texts, M.Inner text) : M.Inner (sep.intercalate texts) := by
  induction texts with
  | nil => simpa using inner_nil
  | cons text others ih =>
      have hothers := ih fun other hother => h other (List.mem_cons_of_mem _ hother)
      have htext := h text List.mem_cons_self
      cases others with
      | nil => simpa using htext
      | cons other others =>
          rw [List.intercalate_cons_cons]
          exact (htext.append hsep).append hothers

theorem step_separatedBy {separates : α → Bool} {place reached : Place α} {c : α}
    (hfewer : separates c = true → M.separates c = true) (h : M.step place c = some reached) :
    (M.separatedBy separates).step place c = some reached := by
  cases place with
  | outside depth =>
      simp only [step, separatedBy] at h ⊢
      split_ifs at h ⊢ <;> grind
  | quoted depth quote => exact h
  | escaped depth quote => exact h

theorem read_separatedBy {separates : α → Bool} {text : List α} {place reached : Place α}
    (hfewer : ∀ c, separates c = true → M.separates c = true)
    (h : M.read place text = some reached) :
    (M.separatedBy separates).read place text = some reached := by
  induction text generalizing place with
  | nil => exact h
  | cons c text ih =>
      rw [read_cons] at h ⊢
      obtain ⟨next, hstep, hrest⟩ := Option.bind_eq_some_iff.mp h
      rw [step_separatedBy (hfewer c) hstep]
      exact ih hrest

/-- A value stays one where fewer characters separate. -/
theorem Whole.separatedBy {separates : α → Bool} {text : List α}
    (hfewer : ∀ c, separates c = true → M.separates c = true) (h : M.Whole text) :
    (M.separatedBy separates).Whole text :=
  fun depth => read_separatedBy hfewer (h depth)

/-- A value does not begin with what ends one. -/
theorem Whole.not_ends {text more rest : List α} {c : α} (h : M.Whole text) (hne : text ≠ [])
    (hc : M.ends c = true) : text ++ more ≠ c :: rest := by
  intro heq
  cases text with
  | nil => exact hne rfl
  | cons d text =>
      obtain rfl : d = c := (List.cons.inj heq).1
      have hread := h 0
      rw [read_cons] at hread
      simp only [ends, Bool.and_eq_true, Bool.not_eq_true', Bool.or_eq_true] at hc
      simp [step, hc] at hread

theorem Whole.not_longer {text extra more rest : List α} {c : α} (htext : M.Whole text)
    (h : M.Whole (text ++ extra)) (hc : M.ends c = true)
    (heq : extra ++ more = c :: rest) : extra = [] := by
  by_contra hne
  have hextra : M.Whole extra := by
    intro depth
    have hread := h depth
    rw [read_append, htext depth] at hread
    exact hread
  exact hextra.not_ends hne hc heq

/-- Of a text that goes on with what ends a value, one value at most is the beginning. -/
theorem Whole.unique {text text' rest rest' : List α} {c c' : α} (h : M.Whole text)
    (h' : M.Whole text') (hc : M.ends c = true) (hc' : M.ends c' = true)
    (heq : text ++ c :: rest = text' ++ c' :: rest') :
    text = text' ∧ c = c' ∧ rest = rest' := by
  have hsame : text = text' := by
    rcases List.append_eq_append_iff.mp heq with ⟨extra, rfl, hrest⟩ | ⟨extra, rfl, hrest⟩
    · rw [h.not_longer h' hc hrest.symm, List.append_nil]
    · rw [h'.not_longer h hc' hrest.symm, List.append_nil]
  obtain rfl := hsame
  exact ⟨rfl, List.cons.inj (List.append_cancel_left heq)⟩

section Lists

variable {sep closing : α} {texts texts' : List (List α)} {rest rest' : List α}

omit [DecidableEq α] in
/-- What follows a value in a list. -/
theorem tail_ends (texts : List (List α)) (rest : List α) (hsep : M.ends sep = true) (hclosing : M.ends closing = true) :
    ∃ c more, (texts.map (sep :: ·)).flatten ++ closing :: rest = c :: more ∧
      M.ends c = true := by
  cases texts with
  | nil => exact ⟨closing, rest, rfl, hclosing⟩
  | cons text others => exact ⟨sep, _, rfl, hsep⟩

theorem tail_unique (hsep : M.ends sep = true) (hclosing : M.ends closing = true)
    (hne : sep ≠ closing) (h : ∀ text ∈ texts, M.Whole text) (h' : ∀ text ∈ texts', M.Whole text)
    (heq : (texts.map (sep :: ·)).flatten ++ closing :: rest =
      (texts'.map (sep :: ·)).flatten ++ closing :: rest') :
    texts = texts' ∧ rest = rest' := by
  induction texts generalizing texts' with
  | nil =>
      cases texts' with
      | nil => simpa using heq
      | cons text' others' => exact absurd (List.cons.inj heq).1.symm hne
  | cons text others ih =>
      cases texts' with
      | nil => exact absurd (List.cons.inj heq).1 hne
      | cons text' others' =>
          obtain ⟨c, more, htail, hc⟩ := tail_ends others rest hsep hclosing
          obtain ⟨c', more', htail', hc'⟩ := tail_ends others' rest' hsep hclosing
          have hbody : text ++ c :: more = text' ++ c' :: more' := by
            simpa [← htail, ← htail'] using heq
          obtain ⟨rfl, rfl, rfl⟩ := (h text List.mem_cons_self).unique
            (h' text' List.mem_cons_self) hc hc' hbody
          obtain ⟨rfl, rfl⟩ := ih (fun t ht => h t (List.mem_cons_of_mem _ ht))
            (fun t ht => h' t (List.mem_cons_of_mem _ ht)) (htail.trans htail'.symm)
          exact ⟨rfl, rfl⟩

/-- The values between brackets are found again. -/
theorem intercalate_unique (hsep : M.ends sep = true) (hclosing : M.ends closing = true)
    (hne : sep ≠ closing) (h : ∀ text ∈ texts, M.Whole text ∧ text ≠ [])
    (h' : ∀ text ∈ texts', M.Whole text ∧ text ≠ [])
    (heq : List.intercalate [sep] texts ++ closing :: rest =
      List.intercalate [sep] texts' ++ closing :: rest') :
    texts = texts' ∧ rest = rest' := by
  cases texts with
  | nil =>
      cases texts' with
      | nil => simpa using heq
      | cons text' others' =>
          obtain ⟨hwhole, hnil⟩ := h' text' List.mem_cons_self
          rw [intercalate_cons, List.append_assoc] at heq
          exact absurd heq.symm (hwhole.not_ends hnil hclosing)
  | cons text others =>
      obtain ⟨hwhole, hnil⟩ := h text List.mem_cons_self
      cases texts' with
      | nil =>
          rw [intercalate_cons, List.append_assoc] at heq
          exact absurd heq (hwhole.not_ends hnil hclosing)
      | cons text' others' =>
          apply tail_unique hsep hclosing hne (fun t ht => (h t ht).1) (fun t ht => (h' t ht).1)
          rw [intercalate_cons, intercalate_cons] at heq
          simpa using heq

end Lists

end Marks

end Values

end Sieshka
