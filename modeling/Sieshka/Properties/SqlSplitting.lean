import Sieshka.Delimiters
import Sieshka.Migrations.SplitSql

/-!
# What a script is split into

A script is a sequence of tokens: semicolons, comments, quoted texts, other characters.
Its statements are what is between the semicolons. The scanner finds them, but loses the
slash that closes a block comment.
-/

namespace Sieshka

namespace SplitSql

/-! ## The specification -/

/-- What hides a semicolon. -/
inductive Kind
  | lineComment
  | blockComment
  | singleQuoted
  | doubleQuoted
  | dollarQuoted (tag : List Char)
deriving DecidableEq

/-- `$tag$`, or `$$`. -/
def IsTag (tag : List Char) : Prop :=
  ∃ name, tag = '$' :: (name ++ ['$']) ∧ (∀ c ∈ name, tagChar c = true) ∧
    ∀ c ∈ name.head?, tagStart c = true

namespace Kind

def Valid : Kind → Prop
  | dollarQuoted tag => IsTag tag
  | _ => True

def opening : Kind → List Char
  | lineComment => ['-', '-']
  | blockComment => ['/', '*']
  | singleQuoted => ['\'']
  | doubleQuoted => ['"']
  | dollarQuoted tag => tag

def closing : Kind → List Char
  | lineComment => ['\n']
  | blockComment => ['*', '/']
  | singleQuoted => ['\'']
  | doubleQuoted => ['"']
  | dollarQuoted tag => tag

/-- The closing after `body` is the first one, with `rest` behind it. -/
def Closes (kind : Kind) (body rest : List Char) : Prop :=
  match kind with
  | singleQuoted => Doubled '\'' body ∧ rest.head? ≠ some '\''
  | doubleQuoted => Doubled '"' body ∧ rest.head? ≠ some '"'
  | _ => EndsAt kind.closing body

/-- There is no closing in the text. -/
def Endless (kind : Kind) (body : List Char) : Prop :=
  match kind with
  | singleQuoted => Doubled '\'' body
  | doubleQuoted => Doubled '"' body
  | _ => ¬ kind.closing <:+: body

end Kind

inductive Token
  | semicolon
  | plain (c : Char)
  | enclosed (kind : Kind) (body : List Char) (closed : Bool)
deriving DecidableEq

/-- The token as it stands in the script. -/
def Token.text : Token → List Char
  | semicolon => [';']
  | plain c => [c]
  | enclosed kind body closed =>
      kind.opening ++ (body ++ if closed then kind.closing else [])

/-- The token may stand before `rest`. -/
inductive Begins : Token → List Char → Prop
  | semicolon {rest} : Begins .semicolon rest
  | plain {c rest} (hc : c ≠ ';')
      (hopen : ∀ kind : Kind, kind.Valid → ¬ kind.opening <+: c :: rest) :
      Begins (.plain c) rest
  | closed {kind body rest} (hvalid : kind.Valid) (h : kind.Closes body rest) :
      Begins (.enclosed kind body true) rest
  | endless {kind body} (hvalid : kind.Valid) (h : kind.Endless body) :
      Begins (.enclosed kind body false) []

/-- The tokens of a text. -/
inductive Lexes : List Char → List Token → Prop
  | nil : Lexes [] []
  | cons {token rest tokens} (h : Begins token rest) (hrest : Lexes rest tokens) :
      Lexes (token.text ++ rest) (token :: tokens)

/-- The piece up to the first semicolon, and the other pieces. -/
def cut (text : Token → List Char) : List Token → List Char × List (List Char)
  | [] => ([], [])
  | token :: tokens =>
      if token = .semicolon then ([], (cut text tokens).1 :: (cut text tokens).2)
      else (text token ++ (cut text tokens).1, (cut text tokens).2)

/-- The pieces without the space around them, where anything is left. -/
def trimmed (pieces : List (List Char)) : List String :=
  (pieces.map fun piece => strip (String.ofList piece)).filter (· ≠ "")

/-- The statements of a script. -/
def statements (tokens : List Token) : List String :=
  trimmed ((cut Token.text tokens).1 :: (cut Token.text tokens).2)

/-- The script is split into its statements. -/
def SplitsExactly (sql : String) : Prop :=
  ∃ tokens, Lexes sql.toList tokens ∧ splitSqlStatements sql = statements tokens

/-- No block comment of the script has an end. -/
def NoClosedComment (sql : String) : Prop :=
  ∀ tokens, Lexes sql.toList tokens → ∀ body, Token.enclosed .blockComment body true ∉ tokens

/-! ## Tags and openings -/

theorem IsTag.ne_nil {tag : List Char} (h : IsTag tag) : tag ≠ [] := by
  obtain ⟨name, rfl, -, -⟩ := h
  simp

theorem not_tagChar_dollar : tagChar '$' = false := by
  decide

/-- The tag that is matched is the one that the text begins with. -/
theorem dollarTag_eq_some_iff {rest tag : List Char} :
    dollarTag rest = some tag ↔ IsTag tag ∧ tag <+: '$' :: rest := by
  unfold dollarTag
  constructor
  · intro h
    simp only [Option.ite_none_right_eq_some, Bool.and_eq_true, decide_eq_true_eq,
      Option.some.injEq] at h
    obtain ⟨⟨hstart, hdollar⟩, rfl⟩ := h
    constructor
    · refine ⟨rest.takeWhile tagChar, rfl, ?_, ?_⟩
      · exact List.all_eq_true.mp List.all_takeWhile
      · intro c hc
        rw [Option.mem_def.mp hc] at hstart
        exact hstart
    · rw [List.cons_prefix_cons]
      constructor
      · rfl
      · obtain ⟨tail, htail⟩ := List.head?_eq_some_iff.mp hdollar
        refine ⟨tail, ?_⟩
        have hsplit : rest.takeWhile tagChar ++ rest.drop (rest.takeWhile tagChar).length =
            rest := by
          have hopens := List.takeWhile_prefix (l := rest) tagChar
          exact List.prefix_iff_eq_append.mp hopens
        rw [htail] at hsplit
        simpa using hsplit
  · rintro ⟨⟨name, rfl, hname, hstart⟩, hopens⟩
    obtain ⟨tail, htail⟩ := (List.cons_prefix_cons.mp hopens).2
    have htake : rest.takeWhile tagChar = name := by
      rw [← htail, List.append_assoc, List.takeWhile_append_of_pos hname]
      simp [not_tagChar_dollar]
    have hdrop : rest.drop name.length = '$' :: tail := by
      rw [← htail, List.append_assoc, List.drop_left]
      rfl
    have hall : name.head?.all tagStart = true := by
      cases hhead : name.head? with
      | none => rfl
      | some c => exact hstart c hhead
    dsimp only
    rw [htake, hdrop]
    simp [hall]

theorem opening_ne_nil {kind : Kind} (h : kind.Valid) : kind.opening ≠ [] := by
  cases kind with
  | dollarQuoted tag => exact IsTag.ne_nil h
  | _ => exact List.cons_ne_nil _ _

theorem closing_ne_nil {kind : Kind} (h : kind.Valid) : kind.closing ≠ [] := by
  cases kind with
  | dollarQuoted tag => exact IsTag.ne_nil h
  | _ => exact List.cons_ne_nil _ _

/-- The character a kind begins with. -/
def Kind.first : Kind → Char
  | lineComment => '-'
  | blockComment => '/'
  | singleQuoted => '\''
  | doubleQuoted => '"'
  | dollarQuoted _ => '$'

theorem head_opening {kind : Kind} (h : kind.Valid) : kind.opening.head? = some kind.first := by
  cases kind with
  | dollarQuoted tag =>
      obtain ⟨name, rfl, -, -⟩ := h
      rfl
  | _ => rfl

theorem opening_first {kind : Kind} (h : kind.Valid) {c : Char} {rest : List Char}
    (hopens : kind.opening <+: c :: rest) : kind.first = c := by
  obtain ⟨tail, htail⟩ := hopens
  have hhead := head_opening h
  cases hopening : kind.opening with
  | nil => exact absurd hopening (opening_ne_nil h)
  | cons first others =>
      rw [hopening] at hhead htail
      exact (Option.some.inj hhead).symm.trans (List.cons.inj htail).1

/-- At most one kind opens at a place. -/
theorem kind_unique {kind kind' : Kind} (h : kind.Valid) (h' : kind'.Valid) {text : List Char}
    (hopens : kind.opening <+: text) (hopens' : kind'.opening <+: text) : kind = kind' := by
  cases text with
  | nil => exact absurd (List.prefix_nil.mp hopens) (opening_ne_nil h)
  | cons c rest =>
      have hfirst : kind.first = kind'.first :=
        (opening_first h hopens).trans (opening_first h' hopens').symm
      cases kind <;> cases kind' <;> first
        | rfl
        | (simp [Kind.first] at hfirst; done)
        | skip
      rename_i tag tag'
      obtain rfl : '$' = c := opening_first h hopens
      have htag := dollarTag_eq_some_iff.mpr ⟨h, hopens⟩
      have htag' := dollarTag_eq_some_iff.mpr ⟨h', hopens'⟩
      rw [Option.some.inj (htag.symm.trans htag')]

/-! ## The scanner, mode by mode -/

/-- The mode of the scanner behind an opening. -/
def Kind.mode : Kind → Mode
  | lineComment => .line
  | blockComment => .block
  | singleQuoted => .single
  | doubleQuoted => .double
  | dollarQuoted tag => .dollar tag

/-- What the scanner keeps of a closing. -/
def Kind.kept : Kind → List Char
  | blockComment => ['*']
  | kind => kind.closing

section Modes

variable {mode : Mode} {close kept body rest : List Char}
  (hstep : ∀ buf c rest, ¬ close <+: c :: rest →
    splitLoop mode buf (c :: rest) = splitLoop mode (buf ++ [c]) rest)

theorem splitLoop_nil (mode : Mode) (buf : List Char) : splitLoop mode buf [] = statement buf := by
  rw [splitLoop]

include hstep

theorem splitLoop_closes (hclose : close ≠ [])
    (hend : ∀ buf, splitLoop mode buf (close ++ rest) = splitLoop .plain (buf ++ kept) rest)
    (h : EndsAt close body) (buf : List Char) :
    splitLoop mode buf (body ++ (close ++ rest)) =
      splitLoop .plain (buf ++ (body ++ kept)) rest := by
  induction body generalizing buf with
  | nil => exact hend buf
  | cons c body ih =>
      rw [List.cons_append, hstep buf c _ (h.not_opens hclose),
        ih ((endsAt_cons_iff hclose).mp h).2]
      simp

theorem splitLoop_endless (h : ¬ close <:+: body) (buf : List Char) :
    splitLoop mode buf body = statement (buf ++ body) := by
  induction body generalizing buf with
  | nil => rw [splitLoop_nil, List.append_nil]
  | cons c body ih =>
      rw [List.infix_cons_iff, not_or] at h
      rw [hstep buf c body h.1, ih h.2]
      simp

end Modes

theorem splitLoop_doubled {mode : Mode} {quote : Char} {body : List Char}
    (hother : ∀ buf c rest, c ≠ quote →
      splitLoop mode buf (c :: rest) = splitLoop mode (buf ++ [c]) rest)
    (hpair : ∀ buf rest,
      splitLoop mode buf (quote :: quote :: rest) = splitLoop mode (buf ++ [quote, quote]) rest)
    (h : Doubled quote body) (buf rest : List Char) :
    splitLoop mode buf (body ++ rest) = splitLoop mode (buf ++ body) rest := by
  induction h generalizing buf with
  | nil => simp
  | other hc _ ih =>
      rw [List.cons_append, hother buf _ _ hc, ih]
      simp
  | pair _ ih =>
      rw [List.cons_append, List.cons_append, hpair, ih]
      simp

theorem splitLoop_single {body : List Char} (h : Doubled '\'' body) (buf rest : List Char) :
    splitLoop .single buf (body ++ rest) = splitLoop .single (buf ++ body) rest := by
  apply splitLoop_doubled _ _ h
  · intro buf c rest hc
    simp only [splitLoop, if_neg hc]
  · intro buf rest
    simp [splitLoop]

theorem splitLoop_double {body : List Char} (h : Doubled '"' body) (buf rest : List Char) :
    splitLoop .double buf (body ++ rest) = splitLoop .double (buf ++ body) rest := by
  apply splitLoop_doubled _ _ h
  · intro buf c rest hc
    simp only [splitLoop, if_neg hc]
  · intro buf rest
    simp [splitLoop]

/-- What the modes do with a character that does not close. -/
theorem splitLoop_step {kind : Kind} (hvalid : kind.Valid) (hquote : kind ≠ .singleQuoted)
    (hquote' : kind ≠ .doubleQuoted) (buf : List Char) (c : Char) (rest : List Char)
    (h : ¬ kind.closing <+: c :: rest) :
    splitLoop kind.mode buf (c :: rest) = splitLoop kind.mode (buf ++ [c]) rest := by
  cases kind with
  | lineComment =>
      have hc : c ≠ '\n' := by
        rintro rfl
        exact h (List.cons_prefix_cons.mpr ⟨rfl, List.nil_prefix⟩)
      simp only [Kind.mode, splitLoop, if_neg hc]
  | blockComment =>
      have hc : ¬ (c = '*' ∧ rest.head? = some '/') := by
        rintro ⟨rfl, hslash⟩
        obtain ⟨tail, rfl⟩ := List.head?_eq_some_iff.mp hslash
        exact h ⟨tail, rfl⟩
      simp only [Kind.mode, splitLoop, if_neg hc]
  | singleQuoted => exact absurd rfl hquote
  | doubleQuoted => exact absurd rfl hquote'
  | dollarQuoted tag =>
      have hc : ¬ (c = '$' ∧ tag <+: c :: rest) := fun hc => h hc.2
      simp only [Kind.mode, splitLoop, if_neg hc]

theorem splitLoop_closing {kind : Kind} (hvalid : kind.Valid) (hquote : kind ≠ .singleQuoted)
    (hquote' : kind ≠ .doubleQuoted) (buf rest : List Char) :
    splitLoop kind.mode buf (kind.closing ++ rest) = splitLoop .plain (buf ++ kind.kept) rest := by
  cases kind with
  | lineComment => simp [Kind.mode, Kind.closing, Kind.kept, splitLoop]
  | blockComment => simp [Kind.mode, Kind.closing, Kind.kept, splitLoop]
  | singleQuoted => exact absurd rfl hquote
  | doubleQuoted => exact absurd rfl hquote'
  | dollarQuoted tag =>
      obtain ⟨name, rfl, -, -⟩ := hvalid
      simp [Kind.mode, Kind.closing, Kind.kept, splitLoop]

theorem splitLoop_of_closes {kind : Kind} {body rest : List Char} (hvalid : kind.Valid)
    (h : kind.Closes body rest) (buf : List Char) :
    splitLoop kind.mode buf (body ++ (kind.closing ++ rest)) =
      splitLoop .plain (buf ++ (body ++ kind.kept)) rest := by
  have hends (hquote : kind ≠ .singleQuoted) (hquote' : kind ≠ .doubleQuoted)
      (hends : EndsAt kind.closing body) :=
    splitLoop_closes (splitLoop_step hvalid hquote hquote') (closing_ne_nil hvalid)
      (fun buf => splitLoop_closing hvalid hquote hquote' buf rest) hends buf
  cases kind with
  | singleQuoted =>
      obtain ⟨hbody, hrest⟩ := h
      rw [Kind.mode, Kind.closing, List.singleton_append, splitLoop_single hbody]
      simp [splitLoop, hrest, Kind.kept, Kind.closing]
  | doubleQuoted =>
      obtain ⟨hbody, hrest⟩ := h
      rw [Kind.mode, Kind.closing, List.singleton_append, splitLoop_double hbody]
      simp [splitLoop, hrest, Kind.kept, Kind.closing]
  | lineComment => exact hends (by simp) (by simp) h
  | blockComment => exact hends (by simp) (by simp) h
  | dollarQuoted tag => exact hends (by simp) (by simp) h

theorem splitLoop_of_endless {kind : Kind} {body : List Char} (hvalid : kind.Valid)
    (h : kind.Endless body) (buf : List Char) :
    splitLoop kind.mode buf body = statement (buf ++ body) := by
  have hends (hquote : kind ≠ .singleQuoted) (hquote' : kind ≠ .doubleQuoted)
      (hno : ¬ kind.closing <:+: body) :=
    splitLoop_endless (splitLoop_step hvalid hquote hquote') hno buf
  cases kind with
  | singleQuoted =>
      have hend := splitLoop_single h buf []
      rwa [List.append_nil, splitLoop_nil] at hend
  | doubleQuoted =>
      have hend := splitLoop_double h buf []
      rwa [List.append_nil, splitLoop_nil] at hend
  | lineComment => exact hends (by simp) (by simp) h
  | blockComment => exact hends (by simp) (by simp) h
  | dollarQuoted tag => exact hends (by simp) (by simp) h

theorem splitLoop_opening {kind : Kind} (hvalid : kind.Valid) (buf rest : List Char) :
    splitLoop .plain buf (kind.opening ++ rest) =
      splitLoop kind.mode (buf ++ kind.opening) rest := by
  cases kind with
  | dollarQuoted tag =>
      obtain ⟨name, rfl, hname⟩ := hvalid
      have htag : dollarTag (name ++ '$' :: rest) = some ('$' :: (name ++ ['$'])) :=
        dollarTag_eq_some_iff.mpr ⟨⟨name, rfl, hname⟩, ⟨rest, by simp⟩⟩
      have hdrop : (name ++ '$' :: rest).drop (name.length + 1) = rest := by
        simp
      rw [Kind.opening, List.cons_append, splitLoop]
      simp [htag, hdrop, Kind.mode]
  | _ => simp [Kind.opening, Kind.mode, splitLoop]

/-- A character that neither opens anything nor ends a statement. -/
theorem splitLoop_plain {c : Char} {rest : List Char} (hc : c ≠ ';')
    (hopen : ∀ kind : Kind, kind.Valid → ¬ kind.opening <+: c :: rest) (buf : List Char) :
    splitLoop .plain buf (c :: rest) = splitLoop .plain (buf ++ [c]) rest := by
  have hpair {first second : Char} (hno : ¬ [first, second] <+: c :: rest) :
      ¬ (c = first ∧ rest.head? = some second) := by
    rintro ⟨rfl, hhead⟩
    obtain ⟨tail, rfl⟩ := List.head?_eq_some_iff.mp hhead
    exact hno ⟨tail, rfl⟩
  have hone {first : Char} (hno : ¬ [first] <+: c :: rest) : c ≠ first := by
    rintro rfl
    exact hno ⟨rest, rfl⟩
  have hline := hpair (hopen .lineComment trivial)
  have hblock := hpair (hopen .blockComment trivial)
  have hsingle := hone (hopen .singleQuoted trivial)
  have hdouble := hone (hopen .doubleQuoted trivial)
  rw [splitLoop]
  simp only [if_neg hline, if_neg hblock, if_neg hsingle, if_neg hdouble, if_neg hc]
  split_ifs with hdollar
  · subst hdollar
    cases htag : dollarTag rest with
    | none => rfl
    | some tag =>
        obtain ⟨hvalid, hopens⟩ := dollarTag_eq_some_iff.mp htag
        exact absurd hopens (hopen (.dollarQuoted tag) hvalid)
  · rfl

/-! ## The whole script -/

/-- What the scanner keeps of a token. -/
def Token.kept : Token → List Char
  | .enclosed kind body true => kind.opening ++ (body ++ kind.kept)
  | token => token.text

theorem trimmed_cons (piece : List Char) (pieces : List (List Char)) :
    trimmed (piece :: pieces) = statement piece ++ trimmed pieces := by
  by_cases h : strip (String.ofList piece) = "" <;> simp [trimmed, statement, h]

/-- The scanner splits at the right semicolons, and keeps of every token what it keeps. -/
theorem splitLoop_eq {text : List Char} {tokens : List Token} (h : Lexes text tokens)
    (buf : List Char) :
    splitLoop .plain buf text =
      trimmed ((buf ++ (cut Token.kept tokens).1) :: (cut Token.kept tokens).2) := by
  induction h generalizing buf with
  | nil =>
      rw [splitLoop_nil, cut, trimmed_cons]
      simp [trimmed]
  | @cons token rest tokens h _ ih =>
      cases h with
      | semicolon =>
          have hloop : splitLoop .plain buf (';' :: rest) =
              statement buf ++ splitLoop .plain [] rest := by
            rw [splitLoop]
            simp
          rw [Token.text, List.singleton_append, hloop, ih]
          simp [cut, trimmed_cons]
      | plain hc hopen =>
          rw [Token.text, List.singleton_append, splitLoop_plain hc hopen, ih]
          simp [cut, Token.kept, Token.text]
      | @closed kind body _ hvalid h =>
          have htext : (Token.enclosed kind body true).text ++ rest =
              kind.opening ++ (body ++ (kind.closing ++ rest)) := by
            simp [Token.text]
          rw [htext, splitLoop_opening hvalid, splitLoop_of_closes hvalid h, ih]
          simp [cut, Token.kept]
      | @endless kind body hvalid h =>
          have htext : (Token.enclosed kind body false).text ++ [] = kind.opening ++ body := by
            simp [Token.text]
          have hend := ih (buf ++ (kind.opening ++ body))
          rw [splitLoop_nil] at hend
          rw [htext, splitLoop_opening hvalid, splitLoop_of_endless hvalid h, List.append_assoc,
            hend]
          simp [cut, Token.kept, Token.text]

/-! ## The tokens of a script -/

theorem exists_closes {kind : Kind} (hvalid : kind.Valid) (text : List Char) :
    kind.Endless text ∨
      ∃ body rest, text = body ++ (kind.closing ++ rest) ∧ kind.Closes body rest := by
  cases kind with
  | singleQuoted => exact exists_doubled '\'' text
  | doubleQuoted => exact exists_doubled '"' text
  | lineComment => exact exists_endsAt (closing_ne_nil hvalid) text
  | blockComment => exact exists_endsAt (closing_ne_nil hvalid) text
  | dollarQuoted tag => exact exists_endsAt (closing_ne_nil hvalid) text

theorem closes_unique {kind : Kind} (hvalid : kind.Valid) {body body' rest rest' : List Char}
    (h : kind.Closes body rest) (h' : kind.Closes body' rest')
    (heq : body ++ (kind.closing ++ rest) = body' ++ (kind.closing ++ rest')) : body = body' := by
  cases kind with
  | singleQuoted => exact h.1.unique h'.1 h.2 h'.2 heq
  | doubleQuoted => exact h.1.unique h'.1 h.2 h'.2 heq
  | lineComment => exact EndsAt.unique (closing_ne_nil hvalid) h h' heq
  | blockComment => exact EndsAt.unique (closing_ne_nil hvalid) h h' heq
  | dollarQuoted tag => exact EndsAt.unique (closing_ne_nil hvalid) h h' heq

theorem not_endless_of_closes {kind : Kind} {body rest : List Char}
    (h : kind.Closes body rest) : ¬ kind.Endless (body ++ (kind.closing ++ rest)) := by
  cases kind with
  | singleQuoted => exact h.1.not_append h.2
  | doubleQuoted => exact h.1.not_append h.2
  | lineComment => exact not_not_intro (List.infix_append' _ _ _)
  | blockComment => exact not_not_intro (List.infix_append' _ _ _)
  | dollarQuoted tag => exact not_not_intro (List.infix_append' _ _ _)

/-- Every text is a sequence of tokens. -/
theorem exists_lexes (text : List Char) : ∃ tokens, Lexes text tokens := by
  induction hn : text.length using Nat.strong_induction_on generalizing text with
  | _ n ih =>
      cases text with
      | nil => exact ⟨[], .nil⟩
      | cons c rest =>
          by_cases hopen : ∀ kind : Kind, kind.Valid → ¬ kind.opening <+: c :: rest
          · obtain ⟨tokens, htokens⟩ := ih rest.length (by simp at hn; omega) rest rfl
            by_cases hc : c = ';'
            · subst hc
              exact ⟨_, .cons .semicolon htokens⟩
            · exact ⟨_, .cons (.plain hc hopen) htokens⟩
          · push Not at hopen
            obtain ⟨kind, hvalid, tail, htail⟩ := hopen
            rw [← htail] at hn ⊢
            rcases exists_closes hvalid tail with hend | ⟨body, rest', rfl, hcloses⟩
            · have hlexes := Lexes.cons (.endless hvalid hend) .nil
              exact ⟨_, by simpa [Token.text] using hlexes⟩
            · have hpos := List.length_pos_iff.mpr (opening_ne_nil hvalid)
              simp only [List.length_append] at hn
              obtain ⟨tokens, htokens⟩ := ih rest'.length (by omega) rest' rfl
              have hlexes := Lexes.cons (.closed hvalid hcloses) htokens
              exact ⟨_, by simpa [Token.text] using hlexes⟩

theorem Begins.valid {kind : Kind} {body rest : List Char} {closed : Bool}
    (h : Begins (.enclosed kind body closed) rest) : kind.Valid := by
  cases h with
  | closed hvalid _ => exact hvalid
  | endless hvalid _ => exact hvalid

/-- A text begins with one token only. -/
theorem Begins.unique {token token' : Token} {rest rest' : List Char} (h : Begins token rest)
    (h' : Begins token' rest') (heq : token.text ++ rest = token'.text ++ rest') :
    token = token' := by
  have hsemicolon {kind : Kind} (hvalid : kind.Valid) {body rest rest' : List Char} :
      ';' :: rest ≠ kind.opening ++ (body ++ rest') := by
    intro heq
    have hfirst : kind.first = ';' := opening_first hvalid ⟨_, heq.symm⟩
    cases kind <;> simp [Kind.first] at hfirst
  cases token with
  | semicolon =>
      cases token' with
      | semicolon => rfl
      | plain c =>
          cases h' with
          | plain hc _ => exact absurd (List.cons.inj heq).1.symm hc
      | enclosed kind body closed =>
          simp only [Token.text, List.append_assoc] at heq
          exact absurd heq (hsemicolon h'.valid)
  | plain c =>
      cases h with
      | plain hc hopen =>
          cases token' with
          | semicolon => exact absurd (List.cons.inj heq).1 hc
          | plain c' => rw [(List.cons.inj heq).1]
          | enclosed kind body closed =>
              simp only [Token.text, List.append_assoc] at heq
              exact absurd ⟨_, heq.symm⟩ (hopen kind h'.valid)
  | enclosed kind body closed =>
      cases token' with
      | semicolon =>
          simp only [Token.text, List.append_assoc] at heq
          exact absurd heq.symm (hsemicolon h.valid)
      | plain c =>
          cases h' with
          | plain hc hopen =>
              simp only [Token.text, List.append_assoc] at heq
              exact absurd ⟨_, heq⟩ (hopen kind h.valid)
      | enclosed kind' body' closed' =>
          simp only [Token.text, List.append_assoc] at heq
          obtain rfl : kind = kind' :=
            kind_unique h.valid h'.valid ⟨_, rfl⟩ ⟨_, heq.symm⟩
          have htail := List.append_cancel_left heq
          cases h with
          | closed hvalid h =>
              cases h' with
              | closed _ h' => rw [closes_unique hvalid h h' htail]
              | endless _ h' =>
                  simp only [Bool.false_eq_true, if_true, if_false, List.append_nil] at htail
                  rw [← htail] at h'
                  exact absurd h' (not_endless_of_closes h)
          | endless hvalid h =>
              cases h' with
              | closed _ h' =>
                  simp only [Bool.false_eq_true, if_true, if_false, List.append_nil] at htail
                  rw [htail] at h
                  exact absurd h (not_endless_of_closes h')
              | endless _ _ =>
                  simp only [Bool.false_eq_true, if_false, List.append_nil] at htail
                  rw [htail]

theorem token_text_ne_nil {token : Token} {rest : List Char} (h : Begins token rest) :
    token.text ≠ [] := by
  cases token with
  | semicolon => exact List.cons_ne_nil _ _
  | plain c => exact List.cons_ne_nil _ _
  | enclosed kind body closed => simp [Token.text, opening_ne_nil h.valid]

/-- A text is one sequence of tokens only. -/
theorem Lexes.unique {text : List Char} {tokens tokens' : List Token} (h : Lexes text tokens)
    (h' : Lexes text tokens') : tokens = tokens' := by
  induction h generalizing tokens' with
  | nil =>
      generalize htext : ([] : List Char) = text at h'
      cases h' with
      | nil => rfl
      | cons hbegins _ =>
          exact absurd (List.append_eq_nil_iff.mp htext.symm).1 (token_text_ne_nil hbegins)
  | @cons token rest tokens hbegins hrest ih =>
      generalize htext : token.text ++ rest = text at h'
      cases h' with
      | nil => exact absurd (List.append_eq_nil_iff.mp htext).1 (token_text_ne_nil hbegins)
      | cons hbegins' hrest' =>
          obtain rfl := hbegins.unique hbegins' htext
          rw [List.append_cancel_left htext] at ih
          rw [ih hrest']

/-- The pieces, with the semicolons between them, are the script. -/
theorem Lexes.pieces {text : List Char} {tokens : List Token} (h : Lexes text tokens) :
    (cut Token.text tokens).1 ++ ((cut Token.text tokens).2.map (';' :: ·)).flatten = text := by
  induction h with
  | nil => rfl
  | @cons token rest tokens _ _ ih =>
      by_cases hsemicolon : token = .semicolon
      · subst hsemicolon
        simp [cut, Token.text, ih]
      · simp [cut, hsemicolon, ih]

/-! ## The slashes that are lost -/

theorem count_stripChars {drop : Char → Bool} {c : Char} (h : drop c = false) (s : List Char) :
    (stripChars drop s).count c = s.count c := by
  have hdrop (t : List Char) : (t.dropWhile drop).count c = t.count c := by
    have hnot : c ∉ t.takeWhile drop := by
      intro hmem
      have hc := List.all_eq_true.mp List.all_takeWhile c hmem
      rw [h] at hc
      cases hc
    have hsplit := congrArg (List.count c) (List.takeWhile_append_dropWhile (p := drop) (l := t))
    rw [List.count_append, List.count_eq_zero_of_not_mem hnot] at hsplit
    omega
  rw [stripChars, List.count_reverse, hdrop, List.count_reverse, hdrop]

/-- The slashes in statements. -/
def slashes (stmts : List String) : Nat := (stmts.map fun stmt => stmt.toList.count '/').sum

theorem slashes_statement (buf : List Char) : slashes (statement buf) = buf.count '/' := by
  have hstrip : (strip (String.ofList buf)).toList.count '/' = buf.count '/' := by
    rw [strip, String.toList_ofList, String.toList_ofList]
    exact count_stripChars (by decide) buf
  unfold statement slashes
  dsimp only
  split_ifs with hblank
  · rw [hblank] at hstrip
    simpa using hstrip
  · simpa using hstrip

theorem slashes_trimmed (pieces : List (List Char)) :
    slashes (trimmed pieces) = (pieces.map fun piece => piece.count '/').sum := by
  induction pieces with
  | nil => rfl
  | cons piece pieces ih =>
      have happend : slashes (statement piece ++ trimmed pieces) =
          slashes (statement piece) + slashes (trimmed pieces) := by
        simp [slashes]
      rw [trimmed_cons, happend, slashes_statement, ih, List.map_cons, List.sum_cons]

/-- A block comment with an end. -/
def Token.closedComment : Token → Bool
  | .enclosed .blockComment _ true => true
  | _ => false

theorem count_text (token : Token) :
    token.text.count '/' = token.kept.count '/' + token.closedComment.toNat := by
  cases token with
  | semicolon => rfl
  | plain c => rfl
  | enclosed kind body closed =>
      cases closed with
      | false => cases kind <;> rfl
      | true =>
          cases kind <;>
            simp [Token.text, Token.kept, Token.closedComment, Kind.kept, Kind.closing,
              Nat.add_assoc]

/-- Cut as the script has it, or as the scanner keeps it: the pieces differ by a slash for
every end of a block comment. -/
theorem count_cut (tokens : List Token) :
    ((cut Token.text tokens).1.count '/' +
        ((cut Token.text tokens).2.map fun piece => piece.count '/').sum) =
      ((cut Token.kept tokens).1.count '/' +
        ((cut Token.kept tokens).2.map fun piece => piece.count '/').sum) +
          tokens.countP Token.closedComment := by
  induction tokens with
  | nil => rfl
  | cons token tokens ih =>
      by_cases hsemicolon : token = .semicolon
      · subst hsemicolon
        have hclosed : Token.semicolon.closedComment = false := rfl
        simpa [cut, hclosed] using ih
      · have htext := count_text token
        cases hclosed : token.closedComment <;>
          simp only [cut, if_neg hsemicolon, List.count_append, List.countP_cons, hclosed,
            Bool.toNat_true, Bool.toNat_false, if_true, if_false, Bool.false_eq_true]
            at htext ⊢ <;> omega

theorem cut_congr {tokens : List Token} (h : ∀ token ∈ tokens, token.closedComment = false) :
    cut Token.kept tokens = cut Token.text tokens := by
  induction tokens with
  | nil => rfl
  | cons token tokens ih =>
      have htoken : token.kept = token.text := by
        have hclosed := h token List.mem_cons_self
        cases token with
        | semicolon => rfl
        | plain c => rfl
        | enclosed kind body closed =>
            cases closed with
            | false => rfl
            | true =>
                cases kind with
                | blockComment => cases hclosed
                | _ => rfl
      rw [cut, cut, htoken, ih fun token hmem => h token (List.mem_cons_of_mem _ hmem)]

/-! ## The result -/

theorem split_eq_statements_iff {sql : String} {tokens : List Token}
    (h : Lexes sql.toList tokens) :
    splitSqlStatements sql = statements tokens ↔
      ∀ token ∈ tokens, token.closedComment = false := by
  rw [splitSqlStatements, splitLoop_eq h, List.nil_append, statements]
  constructor
  · intro heq token hmem
    have hcount := congrArg slashes heq
    simp only [slashes_trimmed, List.map_cons, List.sum_cons, count_cut tokens] at hcount
    have hzero : tokens.countP Token.closedComment = 0 := by omega
    simpa using List.countP_eq_zero.mp hzero token hmem
  · intro hall
    rw [cut_congr hall]

/-- A script is split into its statements exactly when none of its block comments ends. -/
theorem splits_exactly_iff (sql : String) : SplitsExactly sql ↔ NoClosedComment sql := by
  obtain ⟨tokens, htokens⟩ := exists_lexes sql.toList
  have hclosed {token : Token} :
      token.closedComment = true ↔ ∃ body, token = .enclosed .blockComment body true := by
    cases token with
    | semicolon => simp [Token.closedComment]
    | plain c => simp [Token.closedComment]
    | enclosed kind body closed => cases kind <;> cases closed <;> simp [Token.closedComment]
  constructor
  · rintro ⟨tokens', htokens', hsplit⟩ tokens'' htokens'' body hmem
    obtain rfl := htokens'.unique htokens''
    have hno := (split_eq_statements_iff htokens').mp hsplit _ hmem
    cases hno
  · intro hno
    refine ⟨tokens, htokens, (split_eq_statements_iff htokens).mpr ?_⟩
    intro token hmem
    rw [Bool.eq_false_iff]
    intro htrue
    obtain ⟨body, rfl⟩ := hclosed.mp htrue
    exact hno tokens htokens body hmem

/-- The tokens of `/**/`. -/
theorem lexes_empty_comment : Lexes "/**/".toList [.enclosed .blockComment [] true] := by
  have hbegins : Begins (.enclosed .blockComment [] true) [] :=
    .closed trivial (endsAt_nil (by decide))
  exact .cons hbegins .nil

/-- The empty comment loses its slash. -/
theorem empty_comment_loses_slash : ¬ ∀ sql, SplitsExactly sql := by
  intro hall
  obtain ⟨tokens, htokens, hsplit⟩ := hall "/**/"
  have hno := (split_eq_statements_iff htokens).mp hsplit
  rw [htokens.unique lexes_empty_comment] at hno
  simp [Token.closedComment] at hno

end SplitSql

end Sieshka
