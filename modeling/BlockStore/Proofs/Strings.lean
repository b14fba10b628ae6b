import BlockStore.Toml.Str
import Mathlib.Tactic.SplitIfs

/-!
# Strings that are read back

A text is written in the form that suits it, and reading undoes whatever that form did to it. The reader
looks at one character after the other, but for quotes: of those it counts how many stand together, to tell
quotes of the text from the closing ones. So what may stand in a string depends on the quotes just before,
and that is all it depends on. `Toml.Spells` says it, for all forms at once.

## Main definitions

* `Toml.Spells`: characters between quotes stand for a text.

## Main results

* `Toml.Spells.readBody_eq`: what is spelled is read.
* `Toml.spells_writeEscaped`, `Toml.spells_self`: a text with escapes, and a text as it is.
* `Toml.readString_writeString`: a text that is written is read back.
-/

namespace BlockStore

namespace Toml

variable {f : StringForm} {run : Nat} {c : Char} {piece text body rest s : List Char}

/-! ### What stands for a text -/

/-- Characters stand for a text in a form when `run` quotes of the text stand just before them. -/
inductive Spells (f : StringForm) : Nat → List Char → List Char → Prop where
  /-- Nothing stands for nothing. -/
  | nil {run : Nat} : Spells f run [] []
  /-- On several lines one or two quotes stand for themselves. -/
  | quote {run : Nat} {text body : List Char} (hlines : f.lines) (hrun : run < 2)
      (h : Spells f (run + 1) text body) : Spells f run (f.quote :: text) (f.quote :: body)
  /-- A character that is neither a control nor special stands for itself. -/
  | plain {run : Nat} {c : Char} {text body : List Char} (hquote : c ≠ f.quote)
      (hbackslash : f.escapes → c ≠ '\\') (hplain : isPlain c) (h : Spells f 0 text body) :
      Spells f run (c :: text) (c :: body)
  /-- On several lines a line feed stands for itself. -/
  | lineFeed {run : Nat} {text body : List Char} (hlines : f.lines) (h : Spells f 0 text body) :
      Spells f run ('\n' :: text) ('\n' :: body)
  /-- An escape stands for its character. -/
  | escape {run : Nat} {c : Char} {piece text body : List Char} (hescapes : f.escapes)
      (hread : ∀ rest, escape? (piece ++ rest) = some (c, piece.length))
      (hbreak : ∀ rest, swallowedBreak? (piece ++ rest) = none) (h : Spells f 0 text body) :
      Spells f run (c :: text) ('\\' :: (piece ++ body))

/-! ### One step of the reader -/

theorem quote_eq_or (f : StringForm) : f.quote = '"' ∨ f.quote = '\'' := by
  rw [StringForm.quote]
  split
  · exact .inl rfl
  · exact .inr rfl

theorem ne_quote_of_lineBreak (h : c = '\n' ∨ c = '\r' ∨ c = '\\') : c ≠ f.quote := by
  rcases h with rfl | rfl | rfl <;> rcases quote_eq_or f with h | h <;> rw [h] <;> decide

theorem readBody_close_line (hlines : f.lines = false) (rest : List Char) :
    readBody f (f.quote :: rest) = some ([], rest) := by
  rw [readBody]
  simp [hlines]

theorem readBody_plain (hquote : c ≠ f.quote) (hbackslash : f.escapes → c ≠ '\\') (hplain : isPlain c)
    (rest : List Char) :
    readBody f (c :: rest) = (readBody f rest).map fun (text, r) => (c :: text, r) := by
  have hescape : ¬ (c = '\\' ∧ f.escapes) := fun h => hbackslash h.2 h.1
  rw [readBody.eq_def]
  simp only [if_neg hquote, if_neg hescape, if_pos hplain]

theorem readBody_lineFeed (hlines : f.lines) (rest : List Char) :
    readBody f ('\n' :: rest) = (readBody f rest).map fun (text, r) => ('\n' :: text, r) := by
  have hquote : '\n' ≠ f.quote := ne_quote_of_lineBreak (.inl rfl)
  have hescape : ¬ ('\n' = '\\' ∧ f.escapes) := fun h => absurd h.1 (by decide)
  rw [readBody.eq_def]
  simp only [if_neg hquote, if_neg hescape, show isPlain '\n' = false by decide, hlines, if_true,
    Bool.false_eq_true, if_false]
  split
  case h_1 r hr =>
    cases hr
    rfl
  case h_2 hr => cases hr

theorem readBody_escape (hescapes : f.escapes)
    (hread : ∀ rest, escape? (piece ++ rest) = some (c, piece.length))
    (hbreak : ∀ rest, swallowedBreak? (piece ++ rest) = none) (rest : List Char) :
    readBody f ('\\' :: (piece ++ rest)) = (readBody f rest).map fun (text, r) => (c :: text, r) := by
  have hquote : '\\' ≠ f.quote := ne_quote_of_lineBreak (.inr (.inr rfl))
  rw [readBody.eq_def]
  simp only [if_neg hquote, hescapes, and_true, if_true]
  split
  case h_1 r hr =>
    split at hr
    · rw [hbreak] at hr
      cases hr
    · cases hr
  case h_2 => simp only [hread, List.drop_left]

/-- Fewer than three quotes together do not close a string of several lines. -/
theorem readBody_quote (hlines : f.lines)
    (h : 1 + (rest.takeWhile (· = f.quote)).length < 3) :
    readBody f (f.quote :: rest) = (readBody f rest).map fun (text, r) => (f.quote :: text, r) := by
  rw [readBody.eq_def]
  simp only [if_true, hlines]
  exact if_pos h

/-- From three to five quotes together close a string of several lines; the last three do. -/
theorem readBody_close (hlines : f.lines) {k : Nat} (hk : k ≤ 2) (hrest : rest.head? ≠ some f.quote) :
    readBody f (List.replicate (k + 3) f.quote ++ rest) = some (List.replicate k f.quote, rest) := by
  have hnone : rest.takeWhile (· = f.quote) = [] := by
    cases rest with
    | nil => rfl
    | cons c rest => simpa [List.takeWhile_cons] using hrest
  have hcount : 1 + ((List.replicate (k + 2) f.quote ++ rest).takeWhile (· = f.quote)).length = k + 3 := by
    rw [List.takeWhile_append_of_pos (by simp), hnone]
    simp
    omega
  rw [List.replicate_succ, List.cons_append, readBody.eq_def]
  simp only [if_true, hlines, hcount]
  rw [if_neg (by omega), if_pos (by omega), ← List.cons_append, ← List.replicate_succ]
  simp

/-! ### The reader -/

/-- A spelling starts with so few quotes that there are at most two with those before it. Then either that was
all, or another character follows. -/
theorem Spells.leading (h : Spells f run text body) (hrun : run ≤ 2) :
    ∃ k, run + k ≤ 2 ∧ ((text = List.replicate k f.quote ∧ body = List.replicate k f.quote) ∨
      ∃ c after, c ≠ f.quote ∧ body = List.replicate k f.quote ++ c :: after) := by
  induction h with
  | nil => exact ⟨0, hrun, .inl ⟨rfl, rfl⟩⟩
  | quote hlines hlt _ ih =>
    obtain ⟨k, hk, hbody⟩ := ih (by omega)
    refine ⟨k + 1, by omega, ?_⟩
    rcases hbody with ⟨rfl, rfl⟩ | ⟨c, after, hc, rfl⟩
    · exact .inl ⟨List.replicate_succ.symm, List.replicate_succ.symm⟩
    · exact .inr ⟨c, after, hc, by rw [List.replicate_succ, List.cons_append]⟩
  | plain hquote => exact ⟨0, hrun, .inr ⟨_, _, hquote, rfl⟩⟩
  | lineFeed => exact ⟨0, hrun, .inr ⟨_, _, ne_quote_of_lineBreak (.inl rfl), rfl⟩⟩
  | escape => exact ⟨0, hrun, .inr ⟨_, _, ne_quote_of_lineBreak (.inr (.inr rfl)), rfl⟩⟩

/-- What is spelled is read, up to the closing quotes. -/
theorem Spells.readBody_eq (h : Spells f run text body) (hrun : run ≤ 2)
    (hrest : rest.head? ≠ some f.quote) :
    readBody f (body ++ f.quotes ++ rest) = some (text, rest) := by
  induction h with
  | nil =>
    cases hlines : f.lines with
    | false => simpa [StringForm.quotes, hlines] using readBody_close_line hlines rest
    | true => simpa [StringForm.quotes, hlines] using readBody_close hlines (Nat.zero_le 2) hrest
  | @quote run text body hlines hlt h ih =>
    obtain ⟨k, hk, hbody⟩ := h.leading (by omega)
    rcases hbody with ⟨rfl, rfl⟩ | ⟨c, after, hc, rfl⟩
    · -- All that is left are quotes, so they are counted together with the closing ones.
      have hquotes : f.quote :: List.replicate k f.quote ++ f.quotes ++ rest =
          List.replicate (k + 1 + 3) f.quote ++ rest := by
        rw [StringForm.quotes, hlines, if_pos rfl, ← List.replicate_succ, List.replicate_append_replicate]
      rw [hquotes, readBody_close hlines (by omega) hrest, List.replicate_succ]
    · have hcount : 1 + ((List.replicate k f.quote ++ c :: after ++ f.quotes ++ rest).takeWhile
          (· = f.quote)).length < 3 := by
        simp only [List.append_assoc]
        rw [List.takeWhile_append_of_pos (by simp)]
        simp [hc]
        omega
      have hread := ih (by omega)
      rw [List.cons_append, List.cons_append, readBody_quote hlines hcount, hread]
      rfl
  | plain hquote hbackslash hplain _ ih =>
    rw [List.cons_append, List.cons_append, readBody_plain hquote hbackslash hplain, ih (Nat.zero_le 2)]
    rfl
  | lineFeed hlines _ ih =>
    rw [List.cons_append, List.cons_append, readBody_lineFeed hlines, ih (Nat.zero_le 2)]
    rfl
  | escape hescapes hread hbreak _ ih =>
    rw [List.cons_append, List.cons_append, List.append_assoc, List.append_assoc,
      readBody_escape hescapes hread hbreak, ← List.append_assoc, ih (Nat.zero_le 2)]
    rfl

/-! ### Texts with escapes -/

theorem hexValue?_toUpper_hexDigit {n : Nat} (h : n < 16) : hexValue? (hexDigit n).toUpper = some n := by
  have hall : ∀ m : Fin 16, hexValue? (hexDigit m).toUpper = some m.val := by decide
  exact hall ⟨n, h⟩

/-- A control is read from its number. -/
theorem escape?_number (hsmall : c.toNat < 256) (rest : List Char) :
    escape? ('u' :: '0' :: '0' :: (hexDigit (c.toNat / 16)).toUpper ::
      (hexDigit (c.toNat % 16)).toUpper :: rest) = some (c, 5) := by
  have hhigh := hexValue?_toUpper_hexDigit (n := c.toNat / 16) (by omega)
  have hlow := hexValue?_toUpper_hexDigit (n := c.toNat % 16) (by omega)
  have hnumber : hexNumber? 4 ('0' :: '0' :: (hexDigit (c.toNat / 16)).toUpper ::
      (hexDigit (c.toNat % 16)).toUpper :: rest) = some c.toNat := by
    simp [hexNumber?, hhigh, hlow, show hexValue? '0' = some 0 by decide]
    omega
  have hscalar : scalar? c.toNat = some c := by
    rw [scalar?, if_pos (.inl (by omega)), Char.ofNat_toNat]
  simp [escape?, hnumber, hscalar]

theorem toNat_lt_of_not_plain (h : isPlain c = false) : c.toNat < 256 := by
  simp only [isPlain, Bool.or_eq_false_iff, Bool.and_eq_false_iff] at h
  rcases h.2 with h | h
  · have := of_decide_eq_false h
    omega
  · have : c.toNat = 0x7f := by simpa using h
    omega

/-- A character other than a quote as it is written. -/
theorem spells_writeChar {lines : Bool} (hquote : c ≠ '"') (h : Spells ⟨true, lines⟩ 0 text body) :
    Spells ⟨true, lines⟩ run (c :: text) (writeChar lines c ++ body) := by
  have hletter {c letter : Char} (hread : ∀ rest, escape? (letter :: rest) = some (c, 1))
      (hbreak : ∀ rest, swallowedBreak? (letter :: rest) = none) :
      Spells ⟨true, lines⟩ run (c :: text) ('\\' :: letter :: body) :=
    @Spells.escape _ _ _ [letter] _ _ rfl hread hbreak h
  rw [writeChar]
  split_ifs with hback htab hfeed hlines hform hreturn hbackslash hplain
  · exact hback ▸ hletter (fun _ => rfl) fun _ => rfl
  · exact htab ▸ hletter (fun _ => rfl) fun _ => rfl
  · subst hfeed
    exact .lineFeed hlines h
  · exact hfeed ▸ hletter (fun _ => rfl) fun _ => rfl
  · exact hform ▸ hletter (fun _ => rfl) fun _ => rfl
  · exact hreturn ▸ hletter (fun _ => rfl) fun _ => rfl
  · subst hbackslash
    exact hletter (fun _ => rfl) fun _ => rfl
  · exact .plain hquote (fun _ => hbackslash) hplain h
  · have hsmall := toNat_lt_of_not_plain (Bool.eq_false_iff.2 hplain)
    exact @Spells.escape _ _ _ ['u', '0', '0', _, _] _ _ rfl (escape?_number hsmall) (fun _ => rfl) h

/-- A text between double quotes, with escapes. -/
theorem spells_writeEscaped (lines : Bool) (run : Nat) (text : List Char) :
    Spells ⟨true, lines⟩ run text (writeEscaped lines run text) := by
  induction text generalizing run with
  | nil => exact .nil
  | cons c text ih =>
    rw [writeEscaped]
    split
    case isTrue hc =>
      subst hc
      split
      case isTrue h => exact .quote h.1 h.2 (ih _)
      case isFalse => exact @Spells.escape _ _ _ ['"'] _ _ rfl (fun _ => rfl) (fun _ => rfl) (ih 0)
    case isFalse hc => exact spells_writeChar hc (ih 0)

/-! ### Texts as they are -/

theorem le_longestRun (c : Char) (current : Nat) (s : List Char) : current ≤ longestRun c current s := by
  induction s generalizing current with
  | nil => exact Nat.le_refl _
  | cons x s ih =>
    rw [longestRun]
    split
    · exact Nat.le_of_succ_le (ih _)
    · exact Nat.le_max_left ..

/-- A text stands for itself if nothing in it is special. -/
theorem spells_self (hcontrols : s.any isBareControl = false) (hbackslash : f.escapes → '\\' ∉ s)
    (hlines : '\n' ∈ s → f.lines) (hrun : longestRun f.quote run s ≤ if f.lines then 2 else 0) :
    Spells f run s s := by
  induction s generalizing run with
  | nil => exact .nil
  | cons c s ih =>
    rw [List.any_cons, Bool.or_eq_false_iff] at hcontrols
    have hbackslash' (h : f.escapes) : '\\' ∉ s := fun hmem => hbackslash h (List.mem_cons_of_mem _ hmem)
    have hlines' (h : '\n' ∈ s) : f.lines := hlines (List.mem_cons_of_mem _ h)
    have hrest {run : Nat} := @ih run hcontrols.2 hbackslash' hlines'
    rw [longestRun] at hrun
    split at hrun
    case isTrue hc =>
      subst hc
      have hle := Nat.le_trans (le_longestRun f.quote (run + 1) s) hrun
      cases hl : f.lines with
      | false => simp [hl] at hle
      | true =>
        rw [hl, if_pos rfl] at hle
        exact .quote hl hle (hrest hrun)
    case isFalse hc =>
      have h := hrest (Nat.le_trans (Nat.le_max_right ..) hrun)
      cases hplain : isPlain c with
      | true => exact .plain hc (fun hescapes heq => hbackslash hescapes (heq ▸ List.mem_cons_self)) hplain h
      | false =>
        have hfeed : c = '\n' := by simpa [isBareControl, hplain] using hcontrols.1
        subst hfeed
        exact .lineFeed (hlines List.mem_cons_self) h

/-! ### Strings -/

/-- A text is written as it is only if it can be. -/
theorem chooseForm_cases (s : List Char) :
    (∃ lines, chooseForm s = ⟨true, lines⟩) ∨
      ∃ lines, chooseForm s = ⟨false, lines⟩ ∧ s.any isBareControl = false ∧ ('\n' ∈ s → lines) ∧
        longestRun '\'' 0 s ≤ if lines then 2 else 0 := by
  rw [chooseForm]
  split_ifs with hbasic hliteral hlines hliterals
  · exact .inl ⟨_, rfl⟩
  · exact .inr ⟨_, rfl, by simp_all⟩
  · exact .inl ⟨_, rfl⟩
  · exact .inr ⟨_, rfl, by simp_all⟩
  · exact .inl ⟨_, rfl⟩

/-- What stands between the quotes spells the text. -/
theorem spells_chooseForm (s : List Char) :
    Spells (chooseForm s) 0 s
      (if (chooseForm s).escapes then writeEscaped (chooseForm s).lines 0 s else s) := by
  rcases chooseForm_cases s with ⟨lines, h⟩ | ⟨lines, h, hcontrols, hlines, hrun⟩
  · rw [h]
    exact spells_writeEscaped lines 0 s
  · rw [h]
    exact spells_self hcontrols (fun h => nomatch h) hlines hrun

theorem lineBreak?_cons_eq_none (hfeed : c ≠ '\n') (hreturn : c ≠ '\r') (s : List Char) :
    lineBreak? (c :: s) = none := by
  rw [lineBreak?.eq_def]
  split
  case h_1 heq => exact absurd (List.cons.inj heq).1 hfeed
  case h_2 heq => exact absurd (List.cons.inj heq).1 hreturn
  case h_3 => rfl

/-- A string does not start with a line break unless its text has one. -/
theorem Spells.lineBreak?_eq_none (h : Spells f run text body) (hfeed : '\n' ∉ text) (rest : List Char) :
    lineBreak? (body ++ f.quotes ++ rest) = none := by
  have hquote (rest : List Char) : lineBreak? (f.quote :: rest) = none :=
    lineBreak?_cons_eq_none (ne_quote_of_lineBreak (.inl rfl)).symm
      (ne_quote_of_lineBreak (.inr (.inl rfl))).symm rest
  cases h with
  | nil =>
    rw [StringForm.quotes]
    split <;> exact hquote _
  | quote => exact hquote _
  | plain _ _ hplain =>
    refine lineBreak?_cons_eq_none ?_ ?_ _
    · rintro rfl
      exact absurd hplain (by decide)
    · rintro rfl
      exact absurd hplain (by decide)
  | lineFeed => exact absurd List.mem_cons_self hfeed
  | escape => exact lineBreak?_cons_eq_none (by decide) (by decide) _

/-- On one line a string goes on with a quote only if that is the closing one. -/
theorem Spells.head?_ne_quote (h : Spells f run text body) (hlines : f.lines = false) :
    body.head? ≠ some f.quote := by
  cases h with
  | nil => simp
  | quote hlines' => simp [hlines] at hlines'
  | plain hquote => simpa using hquote
  | lineFeed hlines' => simp [hlines] at hlines'
  | escape => simpa using ne_quote_of_lineBreak (.inr (.inr rfl))

/-- On one line a string does not open with threefold quotes, if no quote follows it. -/
theorem Spells.not_threefold (h : Spells f run text body) (hlines : f.lines = false)
    (hrest : rest.head? ≠ some f.quote) :
    [f.quote, f.quote, f.quote].isPrefixOf (f.quote :: (body ++ f.quote :: rest)) = false := by
  have hhead := h.head?_ne_quote hlines
  cases body with
  | nil =>
    cases rest with
    | nil => simp [List.isPrefixOf]
    | cons c rest =>
      have hc : f.quote ≠ c := fun h => hrest (h ▸ rfl)
      simp [List.isPrefixOf, hc]
  | cons c body =>
    have hc : f.quote ≠ c := fun h => hhead (h ▸ rfl)
    simp [List.isPrefixOf, hc]

theorem openQuotes?_append (f : StringForm) (s : List Char) :
    openQuotes? f (f.quotes ++ s) = some (if f.lines then (lineBreak? s).getD s else s) := by
  have hprefix : f.quotes.isPrefixOf (f.quotes ++ s) := by simp
  rw [openQuotes?, if_pos hprefix, List.drop_left]

theorem openQuotes?_eq_none (h : f.quotes.isPrefixOf s = false) : openQuotes? f s = none := by
  rw [openQuotes?, if_neg (by simp [h])]

theorem head?_of_openQuotes (h : (openQuotes? f s).isSome) : s.head? = some f.quote := by
  rw [openQuotes?] at h
  split at h
  case isTrue hprefix =>
    obtain ⟨after, rfl⟩ := List.isPrefixOf_iff_prefix.1 hprefix
    rw [StringForm.quotes]
    split <;> rfl
  case isFalse => cases h

/-- What opens with quotes of one kind does not open with those of the other. -/
theorem openQuotes?_of_other {g : StringForm} (h : (openQuotes? f s).isSome) (hother : g.quote ≠ f.quote) :
    openQuotes? g s = none := by
  refine Option.not_isSome_iff_eq_none.1 fun hg => hother ?_
  exact Option.some.inj ((head?_of_openQuotes hg).symm.trans (head?_of_openQuotes h))

/-- What is written between the quotes spells the text. A text that has line breaks starts on a line of its
own if it spans lines. -/
theorem exists_writeString (text : String) :
    ∃ f start body, Spells f 0 text.toList body ∧ writeString text = f.quotes ++ start ++ body ++ f.quotes ∧
      (f.lines ∧ start = ['\n'] ∨ start = [] ∧ (f.lines → '\n' ∉ text.toList)) := by
  refine ⟨_, _, _, spells_chooseForm text.toList, rfl, ?_⟩
  split
  case isTrue h => exact .inl ⟨h.1, rfl⟩
  case isFalse h => exact .inr ⟨rfl, fun hlines hfeed => h ⟨hlines, by simpa using hfeed⟩⟩

/-- The opening quotes end where the spelling starts. -/
theorem Spells.openQuotes?_eq {start : List Char} (h : Spells f run text body)
    (hstart : f.lines ∧ start = ['\n'] ∨ start = [] ∧ (f.lines → '\n' ∉ text)) (rest : List Char) :
    openQuotes? f (f.quotes ++ start ++ body ++ f.quotes ++ rest) = some (body ++ f.quotes ++ rest) := by
  simp only [List.append_assoc, openQuotes?_append]
  rcases hstart with ⟨hlines, rfl⟩ | ⟨rfl, hfeed⟩
  · rw [hlines]
    rfl
  · cases hlines : f.lines with
    | false => rfl
    | true =>
      have hnone := h.lineBreak?_eq_none (hfeed hlines) rest
      rw [List.append_assoc] at hnone
      simp [hnone]

/-- A string is read in the form that it opens in, of one line only if its quotes are not threefold. -/
theorem readString_eq {r : String × List Char} (hopen : (openQuotes? f s).isSome)
    (hthree : f.lines = false → [f.quote, f.quote, f.quote].isPrefixOf s = false)
    (hform : readForm f s = some r) : readString s = some r := by
  rw [readString]
  obtain ⟨escapes, lines⟩ := f
  cases escapes with
  | true =>
    cases lines with
    | true => rw [if_pos hopen, hform]
    | false =>
      have hdouble : openQuotes? ⟨true, true⟩ s = none := openQuotes?_eq_none (hthree rfl)
      have hsingle : openQuotes? ⟨false, true⟩ s = none := openQuotes?_of_other hopen (by decide)
      rw [hdouble, hsingle, readLineString, hform]
      rfl
  | false =>
    have hdouble (lines' : Bool) : openQuotes? ⟨true, lines'⟩ s = none :=
      openQuotes?_of_other hopen (by simp [StringForm.quote])
    cases lines with
    | true => rw [hdouble, if_neg (by simp), if_pos hopen, hform]
    | false =>
      have hsingle : openQuotes? ⟨false, true⟩ s = none := openQuotes?_eq_none (hthree rfl)
      have hnone : readForm ⟨true, false⟩ s = none := by rw [readForm, hdouble]; rfl
      rw [hdouble, hsingle, readLineString, hnone, hform]
      rfl

/-- A text that is written is read back, if no quote follows it. -/
theorem readString_writeString (text : String) (hdouble : rest.head? ≠ some '"')
    (hsingle : rest.head? ≠ some '\'') : readString (writeString text ++ rest) = some (text, rest) := by
  obtain ⟨f, start, body, hspells, hwritten, hstart⟩ := exists_writeString text
  rw [hwritten]
  have hrest : rest.head? ≠ some f.quote := by rcases quote_eq_or f with h | h <;> rwa [h]
  have hopen := hspells.openQuotes?_eq hstart rest
  refine readString_eq (by rw [hopen]; rfl) (fun hlines => ?_) ?_
  · obtain rfl : start = [] := by
      rcases hstart with ⟨hlines', -⟩ | ⟨h, -⟩
      · rw [hlines] at hlines'
        cases hlines'
      · exact h
    simpa [StringForm.quotes, hlines] using hspells.not_threefold hlines hrest
  · rw [readForm, hopen]
    simp only [Option.bind_eq_bind, Option.bind_some, hspells.readBody_eq (Nat.zero_le 2) hrest]
    simp

end Toml

end BlockStore
