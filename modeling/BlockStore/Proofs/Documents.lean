import BlockStore.Proofs.Precedence
import BlockStore.Proofs.Strings

/-!
# Settings that are read back

A file of settings is written line by line: the headers of the sections, and below each the settings that it
has. A line says the same wherever it stands, so what a file says is what its lines say, one after the other.

## Main definitions

* `Toml.StandsFor`: the characters of a value, when a line ends after them.
* `Toml.Says`: a line and what it says.
* `Toml.Lines`: lines and what they say.

## Main results

* `Toml.standsFor_toDigits`, `standsFor_writeSwitch`, `standsFor_writeString`: values that are written.
* `Toml.Lines.readStatements_eq`: lines are read one after the other.
* `Config.load_toToml`: settings that are written are read back.
-/

namespace BlockStore

namespace Toml

variable {c d : Char} {s rest digits piece line text : List Char} {n : Nat} {name : String} {v : Value}
  {statement : Statement} {statements : List Statement}

/-- Characters that are read as a value when a line ends after them. -/
structure StandsFor (piece : List Char) (v : Value) : Prop where
  /-- They do not start with a blank. -/
  skipBlanks_eq : ∀ rest, skipBlanks (piece ++ '\n' :: rest) = piece ++ '\n' :: rest
  /-- They are read. -/
  readValue_eq : ∀ rest, readValue (piece ++ '\n' :: rest) = some (v, '\n' :: rest)

/-! ### Single characters -/

theorem skipBlanks_cons (hspace : c ≠ ' ') (htab : c ≠ '\t') (s : List Char) :
    skipBlanks (c :: s) = c :: s := by
  simp [skipBlanks, hspace, htab]

/-- Characters of which one is of a kind and the other is not are different. -/
theorem ne_of_kind {kind : Char → Bool} (hc : kind c) (hd : kind d = false) : c ≠ d := by
  rintro rfl
  rw [hc] at hd
  cases hd

theorem literal_eq_none (word : String) (h : s.head? ≠ word.toList.head?) (hword : word.toList ≠ []) :
    literal word s = none := by
  rw [literal, if_neg]
  cases hw : word.toList with
  | nil => exact absurd hw hword
  | cons w ws =>
    rw [hw] at h
    cases s with
    | nil => simp
    | cons c s =>
      have hc : w ≠ c := fun heq => h (by simp [heq])
      simp [List.isPrefixOf, hc]

/-! ### Numbers -/

theorem head?_toDigits (h : n ≠ 0) : (Nat.toDigits 10 n).head? ≠ some '0' := by
  induction n using Nat.strongRecOn with
  | ind n ih =>
    by_cases hn : n < 10
    · rw [Nat.toDigits_of_lt_base hn]
      simpa using h
    · have hne := Nat.toDigits_ne_nil (n := n / 10) (b := 10)
      have hhead := ih (n / 10) (by omega) (by omega)
      rw [List.head?_eq_some_head hne] at hhead
      rwa [Nat.toDigits_of_base_le (by decide) (by omega), List.head?_append, List.head?_eq_some_head hne]

theorem hexValue?_digitChar {d : Nat} (h : d < 10) : hexValue? d.digitChar = some d := by
  have hall : ∀ d : Fin 10, hexValue? d.val.digitChar = some d.val := by decide
  exact hall ⟨d, h⟩

/-- The digits of a number write the number. -/
theorem numberOf_toDigits (n : Nat) : numberOf 10 (Nat.toDigits 10 n) = n := by
  rw [numberOf_eq_foldl]
  induction n using Nat.strongRecOn with
  | ind n ih =>
    by_cases hn : n < 10
    · rw [Nat.toDigits_of_lt_base hn]
      simp [pushDigit, hexValue?_digitChar hn]
    · rw [Nat.toDigits_of_base_le (by decide) (by omega), List.foldl_append, ih (n / 10) (by omega)]
      simp only [List.foldl_cons, List.foldl_nil, pushDigit, hexValue?_digitChar (Nat.mod_lt n (by decide)),
        Option.getD_some]
      omega

theorem digitTail_append (hdigits : ∀ c ∈ digits, c.isDigit) (rest : List Char) :
    digitTail Char.isDigit (digits ++ '\n' :: rest) = (digits, '\n' :: rest) := by
  induction digits with
  | nil => cases rest <;> rfl
  | cons d digits ih =>
    have hd := hdigits d List.mem_cons_self
    have hne : d ≠ '_' := ne_of_kind hd (by decide)
    have htail := ih fun c hc => hdigits c (List.mem_cons_of_mem _ hc)
    rw [List.cons_append, digitTail.eq_def]
    split
    case h_1 heq => exact absurd (List.cons.inj heq).1 hne
    case h_2 heq =>
      obtain ⟨rfl, rfl⟩ := List.cons.inj heq
      simp [hd, htail]
    case h_3 heq => cases heq

theorem head?_digits_append (hdigits : ∀ c ∈ digits, c.isDigit) (hc : c.isDigit = false) (hfeed : c ≠ '\n')
    (rest : List Char) : (digits ++ '\n' :: rest).head? ≠ some c := by
  cases digits with
  | nil => simpa using hfeed.symm
  | cons d digits => simpa using ne_of_kind (hdigits d List.mem_cons_self) hc

/-- A field of a point in time that is read from a number leaves digits before the end of the line. -/
theorem head?_of_readField {low high k m : Nat} (hdigits : ∀ c ∈ digits, c.isDigit)
    (h : readField k low high (digits ++ '\n' :: rest) = some (m, s)) (hc : c.isDigit = false)
    (hfeed : c ≠ '\n') : s.head? ≠ some c := by
  rw [readField] at h
  split at h
  case isFalse => cases h
  case isTrue hfield =>
    have hk : k ≤ digits.length := by
      refine Nat.not_lt.1 fun hlt => ?_
      have hmem : '\n' ∈ (digits ++ '\n' :: rest).take k := by
        rw [List.take_append, List.mem_append]
        refine .inr ?_
        obtain ⟨j, hj⟩ := Nat.exists_eq_add_of_lt hlt
        rw [show k - digits.length = j + 1 by omega]
        exact List.mem_cons_self
      exact absurd (List.all_eq_true.1 hfield.2.1 _ hmem) (by decide)
    cases h
    rw [List.drop_append_of_le_length hk]
    exact head?_digits_append (fun c hc => hdigits c (List.mem_of_mem_drop hc)) hc hfeed rest

/-- Digits alone are no point in time. -/
theorem readDatetime_digits (hdigits : ∀ c ∈ digits, c.isDigit) (rest : List Char) :
    readDatetime (digits ++ '\n' :: rest) = none := by
  have hdate : readDate (digits ++ '\n' :: rest) = none := by
    rw [readDate]
    cases hfield : readField 4 0 9999 (digits ++ '\n' :: rest) with
    | none => rfl
    | some field =>
      have hhead := head?_of_readField (c := '-') hdigits hfield (by decide) (by decide)
      simp [literal_eq_none "-" hhead (by decide)]
  have htime : readTime (digits ++ '\n' :: rest) = none := by
    rw [readTime]
    cases hfield : readField 2 0 23 (digits ++ '\n' :: rest) with
    | none => rfl
    | some field =>
      have hhead := head?_of_readField (c := ':') hdigits hfield (by decide) (by decide)
      simp [literal_eq_none ":" hhead (by decide)]
  rw [readDatetime, hdate, htime]
  rfl

theorem readSign_digits (hdigits : ∀ c ∈ digits, c.isDigit) (rest : List Char) :
    readSign (digits ++ '\n' :: rest) = (false, digits ++ '\n' :: rest) := by
  have hplus := head?_digits_append (c := '+') hdigits (by decide) (by decide) rest
  have hminus := head?_digits_append (c := '-') hdigits (by decide) (by decide) rest
  rw [readSign.eq_def]
  split
  case h_1 heq => exact absurd (heq ▸ rfl) hplus
  case h_2 heq => exact absurd (heq ▸ rfl) hminus
  case h_3 => rfl

theorem isDigit_toDigits (n : Nat) : ∀ c ∈ Nat.toDigits 10 n, c.isDigit :=
  fun _ hc => Nat.isDigit_of_mem_toDigits (by decide) (by decide) hc

/-- A number is read digit by digit. -/
theorem readDecimal_toDigits (n : Nat) (rest : List Char) :
    readDecimal (Nat.toDigits 10 n ++ '\n' :: rest) = some ((false, Nat.toDigits 10 n), '\n' :: rest) := by
  by_cases hn : n = 0
  · subst hn
    rfl
  · have hhead := head?_toDigits hn
    have hdigits := isDigit_toDigits n
    rw [readDecimal, readSign_digits hdigits]
    cases htext : Nat.toDigits 10 n with
    | nil => exact absurd htext Nat.toDigits_ne_nil
    | cons d digits =>
      rw [htext] at hhead hdigits
      have hd := hdigits d List.mem_cons_self
      have htail := digitTail_append (fun c hc => hdigits c (List.mem_cons_of_mem _ hc)) rest
      dsimp only
      split
      case h_1 heq => exact absurd (congrArg some (List.cons.inj heq).1) hhead
      case h_2 => simp [digitRun, hd, htail]

/-- Only a zero can be the start of the mark of a base. -/
theorem readInteger_eq {r : List Char} (hhead : s.head? ≠ some '0')
    (hdecimal : readDecimal s = some ((false, digits), r))
    (hrange : inRange (numberOf 10 digits) = some (n : Int)) : readInteger s = some ((n : Int), r) := by
  rw [readInteger.eq_def]
  split
  case h_1 => exact absurd rfl hhead
  case h_2 => exact absurd rfl hhead
  case h_3 => exact absurd rfl hhead
  case h_4 =>
    refine Option.bind_eq_some_iff.2 ⟨_, hdecimal, Option.bind_eq_some_iff.2 ⟨n, ?_, rfl⟩⟩
    rw [if_neg Bool.false_ne_true]
    exact hrange

theorem readInteger_toDigits (hn : n < 1 <<< 63) (rest : List Char) :
    readInteger (Nat.toDigits 10 n ++ '\n' :: rest) = some ((n : Int), '\n' :: rest) := by
  by_cases h0 : n = 0
  · subst h0
    simp [readInteger, readDecimal, readSign, numberOf_eq_foldl, inRange, pushDigit, hexValue?]
  · refine readInteger_eq ?_ (readDecimal_toDigits n rest) ?_
    · have hhead := head?_toDigits h0
      rw [List.head?_eq_some_head Nat.toDigits_ne_nil] at hhead
      rwa [List.head?_append, List.head?_eq_some_head Nat.toDigits_ne_nil]
    · rw [numberOf_toDigits, inRange, if_pos (by omega)]

/-- The digits of a number that takes 63 bits are read as the number. -/
theorem readScalar_toDigits (hn : n < 1 <<< 63) (rest : List Char) :
    readScalar (Nat.toDigits 10 n ++ '\n' :: rest) = some (.integer n, '\n' :: rest) := by
  have hdigits := isDigit_toDigits n
  have hliteral (word : String) (c : Char) (hword : word.toList.head? = some c) (hc : c.isDigit = false)
      (hfeed : c ≠ '\n') : literal word (Nat.toDigits 10 n ++ '\n' :: rest) = none := by
    refine literal_eq_none word ?_ ?_
    · rw [hword]
      exact head?_digits_append hdigits hc hfeed rest
    · intro h
      rw [h] at hword
      cases hword
  have htrue := hliteral "true" 't' (by decide) (by decide) (by decide)
  have hfalse := hliteral "false" 'f' (by decide) (by decide) (by decide)
  have hfraction : readFraction? (Nat.toDigits 10 n ++ '\n' :: rest) = none := by
    rw [readFraction?, readDecimal_toDigits]
    rfl
  have hspecial : readSpecial (Nat.toDigits 10 n ++ '\n' :: rest) = none := by
    have hinf := hliteral "inf" 'i' (by decide) (by decide) (by decide)
    have hnan := hliteral "nan" 'n' (by decide) (by decide) (by decide)
    rw [readSpecial, readSign_digits hdigits]
    simp [hinf, hnan]
  simp [readScalar, readFloat, htrue, hfalse, hfraction, hspecial, readDatetime_digits hdigits,
    readInteger_toDigits hn]

/-! ### Values -/

/-- What starts neither like an array nor like a table is a string or a scalar. -/
theorem readValue_eq (hs : s.head? = some c) (harray : c ≠ '[') (htable : c ≠ '\x7b') :
    readValue s = if c = '"' ∨ c = '\'' then (readString s).map fun (text, r) => (.string text, r)
      else readScalar s := by
  rw [readValue, readNested.eq_def]
  dsimp only
  split
  case h_1 => exact absurd (Option.some.inj hs).symm harray
  case h_2 => exact absurd (Option.some.inj hs).symm htable
  case h_3 =>
    cases hs
    rfl
  case h_4 => cases hs

/-- A number that takes 63 bits. -/
theorem standsFor_toDigits (hn : n < 1 <<< 63) : StandsFor (Nat.toDigits 10 n) (.integer n) := by
  cases htext : Nat.toDigits 10 n with
  | nil => exact absurd htext Nat.toDigits_ne_nil
  | cons d digits =>
    have hd : d.isDigit := isDigit_toDigits n d (htext ▸ List.mem_cons_self)
    constructor
    · exact fun rest => skipBlanks_cons (ne_of_kind hd (by decide)) (ne_of_kind hd (by decide)) _
    · intro rest
      have hne {c : Char} (hc : c.isDigit = false) : d ≠ c := ne_of_kind hd hc
      rw [readValue_eq rfl (hne (by decide)) (hne (by decide)), if_neg, ← htext, readScalar_toDigits hn]
      exact not_or.2 ⟨hne (by decide), hne (by decide)⟩

/-- A truth value. -/
theorem standsFor_writeSwitch (b : Bool) : StandsFor (Config.writeSwitch b).toList (.boolean b) := by
  cases b with
  | true => exact ⟨fun _ => rfl, fun _ => rfl⟩
  | false => exact ⟨fun _ => rfl, fun _ => rfl⟩

/-- A text. -/
theorem standsFor_writeString (text : String) : StandsFor (writeString text) (.string text) := by
  obtain ⟨c, hhead, hc⟩ :
      ∃ c, (∀ rest, (writeString text ++ rest).head? = some c) ∧ (c = '"' ∨ c = '\'') := by
    obtain ⟨f, start, body, -, hwritten, -⟩ := exists_writeString text
    refine ⟨f.quote, fun rest => ?_, quote_eq_or f⟩
    rw [hwritten, StringForm.quotes]
    split <;> rfl
  have hne {d : Char} (hdouble : d ≠ '"') (hsingle : d ≠ '\'') : c ≠ d := by
    rintro rfl
    exact hc.elim hdouble hsingle
  constructor
  · intro rest
    obtain ⟨s, hs⟩ := List.head?_eq_some_iff.1 (hhead ('\n' :: rest))
    rw [hs]
    exact skipBlanks_cons (hne (by decide) (by decide)) (hne (by decide) (by decide)) s
  · intro rest
    have hread : readString (writeString text ++ '\n' :: rest) = some (text, '\n' :: rest) :=
      readString_writeString text (by simp) (by simp)
    rw [readValue_eq (hhead _) (hne (by decide) (by decide)) (hne (by decide) (by decide)), if_pos hc, hread]
    rfl

/-! ### Lines -/

/-- What a line says, wherever it stands. -/
structure Says (line : List Char) (statement : Statement) : Prop where
  /-- It neither ends before it starts nor starts with a blank. -/
  not_blank : ∀ rest, endOfLine? (line ++ '\n' :: rest) = none ∧
    skipBlanks (line ++ '\n' :: rest) = line ++ '\n' :: rest
  /-- It is read. -/
  readStatement_eq : ∀ rest, readStatement (line ++ '\n' :: rest) = some (statement, '\n' :: rest)

/-- Lines and what they say. -/
inductive Lines : List Char → List Statement → Prop where
  /-- No line says nothing. -/
  | nil : Lines [] []
  /-- An empty line says nothing. -/
  | blank {text : List Char} {statements : List Statement} (h : Lines text statements) :
      Lines ('\n' :: text) statements
  /-- A line, and those after it. -/
  | line {line text : List Char} {statement : Statement} {statements : List Statement}
      (hline : Says line statement) (h : Lines text statements) :
      Lines (line ++ '\n' :: text) (statement :: statements)

/-- Lines are read one after the other, if there are enough turns. -/
theorem Lines.readStatements_eq (h : Lines text statements) (hn : text.length < n) :
    readStatements n text = some statements := by
  induction h generalizing n with
  | nil =>
    obtain ⟨m, rfl⟩ := Nat.exists_eq_succ_of_ne_zero (Nat.ne_of_gt hn)
    rfl
  | @blank text statements _ ih =>
    obtain ⟨m, rfl⟩ := Nat.exists_eq_succ_of_ne_zero (Nat.ne_of_gt (Nat.zero_lt_of_lt hn))
    have hrest := ih (n := m) (Nat.lt_of_succ_lt_succ hn)
    have hend : endOfLine? ('\n' :: text) = some text := rfl
    rw [readStatements, hend]
    -- At the end of the text no further turn is taken.
    cases text with
    | nil =>
      obtain ⟨k, rfl⟩ := Nat.exists_eq_succ_of_ne_zero (Nat.ne_of_gt (Nat.lt_of_succ_lt_succ hn))
      exact hrest
    | cons c text => exact hrest
  | @line line text statement statements hline _ ih =>
    obtain ⟨m, rfl⟩ := Nat.exists_eq_succ_of_ne_zero (Nat.ne_of_gt (Nat.zero_lt_of_lt hn))
    have hrest := ih (n := m) (by simp at hn; omega)
    obtain ⟨hend, hblank⟩ := hline.not_blank text
    have hfeed : endOfLine? ('\n' :: text) = some text := rfl
    rw [readStatements, hend, hblank, hline.readStatement_eq]
    simp [hfeed, hrest]

/-! ### What lines say -/

/-- A name that needs no quotes. -/
def isBare (name : String) : Bool := !name.toList.isEmpty && name.toList.all isKeyChar

theorem isKeyChar_of_isBare (hname : isBare name) : ∀ c ∈ name.toList, isKeyChar c := by
  rw [isBare, Bool.and_eq_true] at hname
  exact List.all_eq_true.1 hname.2

theorem exists_cons_of_isBare (hname : isBare name) : ∃ c cs, name.toList = c :: cs ∧ isKeyChar c := by
  cases hchars : name.toList with
  | nil => simp [isBare, hchars] at hname
  | cons c cs => exact ⟨c, cs, rfl, isKeyChar_of_isBare hname c (hchars ▸ List.mem_cons_self)⟩

theorem readPart_name (hname : isBare name) (hc : isKeyChar c = false) (s : List Char) :
    readPart (name.toList ++ c :: s) = some (name, c :: s) := by
  obtain ⟨first, cs, hchars, hfirst⟩ := exists_cons_of_isBare hname
  have hkeys := isKeyChar_of_isBare hname
  have htake : (name.toList ++ c :: s).takeWhile isKeyChar = name.toList := by
    rw [List.takeWhile_append_of_pos hkeys, List.takeWhile_cons_of_neg (by simp [hc]), List.append_nil]
  have hdrop : (name.toList ++ c :: s).dropWhile isKeyChar = c :: s := by
    rw [List.dropWhile_append_of_pos hkeys, List.dropWhile_cons_of_neg (by simp [hc])]
  have hsome : name.toList.isEmpty = false := by rw [hchars, List.isEmpty_cons]
  have hquote : ¬ (first = '"' ∨ first = '\'') :=
    not_or.2 ⟨ne_of_kind hfirst (by decide), ne_of_kind hfirst (by decide)⟩
  rw [hchars, List.cons_append] at htake hdrop ⊢
  rw [readPart, if_neg hquote, htake, hdrop, ← hchars]
  simp [hsome]

/-- A name is a key if no point follows it. -/
theorem readKey_name (hname : isBare name) (hc : isKeyChar c = false) {r : List Char}
    (hr : skipBlanks (c :: s) = r) (hpoint : r.head? ≠ some '.') :
    readKey (name.toList ++ c :: s) = some (⟨[], name⟩, r) := by
  obtain ⟨first, cs, hchars, hfirst⟩ := exists_cons_of_isBare hname
  have hblank : skipBlanks (name.toList ++ c :: s) = name.toList ++ c :: s := by
    rw [hchars]
    exact skipBlanks_cons (ne_of_kind hfirst (by decide)) (ne_of_kind hfirst (by decide)) _
  rw [readKey, nestingRoom, readParts, hblank, readPart_name hname hc]
  simp only [Option.bind_eq_bind, Option.bind_some, hr]
  split
  case h_1 => exact absurd rfl hpoint
  case h_2 => rfl

/-- The header of a section. -/
theorem says_header (hname : isBare name) : Says ('[' :: (name.toList ++ [']'])) (.table ⟨[], name⟩) := by
  refine ⟨fun _ => ⟨rfl, rfl⟩, fun rest => ?_⟩
  obtain ⟨first, cs, hchars, hfirst⟩ := exists_cons_of_isBare hname
  have hkey : readKey (name.toList ++ ']' :: '\n' :: rest) = some (⟨[], name⟩, ']' :: '\n' :: rest) :=
    readKey_name hname (by decide) rfl (by simp)
  rw [List.cons_append, List.append_assoc]
  change readStatement ('[' :: (name.toList ++ ']' :: '\n' :: rest)) = _
  rw [readStatement.eq_def]
  split
  case h_1 heq =>
    rw [hchars] at heq
    exact absurd (List.cons.inj (List.cons.inj heq).2).1 (ne_of_kind hfirst (by decide))
  case h_2 heq =>
    obtain ⟨-, rfl⟩ := List.cons.inj heq
    exact Option.bind_eq_some_iff.2 ⟨_, hkey, rfl⟩
  case h_3 hnot => exact absurd rfl (hnot _)

/-- A setting. -/
theorem says_pair (hname : isBare name) (hv : StandsFor piece v) :
    Says (name.toList ++ ' ' :: '=' :: ' ' :: piece) (.pair ⟨[], name⟩ v) := by
  obtain ⟨first, cs, hchars, hfirst⟩ := exists_cons_of_isBare hname
  have hne {c : Char} (hc : isKeyChar c = false) : first ≠ c := ne_of_kind hfirst hc
  constructor
  · intro rest
    rw [List.append_assoc, hchars, List.cons_append]
    generalize cs ++ (' ' :: '=' :: ' ' :: piece ++ '\n' :: rest) = s
    have hblank : skipBlanks (first :: s) = first :: s :=
      skipBlanks_cons (hne (by decide)) (hne (by decide)) s
    have hcomment : skipComment (first :: s) = first :: s := by
      rw [skipComment.eq_def]
      split
      case h_1 heq => exact absurd (List.cons.inj heq).1 (hne (by decide))
      case h_2 => rfl
    refine ⟨?_, hblank⟩
    rw [endOfLine?, hblank, hcomment]
    exact lineBreak?_cons_eq_none (hne (by decide)) (hne (by decide)) s
  · intro rest
    have hkey : readKey (name.toList ++ ' ' :: '=' :: ' ' :: (piece ++ '\n' :: rest)) =
        some (⟨[], name⟩, '=' :: ' ' :: (piece ++ '\n' :: rest)) :=
      readKey_name hname (by decide) rfl (by simp)
    have hpair : readPair readValue (name.toList ++ ' ' :: '=' :: ' ' :: (piece ++ '\n' :: rest)) =
        some ((⟨[], name⟩, v), '\n' :: rest) := by
      refine Option.bind_eq_some_iff.2 ⟨_, hkey, Option.bind_eq_some_iff.2 ⟨_, rfl, ?_⟩⟩
      refine Option.bind_eq_some_iff.2 ⟨(v, '\n' :: rest), ?_, rfl⟩
      have hskip : skipBlanks (' ' :: (piece ++ '\n' :: rest)) = piece ++ '\n' :: rest :=
        hv.skipBlanks_eq rest
      exact (congrArg readValue hskip).trans (hv.readValue_eq rest)
    rw [List.append_assoc, List.cons_append, List.cons_append, List.cons_append, readStatement.eq_def]
    rw [hchars, List.cons_append] at hpair ⊢
    split
    case h_1 heq => exact absurd (List.cons.inj heq).1 (hne (by decide))
    case h_2 heq => exact absurd (List.cons.inj heq).1 (hne (by decide))
    case h_3 =>
      rw [hpair]
      rfl

end Toml

/-! ### Documents -/

namespace Config

open Toml

variable {c : Config} {key : String} {piece text : List Char} {v : Value} {statements : List Statement}

/-- What the file of the settings says. -/
def said (c : Config) : List Statement :=
  .table ⟨[], "device"⟩ :: ((c.path.map fun s => .pair ⟨[], "path"⟩ (.string s)).toList ++
    .table ⟨[], "format"⟩ :: .pair ⟨[], "dedup"⟩ (.boolean c.dedup) ::
      ((c.sizeBytes.map fun n => .pair ⟨[], "size_bytes"⟩ (.integer n.toNat)).toList ++
        [.table ⟨[], "mount"⟩, .pair ⟨[], "repair_on_mount"⟩ (.boolean c.repairOnMount),
          .table ⟨[], "logging"⟩, .pair ⟨[], "level"⟩ (.string c.level)]))

/-- The table of the settings. -/
def table (c : Config) : Table :=
  [("device", .table (c.path.map fun s => ("path", .string s)).toList),
    ("format", .table (("dedup", .boolean c.dedup) ::
      (c.sizeBytes.map fun n => ("size_bytes", .integer n.toNat)).toList)),
    ("mount", .table [("repair_on_mount", .boolean c.repairOnMount)]),
    ("logging", .table [("level", .string c.level)])]

/-- What the file of the settings says is the table of the settings. -/
theorem build_said (c : Config) :
    ∃ entries, build [] [] c.said = some entries ∧ untagEntries? (Draft.finish entries) = some c.table := by
  obtain ⟨path, dedup, size, repair, level⟩ := c
  cases path <;> cases size <;> exact ⟨_, rfl, rfl⟩

theorem size?_integer (n : UInt64) : size? (.integer n.toNat) = some n := by
  rw [size?, if_pos (Int.natCast_nonneg _), Int.toNat_natCast, UInt64.ofNat_toNat]

/-- The settings are those of their table. -/
theorem ofTable?_table (c : Config) : ofTable? c.table = some c := by
  refine ofTable?_eq_some_iff.2 ⟨fun x => ?_, ?_, rfl, ?_, rfl, rfl⟩
  · cases x <;> exact trivial
  · obtain ⟨path, dedup, size, repair, level⟩ := c
    cases path <;> rfl
  · obtain ⟨path, dedup, size, repair, level⟩ := c
    cases size with
    | none => rfl
    | some n => exact congrArg (Option.map some) (size?_integer n)

/-- The line of a setting. -/
theorem lines_writeLine {value : String} (hkey : isBare key) (hv : StandsFor value.toList v)
    (h : Lines text statements) :
    Lines ((writeLine key value).toList ++ text) (.pair ⟨[], key⟩ v :: statements) := by
  have hline : (writeLine key value).toList ++ text =
      key.toList ++ ' ' :: '=' :: ' ' :: value.toList ++ '\n' :: text := by
    simp [writeLine]
  rw [hline]
  exact .line (says_pair hkey hv) h

/-- The line of a setting that may be missing. -/
theorem lines_writeOptional {α : Type} {setting : Option α} {write : α → String} {value : α → Value}
    (hkey : isBare key) (hv : ∀ a, setting = some a → StandsFor (write a).toList (value a))
    (h : Lines text statements) :
    Lines ((writeOptional key (setting.map write)).toList ++ text)
      ((setting.map fun a => .pair ⟨[], key⟩ (value a)).toList ++ statements) := by
  cases setting with
  | none => simpa [writeOptional] using h
  | some a => exact lines_writeLine hkey (hv a rfl) h

/-- The header of a section. -/
theorem lines_header (header : String) (hkey : isBare key)
    (hheader : header.toList = '[' :: (key.toList ++ [']', '\n'])) (h : Lines text statements) :
    Lines (header.toList ++ text) (.table ⟨[], key⟩ :: statements) := by
  have hline : header.toList ++ text = '[' :: (key.toList ++ [']']) ++ '\n' :: text := by simp [hheader]
  rw [hline]
  exact .line (says_header hkey) h

/-- The file of the settings, line by line. -/
theorem lines_of_toToml {file : String} (h : c.toToml = .ok file) : Lines file.toList c.said := by
  rw [toToml] at h
  split at h
  case isTrue => cases h
  case isFalse hsize =>
    cases h
    have htext (s : String) : StandsFor (String.ofList (writeString s)).toList (.string s) := by
      rw [String.toList_ofList]
      exact standsFor_writeString s
    have hsize (n : UInt64) (hn : c.sizeBytes = some n) :
        StandsFor (toString n.toNat).toList (.integer n.toNat) := by
      rw [hn] at hsize
      rw [Nat.toString_eq_ofList_toDigits, String.toList_ofList]
      exact standsFor_toDigits (by simpa using hsize)
    simp only [String.toList_append, List.append_assoc]
    refine lines_header "[device]\n" (by decide) (by decide) ?_
    refine lines_writeOptional (by decide) (fun s _ => htext s) ?_
    refine .blank (lines_header "[format]\n" (by decide) (by decide) ?_)
    refine lines_writeLine (by decide) (standsFor_writeSwitch c.dedup) ?_
    refine lines_writeOptional (by decide) hsize ?_
    refine .blank (lines_header "[mount]\n" (by decide) (by decide) ?_)
    refine lines_writeLine (by decide) (standsFor_writeSwitch c.repairOnMount) ?_
    refine .blank (lines_header "[logging]\n" (by decide) (by decide) ?_)
    simpa using lines_writeLine (by decide : isBare "level") (htext c.level) .nil

/-- The file of the settings holds their table. -/
theorem parse_of_toToml {file : String} (h : c.toToml = .ok file) : parse file = some c.table := by
  have hlines := lines_of_toToml h
  have hmark : skipMark file.toList = file.toList := by
    rw [toToml] at h
    split at h
    · cases h
    · cases h
      simp only [String.toList_append, List.append_assoc]
      rfl
  obtain ⟨entries, hbuild, htable⟩ := build_said c
  rw [parse, hmark, hlines.readStatements_eq (Nat.lt_succ_self _)]
  simp only [Option.bind_eq_bind, Option.bind_some, hbuild, htable]

/-- Settings that are written are read back. -/
theorem load_toToml {file : String} (h : c.toToml = .ok file) :
    load [some (.ok file.toUTF8)] = .ok c := by
  have hparse := parse_of_toToml h
  have hmerged : mergeFiles [] [some (.ok file.toUTF8)] = .ok c.table :=
    mergeFiles_cons_eq_ok_iff.2
      ⟨c.table, .document hparse, congrArg Except.ok (Table.merge_nil_left (proper_of_parse hparse))⟩
  exact load_eq_ok_iff.2 ⟨c.table, hmerged, ofTable?_table c⟩

/-- Settings can be written unless they have a size that takes more than 63 bits. -/
theorem toToml_cases (c : Config) :
    (∃ file, c.toToml = .ok file ∧ ∀ n, c.sizeBytes = some n → n.toNat < 1 <<< 63) ∨
      c.toToml = .error .sizeOutOfRange ∧ ∃ n, c.sizeBytes = some n ∧ 1 <<< 63 ≤ n.toNat := by
  rw [toToml]
  split
  case isTrue hsize =>
    obtain ⟨n, hn, hlarge⟩ := (Option.any_eq_true _ _).1 hsize
    exact .inr ⟨rfl, n, hn, of_decide_eq_true hlarge⟩
  case isFalse hsize =>
    refine .inl ⟨_, rfl, fun n hn => Nat.not_le.1 fun hlarge => hsize ?_⟩
    exact (Option.any_eq_true _ _).2 ⟨n, hn, decide_eq_true hlarge⟩

end Config

end BlockStore
