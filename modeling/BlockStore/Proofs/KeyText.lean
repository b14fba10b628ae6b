import BlockStore.Error
import Mathlib.Data.UInt

/-!
# The written form of keys

A key is written by exactly 40 hex digits. The reader takes either case, the writer uses lower case, so
each key has one form in lower case and the texts that name it are the spellings of that form.

A text comes from outside as UTF-8, and there the length that counts is the one in bytes. A text of 40
bytes may have fewer characters, but then one of them is not a digit, and so is its first byte: reading
the bytes or reading the characters comes to the same.

## Main definitions

* `hexDigits`, `Key.IsText`: the alphabet, and the texts that name a key.
* `Key.decodeBytes`: the reader of the UTF-8 form, which checks the length in bytes first.

## Main results

* `isSome_bytesOfHex?_iff`: which digits stand for bytes.
* `hexOfBytes_eq_map_toLower`: writing what was read puts it in lower case.
* `compare_hexOfBytes`: bytes and their digits have the same lexicographic order.
* `Key.decodeBytes_eq`: both readers agree on every text.
* `Key.texts_determine`: keys and their texts.
-/

namespace BlockStore

/-! ### Digits -/

/-- The hex digits, in either case. -/
def hexDigits : List Char :=
  ['0', '1', '2', '3', '4', '5', '6', '7', '8', '9', 'a', 'b', 'c', 'd', 'e', 'f',
    'A', 'B', 'C', 'D', 'E', 'F']

/-- A property of a character can be checked on the ASCII characters, if no other character matters. -/
theorem forall_char_of_ascii {P : Char → Prop} (hascii : ∀ n < 128, P (Char.ofNat n))
    (hothers : ∀ c : Char, 128 ≤ c.toNat → P c) (c : Char) : P c := by
  by_cases hc : c.toNat < 128
  · have := hascii c.toNat hc
    rwa [Char.ofNat_toNat] at this
  · exact hothers c (Nat.not_lt.1 hc)

theorem hexValue?_of_not_ascii {c : Char} (hc : 128 ≤ c.toNat) : hexValue? c = none := by
  have hle (d : Char) (hd : d.toNat < 128) : ¬ c ≤ d := fun h => by
    have : c.toNat ≤ d.toNat := UInt32.le_iff_toNat_le.1 h
    omega
  rw [hexValue?, if_neg fun h => hle '9' (by decide) h.2, if_neg fun h => hle 'f' (by decide) h.2,
    if_neg fun h => hle 'F' (by decide) h.2]

theorem lt_of_mem_hexDigits {c : Char} (h : c ∈ hexDigits) : c.toNat < 128 := by
  have hall : hexDigits.all (fun c => decide (c.toNat < 128)) = true := by decide
  exact of_decide_eq_true (List.all_eq_true.1 hall c h)

/-- A character has a value if it is a digit. -/
theorem isSome_hexValue?_iff (c : Char) : (hexValue? c).isSome ↔ c ∈ hexDigits := by
  refine forall_char_of_ascii (P := fun c => (hexValue? c).isSome ↔ c ∈ hexDigits) (by decide +kernel)
    (fun c hc => ?_) c
  rw [hexValue?_of_not_ascii hc]
  exact iff_of_false (by simp) fun h => absurd (lt_of_mem_hexDigits h) (Nat.not_lt.2 hc)

/-- The digit of a value that was read is the one that was read, in lower case. -/
theorem hexDigit_of_hexValue? {c : Char} {n : Nat} (h : hexValue? c = some n) :
    n < 16 ∧ hexDigit n = c.toLower := by
  have hall := forall_char_of_ascii
    (P := fun c => ∀ n ∈ hexValue? c, n < 16 ∧ hexDigit n = c.toLower) (by decide)
    fun c hc n hn => by
      rw [hexValue?_of_not_ascii hc] at hn
      cases hn
  exact hall c n h

theorem compare_hexDigit {m n : Nat} (hm : m < 16) (hn : n < 16) :
    compare (hexDigit m) (hexDigit n) = compare m n := by
  have hall : ∀ m n : Fin 16, compare (hexDigit m) (hexDigit n) = compare m.val n.val := by decide
  exact hall ⟨m, hm⟩ ⟨n, hn⟩

/-! ### Digits and bytes -/

theorem bytesOfHex?_cons_cons_eq_some_iff {high low : Char} {rest : List Char} {bs : List UInt8} :
    bytesOfHex? (high :: low :: rest) = some bs ↔ ∃ h l tail, hexValue? high = some h ∧
      hexValue? low = some l ∧ bytesOfHex? rest = some tail ∧ bs = UInt8.ofNat (16 * h + l) :: tail := by
  simp only [bytesOfHex?, Option.bind_eq_bind, Option.bind_eq_some_iff, Option.pure_def, Option.some.injEq]
  constructor
  · rintro ⟨h, hh, l, hl, tail, htail, rfl⟩
    exact ⟨h, l, tail, hh, hl, htail, rfl⟩
  · rintro ⟨h, l, tail, hh, hl, htail, rfl⟩
    exact ⟨h, hh, l, hl, tail, htail, rfl⟩

/-- What is read from digits is half as many bytes. -/
theorem length_of_bytesOfHex? : ∀ {l : List Char} {bs : List UInt8}, bytesOfHex? l = some bs →
    l.length = 2 * bs.length
  | [], bs, h => by
    cases h
    rfl
  | [_], bs, h => by cases h
  | high :: low :: rest, bs, h => by
    obtain ⟨_, _, tail, -, -, htail, rfl⟩ := bytesOfHex?_cons_cons_eq_some_iff.1 h
    simp only [List.length_cons, length_of_bytesOfHex? htail]
    omega

/-- Bytes are written by an even number of characters that are all digits. -/
theorem isSome_bytesOfHex?_iff : ∀ l : List Char,
    (bytesOfHex? l).isSome ↔ l.length % 2 = 0 ∧ ∀ c ∈ l, c ∈ hexDigits
  | [] => by simp [bytesOfHex?]
  | [_] => by simp [bytesOfHex?]
  | high :: low :: rest => by
    have hsplit : (bytesOfHex? (high :: low :: rest)).isSome ↔
        (hexValue? high).isSome ∧ (hexValue? low).isSome ∧ (bytesOfHex? rest).isSome := by
      simp only [Option.isSome_iff_exists, bytesOfHex?_cons_cons_eq_some_iff]
      constructor
      · rintro ⟨_, h, l, tail, hh, hl, htail, -⟩
        exact ⟨⟨h, hh⟩, ⟨l, hl⟩, ⟨tail, htail⟩⟩
      · rintro ⟨⟨h, hh⟩, ⟨l, hl⟩, ⟨tail, htail⟩⟩
        exact ⟨_, h, l, tail, hh, hl, htail, rfl⟩
    have hlength : (high :: low :: rest).length % 2 = rest.length % 2 := by
      rw [List.length_cons, List.length_cons]
      omega
    rw [hsplit, isSome_hexValue?_iff, isSome_hexValue?_iff, isSome_bytesOfHex?_iff rest, hlength,
      List.forall_mem_cons, List.forall_mem_cons]
    tauto

/-- Writing what was read gives the digits in lower case. -/
theorem hexOfBytes_eq_map_toLower : ∀ {l : List Char} {bs : List UInt8}, bytesOfHex? l = some bs →
    hexOfBytes bs = l.map Char.toLower
  | [], bs, h => by
    cases h
    rfl
  | [_], bs, h => by cases h
  | high :: low :: rest, bs, h => by
    obtain ⟨m, n, tail, hhigh, hlow, htail, rfl⟩ := bytesOfHex?_cons_cons_eq_some_iff.1 h
    obtain ⟨hm, hm'⟩ := hexDigit_of_hexValue? hhigh
    obtain ⟨hn, hn'⟩ := hexDigit_of_hexValue? hlow
    have hbyte : (UInt8.ofNat (16 * m + n)).toNat = 16 * m + n := by
      rw [UInt8.toNat_ofNat']
      omega
    rw [hexOfBytes, hbyte, show (16 * m + n) / 16 = m by omega, show (16 * m + n) % 16 = n by omega,
      hm', hn', hexOfBytes_eq_map_toLower htail]
    rfl

/-- Two bytes are in the order of their digits, the high one before the low one. -/
theorem compare_byte (a b : UInt8) : compare a b =
    (compare (a.toNat / 16) (b.toNat / 16)).then (compare (a.toNat % 16) (b.toNat % 16)) := by
  have hab : compare a b = compare a.toNat b.toNat := by
    simp [compare, compareOfLessAndEq, UInt8.lt_iff_toNat_lt, ← UInt8.toNat_inj]
  rw [hab]
  rcases Nat.lt_trichotomy (a.toNat / 16) (b.toNat / 16) with h | h | h
  · rw [Nat.compare_eq_lt.2 h, Nat.compare_eq_lt.2 (by omega), Ordering.then.eq_def]
  · rw [Nat.compare_eq_eq.2 h, Ordering.then.eq_def]
    rcases Nat.lt_trichotomy (a.toNat % 16) (b.toNat % 16) with hl | hl | hl
    · rw [Nat.compare_eq_lt.2 hl, Nat.compare_eq_lt.2 (by omega)]
    · rw [Nat.compare_eq_eq.2 hl, Nat.compare_eq_eq.2 (by omega)]
    · rw [Nat.compare_eq_gt.2 hl, Nat.compare_eq_gt.2 (by omega)]
  · rw [Nat.compare_eq_gt.2 h, Nat.compare_eq_gt.2 (by omega), Ordering.then.eq_def]

/-- Bytes are in the lexicographic order of their digits. -/
theorem compare_hexOfBytes (a b : List UInt8) :
    List.compareLex compare (hexOfBytes a) (hexOfBytes b) = List.compareLex compare a b := by
  induction a generalizing b with
  | nil => cases b <;> rfl
  | cons x a ih =>
    cases b with
    | nil => rfl
    | cons y b =>
      have hx := x.toNat_lt
      have hy := y.toNat_lt
      rw [hexOfBytes, hexOfBytes, List.compareLex_cons_cons, List.compareLex_cons_cons,
        List.compareLex_cons_cons, compare_hexDigit (by omega) (by omega),
        compare_hexDigit (by omega) (by omega), compare_byte x y, Ordering.then_assoc]
      congr 2
      exact ih b

/-- Strings are in the lexicographic order of their characters. -/
theorem compare_ofList (l l' : List Char) :
    compare (String.ofList l) (String.ofList l') = List.compareLex compare l l' := by
  have hlists : compare (String.ofList l) (String.ofList l') = compareOfLessAndEq l l' := by
    change compareOfLessAndEq _ _ = _
    simp only [compareOfLessAndEq, String.lt_iff, String.toList_ofList, String.ofList_inj]
  rw [hlists]
  clear hlists
  induction l generalizing l' with
  | nil => cases l' <;> rfl
  | cons c l ih =>
    cases l' with
    | nil => rfl
    | cons c' l' =>
      rw [List.compareLex_cons_cons, ← ih l']
      simp only [compareOfLessAndEq, compare, List.cons_lt_cons_iff, List.cons.injEq]
      by_cases hlt : c < c'
      · simp [hlt]
      · by_cases heq : c = c'
        · simp [heq]
        · simp [hlt, heq]

/-! ### Texts as bytes -/

/-- The UTF-8 form of a text. -/
theorem toList_toUTF8 (s : String) : s.toUTF8.data.toList = s.toList.flatMap String.utf8EncodeChar := by
  rw [String.toUTF8_eq_toByteArray, ← String.utf8Encode_toList, List.utf8Encode, List.toList_data_toByteArray]

theorem length_toList_toUTF8 (s : String) : s.toUTF8.data.toList.length = s.utf8ByteSize := by
  rw [Array.length_toList]
  exact String.size_toByteArray

/-- An ASCII character is one byte, which stands for it. -/
theorem map_utf8EncodeChar_of_ascii {c : Char} (hc : c.toNat < 128) :
    (String.utf8EncodeChar c).map Char.ofUInt8 = [c] := by
  have hall : ∀ n < 128, (String.utf8EncodeChar (Char.ofNat n)).map Char.ofUInt8 = [Char.ofNat n] := by
    decide
  have := hall c.toNat hc
  rwa [Char.ofNat_toNat] at this

/-- Any other character ends in a byte that ASCII does not have. -/
theorem exists_mem_utf8EncodeChar {c : Char} (hc : 128 ≤ c.toNat) :
    ∃ b ∈ String.utf8EncodeChar c, 128 ≤ b.toNat := by
  have hval : 128 ≤ c.val.toNat := hc
  refine ⟨UInt8.ofNat (c.val.toNat % 64 + 128), ?_, ?_⟩
  · rw [String.utf8EncodeChar, if_neg (by omega)]
    split
    · simp
    · split <;> simp
  · rw [UInt8.toNat_ofNat']
    omega

/-- A text of ASCII characters has one byte for each. -/
theorem map_flatMap_utf8EncodeChar {l : List Char} (h : ∀ c ∈ l, c.toNat < 128) :
    (l.flatMap String.utf8EncodeChar).map Char.ofUInt8 = l := by
  induction l with
  | nil => rfl
  | cons c l ih =>
    rw [List.forall_mem_cons] at h
    rw [List.flatMap_cons, List.map_append, map_utf8EncodeChar_of_ascii h.1, ih h.2]
    rfl

/-- So its length in bytes is its length. -/
theorem utf8ByteSize_of_ascii {s : String} (h : ∀ c ∈ s.toList, c.toNat < 128) :
    s.utf8ByteSize = s.toList.length := by
  rw [← length_toList_toUTF8, toList_toUTF8, ← List.length_map Char.ofUInt8, map_flatMap_utf8EncodeChar h]

namespace Key

variable {s s' : String} {k k' : Key}

/-- The key written by the UTF-8 form of a text. The count of bytes is checked first; then each byte is
taken for a digit, whether it is a character of its own or not. -/
def decodeBytes (s : String) : Except StoreError Key :=
  if s.utf8ByteSize = 2 * keySize then
    match ofDigits? (s.toUTF8.data.toList.map Char.ofUInt8) with
    | some k => .ok k
    | none => .error (.invalidKey s)
  else .error (.invalidKey s)

/-- The text consists of exactly 40 hex digits. -/
def IsText (s : String) : Prop := s.length = 40 ∧ ∀ c ∈ s.toList, c ∈ hexDigits

theorem ofDigits?_eq_some_iff {l : List Char} :
    ofDigits? l = some k ↔ bytesOfHex? l = some k.toList := by
  have hk := k.length_toList
  rw [ofDigits?, Option.bind_eq_bind, Option.bind_eq_some_iff]
  constructor
  · rintro ⟨bs, hbs, h⟩
    split at h
    · cases h
      exact hbs
    · cases h
  · intro h
    refine ⟨_, h, ?_⟩
    rw [dif_pos hk]
    rfl

/-- A text stands for a key if it has 40 characters, all of them digits. -/
theorem isSome_ofDigits?_iff (l : List Char) :
    (ofDigits? l).isSome ↔ l.length = 40 ∧ ∀ c ∈ l, c ∈ hexDigits := by
  have hbytes := isSome_bytesOfHex?_iff l
  rw [Option.isSome_iff_exists]
  constructor
  · rintro ⟨k, h⟩
    rw [ofDigits?_eq_some_iff] at h
    have hlength := length_of_bytesOfHex? h
    rw [k.length_toList] at hlength
    exact ⟨hlength, (hbytes.1 (by rw [h]; rfl)).2⟩
  · rintro ⟨hlength, hdigits⟩
    obtain ⟨bs, hbs⟩ := Option.isSome_iff_exists.1 (hbytes.2 ⟨by rw [hlength], hdigits⟩)
    have hsize := length_of_bytesOfHex? hbs
    have hbs' : bs.length = keySize := by
      rw [keySize]
      omega
    exact ⟨⟨bytesOf bs, hbs'⟩, ofDigits?_eq_some_iff.2 hbs⟩

/-- The check of the length refuses no text that is written with digits. -/
theorem decode?_eq (s : String) : decode? s = ofDigits? s.toList := by
  rw [decode?]
  split
  case isTrue => rfl
  case isFalse hsize =>
    refine (Option.not_isSome_iff_eq_none.1 fun hsome => hsize ?_).symm
    obtain ⟨hlength, hdigits⟩ := (isSome_ofDigits?_iff _).1 hsome
    rw [utf8ByteSize_of_ascii fun c hc => lt_of_mem_hexDigits (hdigits c hc), hlength, keySize]

theorem decode_eq (s : String) : decode s = match ofDigits? s.toList with
    | some k => .ok k
    | none => .error (.invalidKey s) := decode?_eq s ▸ rfl

theorem decode_eq_ok_iff : decode s = .ok k ↔ bytesOfHex? s.toList = some k.toList := by
  rw [← ofDigits?_eq_some_iff, decode_eq]
  cases ofDigits? s.toList <;> simp

theorem exists_decode_eq_ok_iff : (∃ k, decode s = .ok k) ↔ IsText s := by
  have := isSome_ofDigits?_iff s.toList
  rw [String.length_toList] at this
  rw [IsText, ← this, decode_eq]
  cases ofDigits? s.toList <;> simp

theorem decode_of_not_isText (h : ¬ IsText s) : decode s = .error (.invalidKey s) := by
  cases hdigits : ofDigits? s.toList with
  | none => rw [decode_eq, hdigits]
  | some k => exact absurd (exists_decode_eq_ok_iff.1 ⟨k, by rw [decode_eq, hdigits]⟩) h

/-- A key is read back from what is written for it. -/
theorem decode_encode (k : Key) : decode k.encode = .ok k := by
  rw [decode_eq_ok_iff, encode, String.toList_ofList, bytesOfHex?_hexOfBytes]

theorem encode_of_decode (h : decode s = .ok k) : k.encode = s.toLower := by
  have hlower : s.toLower.toList = s.toList.map Char.toLower := String.toList_map
  rw [encode, hexOfBytes_eq_map_toLower (decode_eq_ok_iff.1 h), ← String.toList_inj, String.toList_ofList,
    hlower]

/-- No text with a character that is not ASCII stands for a key. -/
theorem ofDigits?_eq_none {l : List Char} {c : Char} (hmem : c ∈ l) (hc : 128 ≤ c.toNat) :
    ofDigits? l = none := by
  rw [← Option.not_isSome_iff_eq_none, isSome_ofDigits?_iff]
  exact fun h => absurd (lt_of_mem_hexDigits (h.2 c hmem)) (Nat.not_lt.2 hc)

/-- Reading the bytes of a text or its characters comes to the same. -/
theorem decodeBytes_eq (s : String) : decodeBytes s = decode s := by
  rw [decode_eq, decodeBytes, toList_toUTF8]
  by_cases hascii : ∀ c ∈ s.toList, c.toNat < 128
  · rw [map_flatMap_utf8EncodeChar hascii, utf8ByteSize_of_ascii hascii]
    by_cases hsize : s.toList.length = 2 * keySize
    · rw [if_pos hsize]
    · have hnone : ofDigits? s.toList = none := by
        rw [← Option.not_isSome_iff_eq_none, isSome_ofDigits?_iff]
        exact fun h => hsize h.1
      rw [if_neg hsize, hnone]
  · -- One character is not ASCII: it is no digit, and neither is its last byte.
    push Not at hascii
    obtain ⟨c, hmem, hc⟩ := hascii
    obtain ⟨b, hb, hhigh⟩ := exists_mem_utf8EncodeChar hc
    have hchar : Char.ofUInt8 b ∈ (s.toList.flatMap String.utf8EncodeChar).map Char.ofUInt8 :=
      List.mem_map_of_mem (List.mem_flatMap.2 ⟨c, hmem, hb⟩)
    rw [ofDigits?_eq_none hmem hc, ofDigits?_eq_none hchar hhigh]
    split <;> rfl

/-- **Keys and their texts determine each other up to case.** A text is accepted exactly if it consists of 40
hex digits, and any other is refused with the text itself in the error. A key is read back from what is
written for it; what is written for a key that was read is the text in lower case, so two texts name one key
exactly if they agree up to case; and keys are ordered as their written forms are. None of this depends on
whether a text is read by characters or by the bytes of its UTF-8 form. -/
theorem texts_determine :
    (∀ s, (∃ k, decode s = .ok k) ↔ IsText s) ∧
      (∀ s, ¬ IsText s → decode s = .error (.invalidKey s)) ∧
      (∀ k : Key, decode k.encode = .ok k) ∧
      (∀ s k, decode s = .ok k → k.encode = s.toLower) ∧
      (∀ s s' k k', decode s = .ok k → decode s' = .ok k' → (k = k' ↔ s.toLower = s'.toLower)) ∧
      (∀ k k' : Key, compare k k' = compare k.encode k'.encode) ∧
      ∀ s, decodeBytes s = decode s := by
  refine ⟨fun _ => exists_decode_eq_ok_iff, fun _ => decode_of_not_isText, decode_encode,
    fun _ _ => encode_of_decode, fun s s' k k' h h' => ?_, fun k k' => ?_, decodeBytes_eq⟩
  · rw [← encode_of_decode h, ← encode_of_decode h']
    refine ⟨congrArg encode, fun hsame => ?_⟩
    have hk := decode_encode k
    rw [hsame, decode_encode] at hk
    exact (Except.ok.inj hk).symm
  · rw [encode, encode, compare_ofList, compare_hexOfBytes]
    rfl

end Key

end BlockStore
