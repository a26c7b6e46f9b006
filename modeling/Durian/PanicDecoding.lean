import Durian.PanicPayload

/-!
# What the panic decoder reads

A payload is a message and a file name, each after its length, then a line and a column. Decoding
undoes that encoding, and whatever bytes a contract passes, every string read is a slice of them.
A payload that was cut inside the message or the file name may be read out of step.
-/

namespace Durian

open Effects

namespace PanicPayload

/-! ### One read -/

theorem readExact_of_le {n : Nat} {rest : Bytes} (h : n ≤ rest.length) :
    readExact n rest = (.ok (rest.take n), rest.drop n) := if_pos h

theorem readExact_of_lt {n : Nat} {rest : Bytes} (h : rest.length < n) :
    readExact n rest = (.fail (.err .unexpectedEof), rest) := if_neg (Nat.not_le.mpr h)

def wordAt (rest : Bytes) : UInt32 := UInt32.ofNat (natOfLittleEndian (rest.take 4))

theorem readU32_of_le {rest : Bytes} (h : 4 ≤ rest.length) :
    readU32 rest = (.ok (wordAt rest), rest.drop 4) := by
  rw [readU32, Exec.bind_of_ok (readExact_of_le h)]
  rfl

theorem readU32_of_lt {rest : Bytes} (h : rest.length < 4) :
    readU32 rest = (.fail (.err .unexpectedEof), rest) := by
  rw [readU32, Exec.bind_of_fail (readExact_of_lt h)]

/-- A string is there where its length and then as many bytes can be read. -/
theorem readString_of_lt {rest : Bytes} (h : rest.length < 4) :
    readString rest = (.fail (.err .unexpectedEof), rest) := by
  rw [readString, Exec.bind_of_fail (readU32_of_lt h)]

theorem readString_of_zero {rest : Bytes} (h : 4 ≤ rest.length) (hzero : wordAt rest = 0) :
    readString rest = (.ok none, rest.drop 4) := by
  rw [readString, Exec.bind_of_ok (readU32_of_le h), if_pos hzero]
  rfl

theorem readString_of_le {rest : Bytes} (h : 4 ≤ rest.length) (hzero : wordAt rest ≠ 0)
    (hle : (wordAt rest).toNat ≤ (rest.drop 4).length) :
    readString rest = (.ok (some (fromUtf8Lossy ((rest.drop 4).take (wordAt rest).toNat))),
      (rest.drop 4).drop (wordAt rest).toNat) := by
  rw [readString, Exec.bind_of_ok (readU32_of_le h), if_neg hzero,
    Exec.bind_of_ok (readExact_of_le hle)]
  rfl

/-- The length is gone when the bytes after it turn out to be too few. -/
theorem readString_of_short {rest : Bytes} (h : 4 ≤ rest.length)
    (hlt : (rest.drop 4).length < (wordAt rest).toNat) :
    readString rest = (.fail (.err .unexpectedEof), rest.drop 4) := by
  have hzero : wordAt rest ≠ 0 := by
    intro heq
    rw [heq] at hlt
    exact absurd hlt (Nat.not_lt_zero _)
  rw [readString, Exec.bind_of_ok (readU32_of_le h), if_neg hzero,
    Exec.bind_of_fail (readExact_of_lt hlt)]

/-- The string that content of a known length stands for; no content stands for no string. -/
def stringOf (content : Bytes) : Option String :=
  if content = [] then none else some (fromUtf8Lossy content)

def littleEndian32 (word : UInt32) : Bytes := (natToBigEndian 4 word.toNat).reverse

def encodeString (content : Bytes) : Bytes :=
  littleEndian32 (UInt32.ofNat content.length) ++ content

/-- A payload as a contract lays it out. -/
def encode (msg file : Bytes) (line col : UInt32) : Bytes :=
  encodeString msg ++ (encodeString file ++ (littleEndian32 line ++ littleEndian32 col))

@[simp]
theorem littleEndian32_length (word : UInt32) : (littleEndian32 word).length = 4 := by
  simp [littleEndian32]

@[simp]
theorem encodeString_length (content : Bytes) :
    (encodeString content).length = 4 + content.length := by
  simp [encodeString]

theorem wordAt_littleEndian32 (word : UInt32) (rest : Bytes) :
    wordAt (littleEndian32 word ++ rest) = word := by
  have hlt : word.toNat < 256 ^ 4 := word.toNat_lt
  rw [wordAt, List.take_left' (littleEndian32_length word), natOfLittleEndian, littleEndian32,
    List.reverse_reverse, natOfBigEndian_natToBigEndian, Nat.mod_eq_of_lt hlt, UInt32.ofNat_toNat]

theorem readU32_littleEndian32 (word : UInt32) (rest : Bytes) :
    readU32 (littleEndian32 word ++ rest) = (.ok word, rest) := by
  rw [readU32_of_le (by simp), wordAt_littleEndian32, List.drop_left' (littleEndian32_length word)]

/-! ### One read of a payload that was cut -/

section Cut

variable {content tail : Bytes} {k : Nat}

theorem take_encodeString (h : 4 ≤ k) : (encodeString content ++ tail).take k =
    littleEndian32 (UInt32.ofNat content.length) ++ (content ++ tail).take (k - 4) := by
  rw [encodeString, List.append_assoc, List.take_append, littleEndian32_length,
    List.take_of_length_le (by simpa using h)]

/-- A string whose content is all there. -/
theorem readString_whole (hlength : content.length < 2 ^ 32) (h : 4 + content.length ≤ k) :
    readString ((encodeString content ++ tail).take k) =
      (.ok (stringOf content), tail.take (k - (4 + content.length))) := by
  have hsize : (UInt32.ofNat content.length).toNat = content.length := by
    rw [UInt32.toNat_ofNat']
    exact Nat.mod_eq_of_lt hlength
  have hcut : (content ++ tail).take (k - 4) = content ++ tail.take (k - (4 + content.length)) := by
    rw [List.take_append, List.take_of_length_le (by omega), Nat.sub_sub]
  rw [take_encodeString (by omega), hcut]
  have hword := wordAt_littleEndian32 (UInt32.ofNat content.length)
    (content ++ tail.take (k - (4 + content.length)))
  by_cases hempty : content = []
  · have hzero : UInt32.ofNat content.length = 0 := by rw [hempty]; rfl
    rw [readString_of_zero (by simp) (hword.trans hzero), stringOf, if_pos hempty,
      List.drop_left' (littleEndian32_length _), hempty, List.nil_append]
  · have hpos := List.length_pos_iff.mpr hempty
    have hzero : UInt32.ofNat content.length ≠ 0 := by
      intro heq
      rw [heq] at hsize
      exact absurd hsize.symm (Nat.ne_of_gt hpos)
    rw [readString_of_le (by simp) (by rwa [hword]) (by rw [hword, hsize]; simp), hword, hsize,
      List.drop_left' (littleEndian32_length _), List.take_left, List.drop_left, stringOf,
      if_neg hempty]

/-- A string cut inside its content leaves what there is of the content. -/
theorem readString_cutContent (hlength : content.length < 2 ^ 32) (h : 4 ≤ k)
    (hlt : k < 4 + content.length) :
    readString ((encodeString content ++ tail).take k) =
      (.fail (.err .unexpectedEof), content.take (k - 4)) := by
  have hsize : (UInt32.ofNat content.length).toNat = content.length := by
    rw [UInt32.toNat_ofNat']
    exact Nat.mod_eq_of_lt hlength
  have hcut : (content ++ tail).take (k - 4) = content.take (k - 4) := by
    rw [List.take_append_of_le_length (by omega)]
  have hshort : ((littleEndian32 (UInt32.ofNat content.length) ++ content.take (k - 4)).drop 4).length <
      (wordAt (littleEndian32 (UInt32.ofNat content.length) ++ content.take (k - 4))).toNat := by
    rw [wordAt_littleEndian32, hsize, List.drop_left' (littleEndian32_length _), List.length_take]
    omega
  rw [take_encodeString h, hcut, readString_of_short (by simp) hshort,
    List.drop_left' (littleEndian32_length _)]

theorem readString_encodeString (hlength : content.length < 2 ^ 32) :
    readString (encodeString content ++ tail) = (.ok (stringOf content), tail) := by
  have h : readString ((encodeString content ++ tail).take (4 + content.length + tail.length)) = _ :=
    readString_whole hlength (Nat.le_add_right _ tail.length)
  rwa [List.take_of_length_le (by simp), Nat.add_sub_cancel_left, List.take_length] at h

end Cut

/-! ### The four reads -/

theorem decode_eq (raw : Bytes) : decode raw =
    { msg := (ok readString raw).1.join
      file := (ok readString (ok readString raw).2).1.join
      line := (ok readU32 (ok readString (ok readString raw).2).2).1
      col := (ok readU32 (ok readU32 (ok readString (ok readString raw).2).2).2).1 } := by
  unfold decode
  rcases ok readString raw with ⟨msg, rest⟩
  rfl

theorem ok_eq_some {α : Type} {read : Cursor α} {rest rest' : Bytes} {a : α}
    (h : read rest = (.ok a, rest')) : ok read rest = (some a, rest') := by
  rw [ok, h]

theorem ok_eq_none {α : Type} {read : Cursor α} {rest rest' : Bytes} {f : Failure ReadError}
    (h : read rest = (.fail f, rest')) : ok read rest = (none, rest') := by
  rw [ok, h]

theorem ok_readU32_of_le {rest : Bytes} (h : 4 ≤ rest.length) :
    ok readU32 rest = (some (wordAt rest), rest.drop 4) := ok_eq_some (readU32_of_le h)

theorem ok_readU32_of_lt {rest : Bytes} (h : rest.length < 4) :
    ok readU32 rest = (none, rest) := ok_eq_none (readU32_of_lt h)

theorem ok_readU32_fst_eq_none_iff {rest : Bytes} :
    (ok readU32 rest).1 = none ↔ rest.length < 4 := by
  by_cases h : rest.length < 4
  · simp [ok_readU32_of_lt h, h]
  · simp [ok_readU32_of_le (Nat.le_of_not_lt h), h]

/-- The last two reads, of a line and a column that were cut. -/
theorem ok_readU32_cut (line col : UInt32) (j : Nat) :
    (ok readU32 ((littleEndian32 line ++ littleEndian32 col).take j)).1 =
        (if 4 ≤ j then some line else none) ∧
      (ok readU32 (ok readU32 ((littleEndian32 line ++ littleEndian32 col).take j)).2).1 =
        (if 8 ≤ j then some col else none) := by
  by_cases hline : 4 ≤ j
  · have hcut : (littleEndian32 line ++ littleEndian32 col).take j =
        littleEndian32 line ++ (littleEndian32 col).take (j - 4) := by
      rw [List.take_append, littleEndian32_length, List.take_of_length_le (by simpa using hline)]
    rw [hcut, ok_eq_some (readU32_littleEndian32 line _), if_pos hline]
    refine ⟨rfl, ?_⟩
    by_cases hcol : 8 ≤ j
    · have h := readU32_littleEndian32 col []
      rw [List.append_nil] at h
      rw [List.take_of_length_le (by simp; omega), ok_eq_some h, if_pos hcol]
    · rw [if_neg hcol, ok_readU32_fst_eq_none_iff, List.length_take]
      omega
  · have hlt : ((littleEndian32 line ++ littleEndian32 col).take j).length < 4 := by
      rw [List.length_take]
      omega
    rw [ok_readU32_of_lt hlt, ok_readU32_of_lt hlt, if_neg hline, if_neg (by omega)]
    exact ⟨rfl, rfl⟩

theorem words_nothing_iff (rest : Bytes) :
    ((ok readU32 rest).1 = none ∧ (ok readU32 (ok readU32 rest).2).1 = none) ↔
      rest.length < 4 := by
  rw [ok_readU32_fst_eq_none_iff]
  constructor
  · exact And.left
  · intro h
    rw [ok_readU32_of_lt h, ok_readU32_fst_eq_none_iff]
    exact ⟨h, h⟩

/-- When the file name, the line and the column are read from bytes that are not theirs, nothing
comes out only where the bytes run out at once. -/
theorem reads_nothing_iff (rest : Bytes) :
    ((ok readString rest).1.join = none ∧ (ok readU32 (ok readString rest).2).1 = none ∧
        (ok readU32 (ok readU32 (ok readString rest).2).2).1 = none) ↔
      rest.length < 4 ∨ rest.length < 8 ∧
        ¬ (wordAt rest ≠ 0 ∧ (wordAt rest).toNat ≤ rest.length - 4) := by
  rw [words_nothing_iff]
  by_cases hshort : rest.length < 4
  · simp [ok_eq_none (readString_of_lt hshort), hshort]
  · have hlong := Nat.le_of_not_lt hshort
    have hdrop : (rest.drop 4).length = rest.length - 4 := List.length_drop
    by_cases hzero : wordAt rest = 0
    · simp only [ok_eq_some (readString_of_zero hlong hzero), hdrop, hzero, Option.join_some,
        ne_eq, not_true, false_and, not_false_eq_true, and_true, true_and]
      omega
    · by_cases hle : (wordAt rest).toNat ≤ rest.length - 4
      · simp [ok_eq_some (readString_of_le hlong hzero (hdrop ▸ hle)), hshort, hzero, hle]
      · have hlt := Nat.lt_of_not_le (hdrop ▸ hle)
        simp only [ok_eq_none (readString_of_short hlong hlt), hdrop, hle, Option.join_none,
          and_false, not_false_eq_true, and_true, true_and]
        omega

/-! ### A payload that was cut -/

/-- What a payload says as far as its first `k` bytes go: the fields that lie inside them. -/
def fieldsWithin (msg file : Bytes) (k : Nat) (whole : PanicPayload) : PanicPayload where
  msg := if 4 + msg.length ≤ k then whole.msg else none
  file := if 8 + msg.length + file.length ≤ k then whole.file else none
  line := if 12 + msg.length + file.length ≤ k then whole.line else none
  col := if 16 + msg.length + file.length ≤ k then whole.col else none

/-- A cut inside the message leaves too little of it to be read as anything else, and so does a cut
inside the file name. -/
def CutHarmless (msg file : Bytes) (k : Nat) : Prop :=
  (k < 4 + msg.length →
      k < 8 ∨ k < 12 ∧ ¬ (wordAt msg ≠ 0 ∧ (wordAt msg).toNat ≤ k - 8)) ∧
    (8 + msg.length ≤ k → k < 8 + msg.length + file.length → k < 12 + msg.length)

section

variable {msg file : Bytes} (hmsg : msg.length < 2 ^ 32) (hfile : file.length < 2 ^ 32)
  (line col : UInt32)

include hmsg hfile

theorem decode_cutBehind {k : Nat} (h : 8 + msg.length + file.length ≤ k) :
    decode ((encode msg file line col).take k) =
      { msg := stringOf msg
        file := stringOf file
        line := if 12 + msg.length + file.length ≤ k then some line else none
        col := if 16 + msg.length + file.length ≤ k then some col else none } := by
  have hwords := ok_readU32_cut line col (k - (4 + msg.length) - (4 + file.length))
  rw [decode_eq, encode, ok_eq_some (readString_whole hmsg (by omega)),
    ok_eq_some (readString_whole hfile (by omega)), hwords.1, hwords.2]
  simp only [Option.join_some, PanicPayload.mk.injEq, true_and]
  constructor
  · split_ifs <;> first | rfl | omega
  · split_ifs <;> first | rfl | omega

theorem decode_encode_append (trailing : Bytes) :
    decode (encode msg file line col ++ trailing) =
      { msg := stringOf msg, file := stringOf file, line := some line, col := some col } := by
  rw [encode, List.append_assoc, List.append_assoc, List.append_assoc, decode_eq,
    ok_eq_some (readString_encodeString hmsg), ok_eq_some (readString_encodeString hfile),
    ok_eq_some (readU32_littleEndian32 line _), ok_eq_some (readU32_littleEndian32 col _)]
  rfl

theorem decode_encode :
    decode (encode msg file line col) =
      { msg := stringOf msg, file := stringOf file, line := some line, col := some col } := by
  have h := decode_encode_append hmsg hfile line col []
  rwa [List.append_nil] at h

theorem fieldsWithin_decode_encode (k : Nat) :
    fieldsWithin msg file k (decode (encode msg file line col)) =
      { msg := if 4 + msg.length ≤ k then stringOf msg else none
        file := if 8 + msg.length + file.length ≤ k then stringOf file else none
        line := if 12 + msg.length + file.length ≤ k then some line else none
        col := if 16 + msg.length + file.length ≤ k then some col else none } := by
  rw [decode_encode hmsg hfile]
  rfl

omit hmsg hfile in
theorem decode_cutMsgLength {k : Nat} (h : k < 4) :
    decode ((encode msg file line col).take k) =
      { msg := none, file := none, line := none, col := none } := by
  have hlt : ((encode msg file line col).take k).length < 4 := by
    rw [List.length_take]
    omega
  rw [decode_eq, ok_eq_none (readString_of_lt hlt), ok_eq_none (readString_of_lt hlt),
    ok_readU32_of_lt hlt, ok_readU32_of_lt hlt]
  rfl

omit hfile in
theorem decode_cutFileLength {k : Nat} (h : 4 + msg.length ≤ k) (hlt : k < 8 + msg.length) :
    decode ((encode msg file line col).take k) =
      { msg := stringOf msg, file := none, line := none, col := none } := by
  have hshort : ((encodeString file ++ (littleEndian32 line ++ littleEndian32 col)).take
      (k - (4 + msg.length))).length < 4 := by
    rw [List.length_take]
    omega
  rw [decode_eq, encode, ok_eq_some (readString_whole hmsg h), ok_eq_none (readString_of_lt hshort),
    ok_readU32_of_lt hshort, ok_readU32_of_lt hshort]
  rfl

omit hfile in
/-- A cut inside the message: its remains are read as the file name, the line and the column. -/
theorem decode_cutMsg_eq_iff {k : Nat} (h : 4 ≤ k) (hlt : k < 4 + msg.length) :
    decode ((encode msg file line col).take k) =
        { msg := none, file := none, line := none, col := none } ↔
      k < 8 ∨ k < 12 ∧ ¬ (wordAt msg ≠ 0 ∧ (wordAt msg).toNat ≤ k - 8) := by
  have hlength : (msg.take (k - 4)).length = k - 4 := by
    rw [List.length_take]
    omega
  have hnothing := reads_nothing_iff (msg.take (k - 4))
  rw [decode_eq, encode, ok_eq_none (readString_cutContent hmsg h hlt)]
  simp only [PanicPayload.mk.injEq, Option.join_none, true_and]
  rw [hnothing, hlength]
  by_cases hshort : k < 8
  · simp only [hshort, true_or, iff_true]
    exact Or.inl (by omega)
  · have hword : wordAt (msg.take (k - 4)) = wordAt msg := by
      rw [wordAt, wordAt, List.take_take, Nat.min_eq_left (by omega)]
    have hsub : k - 4 - 4 = k - 8 := by omega
    have hfour : ¬ k - 4 < 4 := by omega
    have height : k - 4 < 8 ↔ k < 12 := by omega
    simp only [hword, hsub, hfour, height, hshort, false_or]

/-- A cut inside the file name: its remains are read as the line and the column. -/
theorem decode_cutFile_eq_iff {k : Nat} (h : 8 + msg.length ≤ k)
    (hlt : k < 8 + msg.length + file.length) :
    decode ((encode msg file line col).take k) =
        { msg := stringOf msg, file := none, line := none, col := none } ↔
      k < 12 + msg.length := by
  rw [decode_eq, encode, ok_eq_some (readString_whole hmsg (by omega)),
    ok_eq_none (readString_cutContent hfile (by omega) (by omega))]
  simp only [PanicPayload.mk.injEq, Option.join_none, Option.join_some, true_and]
  rw [words_nothing_iff, List.length_take]
  omega

/-- The prefix of a payload says what it says of the whole, and no more, exactly where no string was
cut in a harmful place. -/
theorem decode_take_eq_iff (k : Nat) :
    decode ((encode msg file line col).take k) =
        fieldsWithin msg file k (decode (encode msg file line col)) ↔
      CutHarmless msg file k := by
  rw [fieldsWithin_decode_encode hmsg hfile, CutHarmless]
  by_cases hmsgLength : k < 4
  · rw [decode_cutMsgLength line col hmsgLength]
    simp (disch := omega) only [if_neg, true_iff]
    omega
  by_cases hinMsg : k < 4 + msg.length
  · simp (disch := omega) only [if_neg]
    rw [decode_cutMsg_eq_iff hmsg line col (by omega) hinMsg]
    have houtside : ¬ 8 + msg.length ≤ k := by omega
    simp only [hinMsg, houtside, true_implies, false_implies, and_true]
  by_cases hfileLength : k < 8 + msg.length
  · rw [decode_cutFileLength hmsg line col (by omega) hfileLength]
    simp (disch := omega) only [if_neg, if_pos, true_iff]
    omega
  by_cases hinFile : k < 8 + msg.length + file.length
  · simp (disch := omega) only [if_neg, if_pos]
    rw [decode_cutFile_eq_iff hmsg hfile line col (by omega) hinFile]
    omega
  · rw [decode_cutBehind hmsg hfile line col (by omega)]
    simp (disch := omega) only [if_pos, true_iff]
    omega

end

theorem decode_take_eleven :
    decode ((encode (List.replicate 12 120) [121] 3 4).take 11) =
      fieldsWithin (List.replicate 12 120) [121] 11
        (decode (encode (List.replicate 12 120) [121] 3 4)) := by
  refine (decode_take_eq_iff (by decide) (by decide) 3 4 11).mpr ⟨fun _ => Or.inr ⟨by decide, ?_⟩, ?_⟩
  · decide
  · decide

/-- Twelve bytes of a message, of which eleven are left: the first four are taken for the length of
the file name, and the next four for the line. -/
theorem decode_take_fifteen_ne :
    (decode ((encode (List.replicate 12 120) [121] 3 4).take 15)).line = some 0x78787878 ∧
      decode ((encode (List.replicate 12 120) [121] 3 4).take 15) ≠
        fieldsWithin (List.replicate 12 120) [121] 15
          (decode (encode (List.replicate 12 120) [121] 3 4)) := by
  constructor
  · decide
  · intro h
    have hline := congrArg PanicPayload.line h
    exact absurd hline (by decide)

/-! ### Whole payloads, and payloads of any bytes -/

/-- The bytes a contract writes for a string it has or does not have. -/
def textBytes (text : Option String) : Bytes := text.elim [] utf8Bytes

/-- What is read for it: an empty string counts as none. -/
def nonempty (text : Option String) : Option String := if text = some "" then none else text

theorem stringOf_textBytes (text : Option String) : stringOf (textBytes text) = nonempty text := by
  cases text with
  | none => rfl
  | some s =>
      by_cases hs : s = ""
      · simp [textBytes, stringOf, nonempty, hs, utf8Bytes_eq_nil_iff]
      · simp [textBytes, stringOf, nonempty, hs, utf8Bytes_eq_nil_iff, fromUtf8Lossy_utf8Bytes]

/-- The string is a slice of the bytes, and the word before the slice is its length. -/
def ReadFrom (raw : Bytes) (s : String) : Prop :=
  ∃ before length content after, raw = before ++ (length ++ (content ++ after)) ∧
    length.length = 4 ∧ natOfLittleEndian length = content.length ∧ s = fromUtf8Lossy content

theorem readU32_returns (rest : Bytes) : (readU32 rest).1.Returns := by
  by_cases h : 4 ≤ rest.length
  · rw [readU32_of_le h]
    trivial
  · rw [readU32_of_lt (Nat.lt_of_not_le h)]
    trivial

theorem wordAt_toNat (rest : Bytes) : (wordAt rest).toNat = natOfLittleEndian (rest.take 4) := by
  have hlt := natOfBigEndian_lt (rest.take 4).reverse
  have hpow : 256 ^ (rest.take 4).reverse.length ≤ 256 ^ 4 := by
    apply Nat.pow_le_pow_right (by decide)
    rw [List.length_reverse]
    exact List.length_take_le 4 rest
  rw [wordAt, UInt32.toNat_ofNat', natOfLittleEndian]
  exact Nat.mod_eq_of_lt (Nat.lt_of_lt_of_le hlt hpow)

/-- Everything a read of a string can do. -/
theorem readString_cases (rest : Bytes) :
    readString rest = (.fail (.err .unexpectedEof), rest) ∨
      readString rest = (.ok none, rest.drop 4) ∨
      (∃ content after, 4 ≤ rest.length ∧ rest.drop 4 = content ++ after ∧
        natOfLittleEndian (rest.take 4) = content.length ∧
        readString rest = (.ok (some (fromUtf8Lossy content)), after)) ∨
      readString rest = (.fail (.err .unexpectedEof), rest.drop 4) := by
  by_cases h : 4 ≤ rest.length
  · by_cases hzero : wordAt rest = 0
    · exact Or.inr (Or.inl (readString_of_zero h hzero))
    · by_cases hle : (wordAt rest).toNat ≤ (rest.drop 4).length
      · refine Or.inr (Or.inr (Or.inl ⟨_, _, h, ?_, ?_, readString_of_le h hzero hle⟩))
        · exact (List.take_append_drop _ _).symm
        · rw [← wordAt_toNat, List.length_take, Nat.min_eq_left hle]
      · exact Or.inr (Or.inr (Or.inr (readString_of_short h (Nat.lt_of_not_le hle))))
  · exact Or.inl (readString_of_lt (Nat.lt_of_not_le h))

theorem readString_returns (rest : Bytes) : (readString rest).1.Returns := by
  obtain h | h | ⟨content, after, -, -, -, h⟩ | h := readString_cases rest
  all_goals
    rw [h]
    trivial

/-- A read takes bytes off the front and leaves the others. -/
theorem ok_readString_suffix (rest : Bytes) : (ok readString rest).2 <:+ rest := by
  obtain h | h | ⟨content, after, -, hdrop, -, h⟩ | h := readString_cases rest
  · simp [ok_eq_none h]
  · rw [ok_eq_some h]
    exact List.drop_suffix 4 rest
  · rw [ok_eq_some h]
    exact (hdrop ▸ List.suffix_append content after).trans (List.drop_suffix 4 rest)
  · rw [ok_eq_none h]
    exact List.drop_suffix 4 rest

theorem ReadFrom.of_suffix {raw rest : Bytes} {s : String} (hrest : rest <:+ raw)
    (h : ReadFrom rest s) : ReadFrom raw s := by
  obtain ⟨front, rfl⟩ := hrest
  obtain ⟨before, length, content, after, rfl, hslice⟩ := h
  exact ⟨front ++ before, length, content, after, by simp, hslice⟩

theorem readFrom_of_ok {rest : Bytes} {s : String}
    (hs : (ok readString rest).1.join = some s) : ReadFrom rest s := by
  obtain h | h | ⟨content, after, hlong, hdrop, hlength, h⟩ | h := readString_cases rest
  · rw [ok_eq_none h] at hs
    cases hs
  · rw [ok_eq_some h] at hs
    cases hs
  · rw [ok_eq_some h] at hs
    refine ⟨[], rest.take 4, content, after, ?_, ?_, hlength, (Option.some.inj hs).symm⟩
    · rw [← hdrop, List.take_append_drop, List.nil_append]
    · rw [List.length_take, Nat.min_eq_left hlong]
  · rw [ok_eq_none h] at hs
    cases hs

theorem decode_strings (raw : Bytes) {s : String}
    (h : (decode raw).msg = some s ∨ (decode raw).file = some s) : ReadFrom raw s := by
  rw [decode_eq] at h
  cases h with
  | inl hmsg => exact readFrom_of_ok hmsg
  | inr hfile => exact (readFrom_of_ok hfile).of_suffix (ok_readString_suffix raw)

/-- Decoding undoes encoding, whatever follows, and of any bytes at all it reads no string that is
not there, with reads that end in a value or an error. -/
theorem decode_roundTrip :
    (∀ (msg file : Option String) (line col : UInt32) (trailing : Bytes),
        (textBytes msg).length < 2 ^ 32 → (textBytes file).length < 2 ^ 32 →
          decode (encode (textBytes msg) (textBytes file) line col ++ trailing) =
            { msg := nonempty msg, file := nonempty file, line := some line, col := some col }) ∧
      (∀ rest, (readString rest).1.Returns ∧ (readU32 rest).1.Returns) ∧
      ∀ raw s, (decode raw).msg = some s ∨ (decode raw).file = some s → ReadFrom raw s := by
  refine ⟨?_, ?_, fun raw s => decode_strings raw⟩
  · intro msg file line col trailing hmsg hfile
    rw [decode_encode_append hmsg hfile, stringOf_textBytes, stringOf_textBytes]
  · exact fun rest => ⟨readString_returns rest, readU32_returns rest⟩

theorem decode_roundTrip_absent :
    decode (encode (textBytes none) (textBytes (some "")) 3 4 ++ [9]) =
      { msg := nonempty none, file := nonempty (some ""), line := some 3, col := some 4 } :=
  decode_roundTrip.1 none (some "") 3 4 [9] (by decide) (by decide)

end PanicPayload

end Durian
