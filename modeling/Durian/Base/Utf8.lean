import Durian.Base.Machine

/-!
# Reading bytes as text

One step of a UTF-8 decoder takes a character off the front, or the longest piece that can start a
character but does not finish one. The strict reading fails on such a piece, the lossy reading puts
a replacement character in its place.
-/

namespace Effects

def isContinuation (b : UInt8) : Bool := 0x80 ≤ b && b ≤ 0xBF

/-- The second bytes that may follow the first byte of a three-byte character. -/
def secondOfThree (b₀ b₁ : UInt8) : Bool :=
  if b₀ = 0xE0 then 0xA0 ≤ b₁ && b₁ ≤ 0xBF
  else if b₀ = 0xED then 0x80 ≤ b₁ && b₁ ≤ 0x9F
  else isContinuation b₁

def secondOfFour (b₀ b₁ : UInt8) : Bool :=
  if b₀ = 0xF0 then 0x90 ≤ b₁ && b₁ ≤ 0xBF
  else if b₀ = 0xF4 then 0x80 ≤ b₁ && b₁ ≤ 0x8F
  else isContinuation b₁

def payloadBits (b : UInt8) : Nat := b.toNat % 64

/-- The character at the front of a byte string that starts with `b₀`, or nothing where the string
is ill-formed, and the number of bytes after `b₀` that belong to it. -/
def utf8Step (b₀ : UInt8) (rest : Bytes) : Option Char × Nat :=
  if b₀ < 0x80 then (some (Char.ofNat b₀.toNat), 0)
  else if 0xC2 ≤ b₀ && b₀ ≤ 0xDF then
    match rest with
    | b₁ :: _ =>
        if isContinuation b₁ then (some (Char.ofNat (b₀.toNat % 32 * 64 + payloadBits b₁)), 1)
        else (none, 0)
    | [] => (none, 0)
  else if 0xE0 ≤ b₀ && b₀ ≤ 0xEF then
    match rest with
    | b₁ :: b₂ :: _ =>
        if !secondOfThree b₀ b₁ then (none, 0)
        else if !isContinuation b₂ then (none, 1)
        else
          (some (Char.ofNat (b₀.toNat % 16 * 4096 + payloadBits b₁ * 64 + payloadBits b₂)), 2)
    | [b₁] => (none, if secondOfThree b₀ b₁ then 1 else 0)
    | [] => (none, 0)
  else if 0xF0 ≤ b₀ && b₀ ≤ 0xF4 then
    match rest with
    | b₁ :: b₂ :: b₃ :: _ =>
        if !secondOfFour b₀ b₁ then (none, 0)
        else if !isContinuation b₂ then (none, 1)
        else if !isContinuation b₃ then (none, 2)
        else
          (some (Char.ofNat (b₀.toNat % 8 * 262144 + payloadBits b₁ * 4096 + payloadBits b₂ * 64
            + payloadBits b₃)), 3)
    | [b₁, b₂] =>
        (none, if secondOfFour b₀ b₁ then (if isContinuation b₂ then 2 else 1) else 0)
    | [b₁] => (none, if secondOfFour b₀ b₁ then 1 else 0)
    | [] => (none, 0)
  else (none, 0)

/-- The characters and ill-formed pieces of a byte string, in order. Each step takes at least one
byte, so as many steps as bytes are enough. -/
def utf8Pieces : Nat → Bytes → List (Option Char)
  | _, [] => []
  | 0, _ => []
  | n + 1, b₀ :: rest =>
      (utf8Step b₀ rest).1 :: utf8Pieces n (rest.drop (utf8Step b₀ rest).2)

def fromUtf8Lossy (bytes : Bytes) : String :=
  String.ofList ((utf8Pieces bytes.length bytes).map (·.getD (Char.ofNat 0xFFFD)))

/-- The strict reading, which is there exactly when no piece is ill-formed. -/
def fromUtf8 (bytes : Bytes) : Option String :=
  ((utf8Pieces bytes.length bytes).mapM id).map String.ofList

example : fromUtf8Lossy [104, 195, 169, 0xE2, 0x82, 33] = "hé\uFFFD!" := by decide

/-! ### Text read back from its own bytes -/

def utf8Bytes (s : String) : Bytes := s.toUTF8.data.toList

theorem not_lt_of_toNat_le {b limit : UInt8} (h : limit.toNat ≤ b.toNat) : ¬ b < limit := by
  rw [UInt8.lt_iff_toNat_lt]
  exact Nat.not_lt.mpr h

theorem within_iff {low high b : UInt8} :
    low ≤ b ∧ b ≤ high ↔ low.toNat ≤ b.toNat ∧ b.toNat ≤ high.toNat := by
  rw [UInt8.le_iff_toNat_le, UInt8.le_iff_toNat_le]

theorem not_within_of_lt {low high b : UInt8} (h : high.toNat < b.toNat) : ¬ (low ≤ b ∧ b ≤ high) := by
  rw [within_iff]
  omega

theorem utf8Step_one {b : UInt8} (h : b.toNat < 128) (rest : Bytes) :
    utf8Step b rest = (some (Char.ofNat b.toNat), 0) := by
  have hlow : b < 0x80 := UInt8.lt_iff_toNat_lt.mpr h
  simp [utf8Step, hlow]

theorem utf8Step_two {b b₁ : UInt8} (h : 194 ≤ b.toNat ∧ b.toNat ≤ 223)
    (h₁ : isContinuation b₁ = true) (rest : Bytes) :
    utf8Step b (b₁ :: rest) =
      (some (Char.ofNat (b.toNat % 32 * 64 + payloadBits b₁)), 1) := by
  have hlow : ¬ b < 0x80 := not_lt_of_toNat_le (Nat.le_trans (by decide) h.1)
  have htwo : 0xC2 ≤ b ∧ b ≤ 0xDF := within_iff.mpr h
  simp [utf8Step, hlow, htwo, h₁]

theorem utf8Step_three {b b₁ b₂ : UInt8} (h : 224 ≤ b.toNat ∧ b.toNat ≤ 239)
    (h₁ : secondOfThree b b₁ = true) (h₂ : isContinuation b₂ = true) (rest : Bytes) :
    utf8Step b (b₁ :: b₂ :: rest) = (some (Char.ofNat
      (b.toNat % 16 * 4096 + payloadBits b₁ * 64 + payloadBits b₂)), 2) := by
  have hlow : ¬ b < 0x80 := not_lt_of_toNat_le (Nat.le_trans (by decide) h.1)
  have htwo : ¬ (0xC2 ≤ b ∧ b ≤ 0xDF) := not_within_of_lt (Nat.lt_of_lt_of_le (by decide) h.1)
  have hthree : 0xE0 ≤ b ∧ b ≤ 0xEF := within_iff.mpr h
  simp [utf8Step, hlow, htwo, hthree, h₁, h₂]

theorem utf8Step_four {b b₁ b₂ b₃ : UInt8} (h : 240 ≤ b.toNat ∧ b.toNat ≤ 244)
    (h₁ : secondOfFour b b₁ = true) (h₂ : isContinuation b₂ = true)
    (h₃ : isContinuation b₃ = true) (rest : Bytes) :
    utf8Step b (b₁ :: b₂ :: b₃ :: rest) = (some (Char.ofNat
      (b.toNat % 8 * 262144 + payloadBits b₁ * 4096 + payloadBits b₂ * 64 + payloadBits b₃)),
        3) := by
  have hlow : ¬ b < 0x80 := not_lt_of_toNat_le (Nat.le_trans (by decide) h.1)
  have htwo : ¬ (0xC2 ≤ b ∧ b ≤ 0xDF) := not_within_of_lt (Nat.lt_of_lt_of_le (by decide) h.1)
  have hthree : ¬ (0xE0 ≤ b ∧ b ≤ 0xEF) := not_within_of_lt (Nat.lt_of_lt_of_le (by decide) h.1)
  have hfour : 0xF0 ≤ b ∧ b ≤ 0xF4 := within_iff.mpr h
  simp [utf8Step, hlow, htwo, hthree, hfour, h₁, h₂, h₃]

theorem toNat_ofNat_of_lt {v : Nat} (h : v < 256) : (UInt8.ofNat v).toNat = v := by
  rw [UInt8.toNat_ofNat']
  exact Nat.mod_eq_of_lt h

theorem isContinuation_iff {b : UInt8} : isContinuation b = true ↔ 128 ≤ b.toNat ∧ b.toNat ≤ 191 := by
  simp [isContinuation, UInt8.le_iff_toNat_le]

theorem isContinuation_ofNat (v : Nat) : isContinuation (UInt8.ofNat (v % 64 + 128)) = true := by
  rw [isContinuation_iff, toNat_ofNat_of_lt (by omega)]
  omega

theorem payloadBits_ofNat (v : Nat) : payloadBits (UInt8.ofNat (v % 64 + 128)) = v % 64 := by
  rw [payloadBits, toNat_ofNat_of_lt (by omega)]
  omega

/-- No character is a surrogate, and so the second byte after `0xED` stays below `0xA0`. -/
theorem secondOfThree_ofNat {v : Nat} (hlow : 2048 ≤ v) (h : v < 0xD800 ∨ 0xDFFF < v ∧ v < 65536) :
    secondOfThree (UInt8.ofNat (v / 4096 % 16 + 224)) (UInt8.ofNat (v / 64 % 64 + 128)) = true := by
  have hfirst := toNat_ofNat_of_lt (show v / 4096 % 16 + 224 < 256 by omega)
  have hsecond := toNat_ofNat_of_lt (show v / 64 % 64 + 128 < 256 by omega)
  unfold secondOfThree
  split_ifs with h0 hD
  · rw [h0] at hfirst
    change 224 = _ at hfirst
    rw [Bool.and_eq_true, decide_eq_true_eq, decide_eq_true_eq, UInt8.le_iff_toNat_le,
      UInt8.le_iff_toNat_le, hsecond]
    change 160 ≤ _ ∧ _ ≤ 191
    omega
  · rw [hD] at hfirst
    change 237 = _ at hfirst
    rw [Bool.and_eq_true, decide_eq_true_eq, decide_eq_true_eq, UInt8.le_iff_toNat_le,
      UInt8.le_iff_toNat_le, hsecond]
    change 128 ≤ _ ∧ _ ≤ 159
    omega
  · exact isContinuation_ofNat _

theorem secondOfFour_ofNat {v : Nat} (hlow : 65536 ≤ v) (h : v < 0x110000) :
    secondOfFour (UInt8.ofNat (v / 262144 % 8 + 240)) (UInt8.ofNat (v / 4096 % 64 + 128)) = true := by
  have hfirst := toNat_ofNat_of_lt (show v / 262144 % 8 + 240 < 256 by omega)
  have hsecond := toNat_ofNat_of_lt (show v / 4096 % 64 + 128 < 256 by omega)
  unfold secondOfFour
  split_ifs with h0 h4
  · rw [h0] at hfirst
    change 240 = _ at hfirst
    rw [Bool.and_eq_true, decide_eq_true_eq, decide_eq_true_eq, UInt8.le_iff_toNat_le,
      UInt8.le_iff_toNat_le, hsecond]
    change 144 ≤ _ ∧ _ ≤ 191
    omega
  · rw [h4] at hfirst
    change 244 = _ at hfirst
    rw [Bool.and_eq_true, decide_eq_true_eq, decide_eq_true_eq, UInt8.le_iff_toNat_le,
      UInt8.le_iff_toNat_le, hsecond]
    change 128 ≤ _ ∧ _ ≤ 143
    omega
  · exact isContinuation_ofNat _

theorem utf8Step_utf8EncodeChar (c : Char) (rest : Bytes) :
    ∃ b tail, String.utf8EncodeChar c = b :: tail ∧
      utf8Step b (tail ++ rest) = (some c, tail.length) := by
  have hrange : c.val.toNat < 0xD800 ∨ 0xDFFF < c.val.toNat ∧ c.val.toNat < 0x110000 := c.valid
  have hback : Char.ofNat c.val.toNat = c := Char.ofNat_toNat c
  unfold String.utf8EncodeChar
  dsimp only
  generalize c.val.toNat = v at hrange hback
  split_ifs with h1 h2 h3
  · have hb := toNat_ofNat_of_lt (show v < 256 by omega)
    refine ⟨_, _, rfl, ?_⟩
    rw [utf8Step_one (by omega), hb, hback]
    rfl
  · have hb := toNat_ofNat_of_lt (show v / 64 % 32 + 192 < 256 by omega)
    have hvalue : (v / 64 % 32 + 192) % 32 * 64 + v % 64 = v := by omega
    refine ⟨_, _, rfl, ?_⟩
    rw [List.singleton_append, utf8Step_two (by omega) (isContinuation_ofNat v), hb,
      payloadBits_ofNat, hvalue, hback]
    rfl
  · have hb := toNat_ofNat_of_lt (show v / 4096 % 16 + 224 < 256 by omega)
    have hvalue : (v / 4096 % 16 + 224) % 16 * 4096 + v / 64 % 64 * 64 + v % 64 = v := by omega
    refine ⟨_, _, rfl, ?_⟩
    rw [List.cons_append, List.singleton_append, utf8Step_three (by omega)
      (secondOfThree_ofNat (by omega) (by omega)) (isContinuation_ofNat v), hb,
      payloadBits_ofNat, payloadBits_ofNat, hvalue, hback]
    rfl
  · have hb := toNat_ofNat_of_lt (show v / 262144 % 8 + 240 < 256 by omega)
    have hvalue : (v / 262144 % 8 + 240) % 8 * 262144 + v / 4096 % 64 * 4096 +
        v / 64 % 64 * 64 + v % 64 = v := by omega
    refine ⟨_, _, rfl, ?_⟩
    rw [List.cons_append, List.cons_append, List.singleton_append, utf8Step_four (by omega)
      (secondOfFour_ofNat (by omega) (by omega)) (isContinuation_ofNat _)
      (isContinuation_ofNat v), hb, payloadBits_ofNat, payloadBits_ofNat, payloadBits_ofNat,
      hvalue, hback]
    rfl

/-- The bytes of characters take as many steps as there are characters, and give them back. -/
theorem utf8Pieces_flatMap (chars : List Char) {n : Nat}
    (hn : (chars.flatMap String.utf8EncodeChar).length ≤ n) :
    utf8Pieces n (chars.flatMap String.utf8EncodeChar) = chars.map some := by
  induction chars generalizing n with
  | nil => simp [utf8Pieces]
  | cons c chars ih =>
      obtain ⟨b, tail, hchar, hstep⟩ := utf8Step_utf8EncodeChar c
        (chars.flatMap String.utf8EncodeChar)
      rw [List.flatMap_cons, hchar, List.cons_append] at hn ⊢
      rw [List.length_cons, List.length_append] at hn
      obtain ⟨m, rfl⟩ := Nat.exists_eq_add_one_of_ne_zero (show n ≠ 0 by omega)
      rw [utf8Pieces, hstep, List.drop_left, ih (by omega), List.map_cons]

theorem utf8Bytes_eq (s : String) : utf8Bytes s = s.toList.flatMap String.utf8EncodeChar := by
  have h : s.toUTF8 = s.toList.utf8Encode := by
    rw [String.toUTF8_eq_toByteArray]
    exact String.utf8Encode_toList.symm
  rw [utf8Bytes, h]
  simp [List.utf8Encode]

theorem utf8Bytes_eq_nil_iff {s : String} : utf8Bytes s = [] ↔ s = "" := by
  rw [utf8Bytes_eq, List.flatMap_eq_nil_iff]
  constructor
  · intro h
    cases hs : s.toList with
    | nil => exact String.toList_eq_nil_iff.mp hs
    | cons c l =>
        rw [hs] at h
        exact absurd (h c List.mem_cons_self) String.utf8EncodeChar_ne_nil
  · rintro rfl
    simp

theorem fromUtf8Lossy_utf8Bytes (s : String) : fromUtf8Lossy (utf8Bytes s) = s := by
  rw [fromUtf8Lossy, utf8Bytes_eq, utf8Pieces_flatMap s.toList (Nat.le_refl _), List.map_map]
  have hid : (fun o : Option Char => o.getD (Char.ofNat 0xFFFD)) ∘ some = id := rfl
  rw [hid, List.map_id, String.ofList_toList]

end Effects
