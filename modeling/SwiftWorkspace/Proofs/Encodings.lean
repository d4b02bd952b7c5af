import SwiftWorkspace.Text.Utf8

/-!
# Texts and their octets

Every character is written with one to four octets, and these octets are read as
this character again.  So a text can be read back from its octets, and octets
that can be read are the ones that their text is written with.  Only carriage
returns get lost between reading a file and writing it again.
-/

namespace SwiftWorkspace

namespace Utf8

section Octets

variable {first octet : UInt8}

theorem isTail_iff : isTail octet ↔ 0x80 ≤ octet.toNat ∧ octet.toNat ≤ 0xBF := by
  simp [isTail, UInt8.le_iff_toNat_le]

theorem isSecond_iff : isSecond first octet ↔ (0x80 ≤ octet.toNat ∧ octet.toNat ≤ 0xBF) ∧
    (first.toNat = 0xE0 → 0xA0 ≤ octet.toNat) ∧ (first.toNat = 0xED → octet.toNat ≤ 0x9F) ∧
    (first.toNat = 0xF0 → 0x90 ≤ octet.toNat) ∧ (first.toNat = 0xF4 → octet.toNat ≤ 0x8F) := by
  simp only [isSecond, isTail, ← UInt8.toNat_inj, UInt8.le_iff_toNat_le, UInt8.reduceToNat]
  split
  · simp; omega
  split
  · simp; omega
  split
  · simp; omega
  split
  · simp; omega
  simp; omega

theorem width?_eq : width? first =
    if first.toNat < 0x80 then some 1
    else if 0xC2 ≤ first.toNat ∧ first.toNat ≤ 0xDF then some 2
    else if 0xE0 ≤ first.toNat ∧ first.toNat ≤ 0xEF then some 3
    else if 0xF0 ≤ first.toNat ∧ first.toNat ≤ 0xF4 then some 4
    else none := by
  simp only [width?, UInt8.lt_iff_toNat_lt, UInt8.le_iff_toNat_le, UInt8.reduceToNat,
    Bool.and_eq_true, decide_eq_true_eq]

end Octets

/-- Which octets stand for a character. -/
inductive Spells (char : Char) : Bytes → Prop where
  | one {a : UInt8} (first : a.toNat < 0x80) (code : char.toNat = a.toNat) : Spells char [a]
  | two {a b : UInt8} (first : 0xC2 ≤ a.toNat ∧ a.toNat ≤ 0xDF) (second : isTail b)
      (code : char.toNat = (a.toNat - 0xC0) * 64 + (b.toNat - 0x80)) : Spells char [a, b]
  | three {a b c : UInt8} (first : 0xE0 ≤ a.toNat ∧ a.toNat ≤ 0xEF) (second : isSecond a b)
      (third : isTail c)
      (code : char.toNat = ((a.toNat - 0xE0) * 64 + (b.toNat - 0x80)) * 64 + (c.toNat - 0x80)) :
      Spells char [a, b, c]
  | four {a b c d : UInt8} (first : 0xF0 ≤ a.toNat ∧ a.toNat ≤ 0xF4) (second : isSecond a b)
      (third : isTail c) (fourth : isTail d)
      (code : char.toNat =
        (((a.toNat - 0xF0) * 64 + (b.toNat - 0x80)) * 64 + (c.toNat - 0x80)) * 64 +
          (d.toNat - 0x80)) :
      Spells char [a, b, c, d]

variable {char : Char} {octets rest content : Bytes} {text : Text}

theorem toNat_lt (char : Char) :
    char.toNat < 0xD800 ∨ 0xDFFF < char.toNat ∧ char.toNat < 0x110000 :=
  char.valid

/-- The octets that a character is written with, by its code. -/
theorem utf8EncodeChar_eq (char : Char) : String.utf8EncodeChar char =
    if char.toNat ≤ 0x7F then [UInt8.ofNat char.toNat]
    else if char.toNat ≤ 0x7FF then
      [UInt8.ofNat (char.toNat / 64 % 0x20 + 0xC0), UInt8.ofNat (char.toNat % 64 + 0x80)]
    else if char.toNat ≤ 0xFFFF then
      [UInt8.ofNat (char.toNat / 4096 % 0x10 + 0xE0), UInt8.ofNat (char.toNat / 64 % 64 + 0x80),
        UInt8.ofNat (char.toNat % 64 + 0x80)]
    else
      [UInt8.ofNat (char.toNat / 262144 % 8 + 0xF0), UInt8.ofNat (char.toNat / 4096 % 64 + 0x80),
        UInt8.ofNat (char.toNat / 64 % 64 + 0x80), UInt8.ofNat (char.toNat % 64 + 0x80)] := by
  rw [String.utf8EncodeChar]
  rfl

/-- A character is written with octets that stand for it. -/
theorem spells_utf8EncodeChar (char : Char) : Spells char (String.utf8EncodeChar char) := by
  have valid := toNat_lt char
  have size (number : Nat) (small : number < 256) : (UInt8.ofNat number).toNat = number :=
    UInt8.toNat_ofNat_of_lt' small
  rw [utf8EncodeChar_eq]
  split
  case isTrue one =>
      have first := size char.toNat (by omega)
      exact .one (by omega) first.symm
  case isFalse =>
      split
      case isTrue two =>
          have first := size (char.toNat / 64 % 0x20 + 0xC0) (by omega)
          have second := size (char.toNat % 64 + 0x80) (by omega)
          exact .two (by omega) (isTail_iff.mpr (by omega)) (by omega)
      case isFalse =>
          split
          case isTrue three =>
              have first := size (char.toNat / 4096 % 0x10 + 0xE0) (by omega)
              have second := size (char.toNat / 64 % 64 + 0x80) (by omega)
              have third := size (char.toNat % 64 + 0x80) (by omega)
              exact .three (by omega) (isSecond_iff.mpr (by omega))
                (isTail_iff.mpr (by omega)) (by omega)
          case isFalse =>
              have first := size (char.toNat / 262144 % 8 + 0xF0) (by omega)
              have second := size (char.toNat / 4096 % 64 + 0x80) (by omega)
              have third := size (char.toNat / 64 % 64 + 0x80) (by omega)
              have fourth := size (char.toNat % 64 + 0x80) (by omega)
              exact .four (by omega) (isSecond_iff.mpr (by omega)) (isTail_iff.mpr (by omega))
                (isTail_iff.mpr (by omega)) (by omega)

/-- Only the octets that a character is written with stand for it. -/
theorem Spells.eq_utf8EncodeChar (spells : Spells char octets) :
    octets = String.utf8EncodeChar char := by
  have ofNat (octet : UInt8) (number : Nat) (same : number = octet.toNat) :
      octet = UInt8.ofNat number := by
    rw [same, UInt8.ofNat_toNat]
  rw [utf8EncodeChar_eq]
  cases spells with
  | @one a first code => rw [if_pos (by omega), ← ofNat a _ code]
  | @two a b first second code =>
      rw [isTail_iff] at second
      rw [if_neg (by omega), if_pos (by omega), ← ofNat a _ (by omega), ← ofNat b _ (by omega)]
  | @three a b c first second third code =>
      rw [isTail_iff] at third
      rw [isSecond_iff] at second
      rw [if_neg (by omega), if_neg (by omega), if_pos (by omega), ← ofNat a _ (by omega),
        ← ofNat b _ (by omega), ← ofNat c _ (by omega)]
  | @four a b c d first second third fourth code =>
      rw [isTail_iff] at third fourth
      rw [isSecond_iff] at second
      rw [if_neg (by omega), if_neg (by omega), if_neg (by omega), ← ofNat a _ (by omega),
        ← ofNat b _ (by omega), ← ofNat c _ (by omega), ← ofNat d _ (by omega)]

/-- Octets that stand for a character are read as it, whatever follows them. -/
theorem Spells.decodeFrom (spells : Spells char octets) (position : Nat) :
    decodeFrom position (octets ++ rest) =
      (Utf8.decodeFrom (position + octets.length) rest).map (char :: ·) := by
  have isChar (code : Nat) (same : char.toNat = code) : Char.ofNat code = char := by
    rw [← same, Char.ofNat_toNat]
  cases spells with
  | @one a first code =>
      have width : width? a = some 1 := by rw [width?_eq, if_pos first]
      rw [List.singleton_append, Utf8.decodeFrom.eq_def]
      simp only [width, assemble, List.foldl_nil, isChar _ code, List.length_singleton]
  | @two a b first second code =>
      have width : width? a = some 2 := by rw [width?_eq, if_neg (by omega), if_pos first]
      rw [List.cons_append, List.singleton_append, Utf8.decodeFrom.eq_def]
      simp [width, second, assemble, isChar _ code]
  | @three a b c first second third code =>
      have width : width? a = some 3 := by
        rw [width?_eq, if_neg (by omega), if_neg (by omega), if_pos first]
      rw [List.cons_append, List.cons_append, List.singleton_append, Utf8.decodeFrom.eq_def]
      simp [width, second, third, assemble, isChar _ code]
  | @four a b c d first second third fourth code =>
      have width : width? a = some 4 := by
        rw [width?_eq, if_neg (by omega), if_neg (by omega), if_neg (by omega), if_pos first]
      rw [List.cons_append, List.cons_append, List.cons_append, List.singleton_append,
        Utf8.decodeFrom.eq_def]
      simp [width, second, third, fourth, assemble, isChar _ code]

theorem toNat_ofNat {code : Nat} (valid : code < 0xD800 ∨ 0xDFFF < code ∧ code < 0x110000) :
    (Char.ofNat code).toNat = code := by
  have isValid : code.isValidChar := valid
  rw [Char.ofNat, dif_pos isValid]
  rfl

/-- Octets that can be read begin with those of a character. -/
theorem exists_spells_of_decodeFrom {a : UInt8} {position : Nat}
    (decoded : Utf8.decodeFrom position (a :: rest) = .ok text) :
    ∃ char octets behind, Spells char octets ∧ a :: rest = octets ++ behind := by
  rw [Utf8.decodeFrom.eq_def] at decoded
  have width : Utf8.width? a = _ := width?_eq
  simp only at decoded
  split at decoded
  case h_1 known =>
      have first : a.toNat < 0x80 := by grind
      exact ⟨_, [a], rest, .one first (toNat_ofNat (by omega)), rfl⟩
  case h_2 known =>
      have first : 0xC2 ≤ a.toNat ∧ a.toNat ≤ 0xDF := by grind
      cases rest with
      | nil => simp at decoded
      | cons b rest =>
          by_cases second : isTail b
          · have range := isTail_iff.mp second
            exact ⟨_, [a, b], rest, .two first second (toNat_ofNat (by omega)), rfl⟩
          · simp [second] at decoded
  case h_3 known =>
      have first : 0xE0 ≤ a.toNat ∧ a.toNat ≤ 0xEF := by grind
      cases rest with
      | nil => simp at decoded
      | cons b rest =>
          by_cases second : isSecond a b
          · cases rest with
            | nil => simp [second] at decoded
            | cons c rest =>
                by_cases third : isTail c
                · have range := isSecond_iff.mp second
                  have range' := isTail_iff.mp third
                  exact ⟨_, [a, b, c], rest, .three first second third
                    (toNat_ofNat (by omega)), rfl⟩
                · simp [second, third] at decoded
          · simp [second] at decoded
  case h_4 number _ _ _ known =>
      have first : 0xF0 ≤ a.toNat ∧ a.toNat ≤ 0xF4 := by grind
      cases rest with
      | nil => simp at decoded
      | cons b rest =>
          by_cases second : isSecond a b
          · cases rest with
            | nil => simp [second] at decoded
            | cons c rest =>
                by_cases third : isTail c
                · cases rest with
                  | nil => simp [second, third] at decoded
                  | cons d rest =>
                      by_cases fourth : isTail d
                      · have range := isSecond_iff.mp second
                        have range' := isTail_iff.mp third
                        have range'' := isTail_iff.mp fourth
                        exact ⟨_, [a, b, c, d], rest,
                          .four first second third fourth (toNat_ofNat (by omega)), rfl⟩
                      · simp [second, third, fourth] at decoded
                · simp [second, third] at decoded
          · simp [second] at decoded
  case h_5 => cases decoded

theorem length_pos_of_spells (spells : Spells char octets) : 0 < octets.length := by
  cases spells <;> simp

theorem encode_cons : encode (char :: text) = String.utf8EncodeChar char ++ encode text :=
  List.flatMap_cons

theorem decodeFrom_encode (position : Nat) (text : Text) :
    decodeFrom position (encode text) = .ok text := by
  induction text generalizing position with
  | nil => rfl
  | cons char text ih => rw [encode_cons, (spells_utf8EncodeChar char).decodeFrom, ih]; rfl

theorem eq_encode_of_decodeFrom {position : Nat}
    (decoded : decodeFrom position content = .ok text) : content = encode text := by
  induction length : content.length using Nat.strongRecOn generalizing content text position with
  | ind size ih =>
      cases content with
      | nil =>
          obtain rfl : [] = text := Except.ok.inj decoded
          rfl
      | cons a rest =>
          obtain ⟨char, octets, behind, spells, whole⟩ := exists_spells_of_decodeFrom decoded
          rw [whole, spells.decodeFrom] at decoded
          cases further : decodeFrom (position + octets.length) behind with
          | error invalid => simp [further, Except.map] at decoded
          | ok after =>
              rw [further] at decoded
              obtain rfl : char :: after = text := Except.ok.inj decoded
              have shorter : behind.length < size := by
                have positive := length_pos_of_spells spells
                rw [← length, whole, List.length_append]
                omega
              rw [whole, encode_cons, ih _ shorter further rfl, spells.eq_utf8EncodeChar]

/-- Octets can be read exactly when they are those that the text is written with. -/
theorem decode_eq_ok_iff : decode content = .ok text ↔ content = encode text :=
  ⟨eq_encode_of_decodeFrom, fun same => same ▸ decodeFrom_encode 0 text⟩

theorem encode_injective {left right : Text} (same : encode left = encode right) : left = right :=
  Except.ok.inj ((decodeFrom_encode 0 left).symm.trans (decode_eq_ok_iff.mpr same))

theorem encode_sublist {left right : Text} (kept : left.Sublist right) :
    (encode left).Sublist (encode right) := by
  induction kept with
  | slnil => exact .slnil
  | cons char kept ih => exact ih.trans (List.sublist_append_right ..)
  | cons_cons char kept ih => exact (List.Sublist.refl _).append ih

end Utf8

namespace Text

/-- Without carriage returns a text has no line ends to translate. -/
theorem withLineFeeds_eq_self {text : Text} (noReturn : '\r' ∉ text) :
    text.withLineFeeds = text := by
  induction text with
  | nil => rfl
  | cons char text ih =>
      rw [List.mem_cons, not_or] at noReturn
      rw [withLineFeeds.eq_4, ih noReturn.2]
      · rintro _ rfl
        exact absurd rfl noReturn.1
      · rintro rfl
        exact absurd rfl noReturn.1

/-- No carriage return is left when line ends are translated. -/
theorem noReturn_withLineFeeds (text : Text) : '\r' ∉ text.withLineFeeds := by
  induction text using withLineFeeds.induct with
  | case1 => simp [withLineFeeds]
  | case2 text ih => simpa [withLineFeeds] using ih
  | case3 text other ih =>
      rw [withLineFeeds.eq_3 _ other]
      simpa using ih
  | case4 char text other other' ih =>
      rw [withLineFeeds.eq_4 _ _ other other', List.mem_cons, not_or]
      exact ⟨fun same => other' same.symm, ih⟩

theorem withLineFeeds_eq_self_iff {text : Text} : text.withLineFeeds = text ↔ '\r' ∉ text :=
  ⟨fun same => same ▸ noReturn_withLineFeeds text, withLineFeeds_eq_self⟩

end Text

end SwiftWorkspace
