-- SUMMARY: Texts stand in the order of their characters exactly when their bytes in UTF-8 do.
import Mathlib.Data.String.Basic

/-!
# The order of bytes

Texts are compared character by character, by code point. Their bytes give the
same order: a character of a higher code point has a higher first byte, or the
same first bytes and then a higher one. Neither of two such encodings begins the
other, so that what follows does not matter.
-/
namespace MemoryGraph.Text

/-- The bytes of a text in UTF-8. -/
def utf8 (s : String) : List UInt8 := s.toUTF8.data.toList

theorem utf8_eq_flatMap (s : String) : utf8 s = s.toList.flatMap String.utf8EncodeChar := by
  rw [utf8, String.toUTF8, ← String.utf8Encode_toList, List.utf8Encode, List.data_toByteArray]

section Bytes

variable {a b m n : Nat} {as bs : List UInt8}

theorem ofNat_cons_lt (hb : b < 256) (h : a < b ∨ a = b ∧ as < bs) :
    UInt8.ofNat a :: as < UInt8.ofNat b :: bs := by
  rw [List.cons_lt_cons_iff, UInt8.lt_iff_toNat_lt, UInt8.toNat_ofNat', UInt8.toNat_ofNat']
  rcases h with hlt | ⟨rfl, hrest⟩
  · exact .inl (by omega)
  · exact .inr ⟨rfl, hrest⟩

/-! The last one, two and three bytes, six bits of the code point each, where those before them are
the same. -/

theorem last_lt (h : m < n) (hsame : m / 64 = n / 64) :
    UInt8.ofNat (m % 64 + 128) :: as < UInt8.ofNat (n % 64 + 128) :: bs :=
  ofNat_cons_lt (by omega) (.inl (by omega))

theorem lastTwo_lt (h : m < n) (hsame : m / 4096 = n / 4096) :
    UInt8.ofNat (m / 64 % 64 + 128) :: UInt8.ofNat (m % 64 + 128) :: as <
      UInt8.ofNat (n / 64 % 64 + 128) :: UInt8.ofNat (n % 64 + 128) :: bs := by
  apply ofNat_cons_lt (by omega)
  by_cases hnext : m / 64 = n / 64
  · exact .inr ⟨by rw [hnext], last_lt h hnext⟩
  · exact .inl (by omega)

theorem lastThree_lt (h : m < n) (hsame : m / 262144 = n / 262144) :
    UInt8.ofNat (m / 4096 % 64 + 128) :: UInt8.ofNat (m / 64 % 64 + 128) ::
        UInt8.ofNat (m % 64 + 128) :: as <
      UInt8.ofNat (n / 4096 % 64 + 128) :: UInt8.ofNat (n / 64 % 64 + 128) ::
        UInt8.ofNat (n % 64 + 128) :: bs := by
  apply ofNat_cons_lt (by omega)
  by_cases hnext : m / 4096 = n / 4096
  · exact .inr ⟨by rw [hnext], lastTwo_lt h hnext⟩
  · exact .inl (by omega)

/-- The character of the lower code point has the lower bytes, whatever follows. -/
theorem utf8EncodeChar_append_lt {c d : Char} (h : c < d) :
    String.utf8EncodeChar c ++ as < String.utf8EncodeChar d ++ bs := by
  have hlt : c.val.toNat < d.val.toNat := h
  have hd : d.val.toNat < 0x110000 := by
    rcases d.valid with hd | ⟨_, hd⟩ <;> omega
  unfold String.utf8EncodeChar
  generalize c.val.toNat = m at hlt
  generalize d.val.toNat = n at hlt hd
  dsimp only
  -- Both have as many bytes, or the lower one has fewer and its first byte says so.
  split_ifs
  all_goals simp only [List.cons_append, List.nil_append]
  all_goals apply ofNat_cons_lt (by omega)
  all_goals try exact .inl (by omega)
  · by_cases hsame : m / 64 = n / 64
    · exact .inr ⟨by rw [hsame], last_lt hlt hsame⟩
    · exact .inl (by omega)
  · by_cases hsame : m / 4096 = n / 4096
    · exact .inr ⟨by rw [hsame], lastTwo_lt hlt hsame⟩
    · exact .inl (by omega)
  · by_cases hsame : m / 262144 = n / 262144
    · exact .inr ⟨by rw [hsame], lastThree_lt hlt hsame⟩
    · exact .inl (by omega)

end Bytes

theorem flatMap_utf8EncodeChar_lt {cs ds : List Char} (h : cs < ds) :
    cs.flatMap String.utf8EncodeChar < ds.flatMap String.utf8EncodeChar := by
  induction cs generalizing ds with
  | nil =>
    cases ds with
    | nil => cases h
    | cons d ds =>
      obtain ⟨byte, bytes, hd⟩ := List.exists_cons_of_ne_nil (String.utf8EncodeChar_ne_nil (c := d))
      rw [List.flatMap_nil, List.flatMap_cons, hd]
      exact List.nil_lt_cons _ _
  | cons c cs ih =>
    cases ds with
    | nil => cases h
    | cons d ds =>
      rw [List.flatMap_cons, List.flatMap_cons]
      rcases List.cons_lt_cons_iff.1 h with hlt | ⟨rfl, hrest⟩
      · exact utf8EncodeChar_append_lt hlt
      · exact List.append_left_lt (ih hrest)

/-- Texts are ordered as their bytes are. -/
theorem utf8_lt_iff {a b : String} : utf8 a < utf8 b ↔ a < b := by
  have hmono : ∀ {a b : String}, a < b → utf8 a < utf8 b := by
    intro a b hlt
    rw [utf8_eq_flatMap, utf8_eq_flatMap]
    exact flatMap_utf8EncodeChar_lt hlt
  constructor
  · intro hbytes
    rcases lt_trichotomy a b with hlt | rfl | hgt
    · exact hlt
    · exact absurd hbytes (List.lt_irrefl _)
    · exact absurd (hmono hgt) (List.lt_asymm hbytes)
  · exact hmono

end MemoryGraph.Text
