-- SUMMARY: What a decimal numeral denotes, and that reading one of a range gives exactly this.
import MemoryGraph.Number.Numeral
import MemoryGraph.Proofs.Outcome
import Mathlib.Logic.Basic

/-!
# What numerals denote

A text denotes an integer when it consists of ASCII digits, at least one of them
and perhaps with a sign in front, that have this value to the base ten. However
many digits there are, the reader of a range accepts the numerals of the integers
of that range and no other text, and it gives the integer that they denote: no
digit is dropped, and nothing wraps around at the ends of the range.
-/
namespace MemoryGraph

/-! ## Numerals -/

/-- Digits, at least one of them, with their value to the base ten. -/
structure Digits (ds : List Char) (n : Nat) : Prop where
  ne_nil : ds ≠ []
  isDigit : ∀ c ∈ ds, c.isDigit = true
  value : Nat.ofDigitChars 10 ds 0 = n

/-- A text that denotes an integer: digits behind a sign or none. -/
inductive Denotes : List Char → Int → Prop where
  | unsigned {ds : List Char} {n : Nat} : Digits ds n → Denotes ds n
  | plus {ds : List Char} {n : Nat} : Digits ds n → Denotes ('+' :: ds) n
  | minus {ds : List Char} {n : Nat} : Digits ds n → Denotes ('-' :: ds) (-n)

/-- A text that denotes an integer of a range. Where there are no negative integers there is no
minus sign either. -/
structure Numeral (range : IntegerRange) (cs : List Char) (n : Int) : Prop where
  denotes : Denotes cs n
  holds : range.holds n = true
  sign : cs.head? = some '-' → range.least < 0

/-- A range with zero in it. -/
structure IntegerRange.AroundZero (range : IntegerRange) : Prop where
  least : range.least ≤ 0
  greatest : 0 ≤ range.greatest

theorem IntegerRange.signed64_aroundZero : IntegerRange.signed64.AroundZero :=
  ⟨by decide, by decide⟩

theorem IntegerRange.unsigned64_aroundZero : IntegerRange.unsigned64.AroundZero :=
  ⟨by decide, by decide⟩

theorem IntegerRange.holds_iff {range : IntegerRange} {n : Int} :
    range.holds n = true ↔ range.least ≤ n ∧ n ≤ range.greatest := by
  simp [holds]

theorem not_digits_of_sign {c : Char} {ds : List Char} {n : Nat} (hc : c.isDigit = false) :
    ¬ Digits (c :: ds) n := by
  intro h
  exact Bool.false_ne_true (hc.symm.trans (h.isDigit c List.mem_cons_self))

theorem not_digits_nil {n : Nat} : ¬ Digits [] n := fun h => h.ne_nil rfl

/-- A text denotes one integer at most. -/
theorem Denotes.unique {cs : List Char} {m n : Int} (hm : Denotes cs m) (hn : Denotes cs n) :
    m = n := by
  cases hm with
  | unsigned hm =>
    cases hn with
    | unsigned hn => rw [← hm.value, ← hn.value]
    | plus _ => exact absurd hm (not_digits_of_sign rfl)
    | minus _ => exact absurd hm (not_digits_of_sign rfl)
  | plus hm =>
    cases hn with
    | unsigned hn => exact absurd hn (not_digits_of_sign rfl)
    | plus hn => rw [← hm.value, ← hn.value]
  | minus hm =>
    cases hn with
    | unsigned hn => exact absurd hn (not_digits_of_sign rfl)
    | minus hn => rw [← hm.value, ← hn.value]

theorem Denotes.ne_nil {cs : List Char} {n : Int} (h : Denotes cs n) : cs ≠ [] := by
  cases h with
  | unsigned h => exact h.ne_nil
  | plus _ => exact List.cons_ne_nil _ _
  | minus _ => exact List.cons_ne_nil _ _

theorem Denotes.isDigit_or_sign {cs : List Char} {n : Int} (h : Denotes cs n) :
    ∀ c ∈ cs, c.isDigit = true ∨ c = '+' ∨ c = '-' := by
  intro c hc
  cases h with
  | unsigned h => exact .inl (h.isDigit c hc)
  | plus h =>
    rcases List.mem_cons.1 hc with rfl | hc
    · exact .inr (.inl rfl)
    · exact .inl (h.isDigit c hc)
  | minus h =>
    rcases List.mem_cons.1 hc with rfl | hc
    · exact .inr (.inr rfl)
    · exact .inl (h.isDigit c hc)

/-! ## The usual numerals -/

theorem digits_toString (n : Nat) : Digits (toString n).toList n := by
  rw [Nat.toString_eq_repr, Nat.toList_repr]
  exact ⟨Nat.toDigits_ne_nil, fun c hc => Nat.isDigit_of_mem_toDigits (by omega) (by omega) hc,
    Nat.ofDigitChars_ten_toDigits⟩

theorem denotes_toString (n : Int) : Denotes (toString n).toList n := by
  cases n with
  | ofNat n => exact .unsigned (digits_toString n)
  | negSucc n =>
    have htext : (toString (Int.negSucc n)).toList = '-' :: (toString (n + 1)).toList := by
      rw [Int.toString_eq_repr, Int.repr, String.toList_append, Nat.toString_eq_repr]
      rfl
    rw [htext]
    exact .minus (digits_toString (n + 1))

/-- The usual numeral of an integer stands for it, and so does the one with a plus sign in front
when the integer is not negative. -/
theorem numeral_toString {range : IntegerRange} {n : Int} (h : range.holds n = true) :
    Numeral range (toString n).toList n ∧
      (0 ≤ n → Numeral range ('+' :: (toString n).toList) n) := by
  have hrange := IntegerRange.holds_iff.1 h
  refine ⟨⟨denotes_toString n, h, ?_⟩, fun hn => ⟨?_, h, by simp⟩⟩
  · intro hsign
    cases n with
    | ofNat n =>
      obtain ⟨rest, hrest⟩ := List.head?_eq_some_iff.1 hsign
      have hdigits : Digits (toString n).toList n := digits_toString n
      rw [show (toString n).toList = '-' :: rest from hrest] at hdigits
      exact absurd hdigits (not_digits_of_sign rfl)
    | negSucc n => omega
  · obtain ⟨m, rfl⟩ := Int.eq_ofNat_of_zero_le hn
    exact .plus (digits_toString m)

/-! ## Reading digits -/

theorem digitValue?_eq (c : Char) :
    digitValue? c = if c.isDigit = true then some (c.toNat - '0'.toNat) else none := by
  have hrange : ('0' ≤ c ∧ c ≤ '9') ↔ c.isDigit = true := by
    rw [Char.isDigit_iff_toNat]
    rfl
  simp only [digitValue?, hrange]

theorem le_ofDigitChars (acc : Nat) (ds : List Char) : acc ≤ Nat.ofDigitChars 10 ds acc := by
  induction ds generalizing acc with
  | nil => exact Nat.le_of_eq Nat.ofDigitChars_nil.symm
  | cons c ds ih =>
    rw [Nat.ofDigitChars_cons]
    have hrest := ih (10 * acc + (c.toNat - '0'.toNat))
    omega

/-- Reading goes on as long as the number stays within the limit, and it does so to the end exactly
when the number that all digits stand for does. -/
theorem readDigits_eq_ok {limit acc n : Nat} {beyond : NumeralError} {ds : List Char}
    (hacc : acc ≤ limit) :
    readDigits limit beyond acc ds = .ok n ↔
      (∀ c ∈ ds, c.isDigit = true) ∧ Nat.ofDigitChars 10 ds acc = n ∧ n ≤ limit := by
  induction ds generalizing acc with
  | nil =>
    rw [readDigits, Nat.ofDigitChars_nil, Except.ok.injEq]
    constructor
    · rintro rfl
      exact ⟨by simp, rfl, hacc⟩
    · exact fun h => h.2.1
  | cons c ds ih =>
    rw [readDigits, digitValue?_eq, List.forall_mem_cons, Nat.ofDigitChars_cons, Nat.mul_comm 10]
    by_cases hdigit : c.isDigit = true
    · by_cases hlimit : acc * 10 + (c.toNat - '0'.toNat) ≤ limit
      · simp only [hdigit, hlimit, if_true, ih hlimit, true_and]
      · have hbeyond := le_ofDigitChars (acc * 10 + (c.toNat - '0'.toNat)) ds
        simp only [hdigit, hlimit, if_true, if_false]
        constructor
        · intro h
          cases h
        · rintro ⟨_, rfl, hle⟩
          omega
    · simp [hdigit]

/-! ## Reading numerals -/

theorem readDigits_zero_eq_ok {limit n : Nat} {beyond : NumeralError} {ds : List Char}
    (hne : ds ≠ []) :
    readDigits limit beyond 0 ds = .ok n ↔ Digits ds n ∧ n ≤ limit := by
  rw [readDigits_eq_ok (Nat.zero_le limit)]
  constructor
  · rintro ⟨hdigits, hvalue, hle⟩
    exact ⟨⟨hne, hdigits, hvalue⟩, hle⟩
  · rintro ⟨h, hle⟩
    exact ⟨h.isDigit, h.value, hle⟩

section Range

variable {range : IntegerRange} {cs : List Char} {n : Int}

theorem IntegerRange.AroundZero.holds_natCast (h : range.AroundZero) {m : Nat} :
    range.holds m = true ↔ m ≤ range.greatest.toNat := by
  have hleast := h.least
  have hgreatest := h.greatest
  rw [holds_iff]
  omega

theorem IntegerRange.AroundZero.holds_neg_natCast (h : range.AroundZero) {m : Nat} :
    range.holds (-(m : Int)) = true ↔ m ≤ (-range.least).toNat := by
  have hleast := h.least
  have hgreatest := h.greatest
  rw [holds_iff]
  omega

theorem numeral_plus : Numeral range ('+' :: cs) n ↔
    ∃ m : Nat, (Digits cs m ∧ range.holds m = true) ∧ (m : Int) = n := by
  constructor
  · rintro ⟨hdenotes, hholds, _⟩
    cases hdenotes with
    | unsigned h => exact absurd h (not_digits_of_sign rfl)
    | plus h => exact ⟨_, ⟨h, hholds⟩, rfl⟩
  · rintro ⟨m, ⟨h, hholds⟩, rfl⟩
    exact ⟨.plus h, hholds, by simp⟩

theorem numeral_minus : Numeral range ('-' :: cs) n ↔ range.least < 0 ∧
    ∃ m : Nat, (Digits cs m ∧ range.holds (-(m : Int)) = true) ∧ -(m : Int) = n := by
  constructor
  · rintro ⟨hdenotes, hholds, hsign⟩
    refine ⟨hsign rfl, ?_⟩
    cases hdenotes with
    | unsigned h => exact absurd h (not_digits_of_sign rfl)
    | minus h => exact ⟨_, ⟨h, hholds⟩, rfl⟩
  · rintro ⟨hsign, m, ⟨h, hholds⟩, rfl⟩
    exact ⟨.minus h, hholds, fun _ => hsign⟩

theorem numeral_unsigned (hplus : ∀ ds, cs ≠ '+' :: ds) (hminus : ∀ ds, cs ≠ '-' :: ds) :
    Numeral range cs n ↔ ∃ m : Nat, (Digits cs m ∧ range.holds m = true) ∧ (m : Int) = n := by
  constructor
  · rintro ⟨hdenotes, hholds, _⟩
    cases hdenotes with
    | unsigned h => exact ⟨_, ⟨h, hholds⟩, rfl⟩
    | plus h => exact absurd rfl (hplus _)
    | minus h => exact absurd rfl (hminus _)
  · rintro ⟨m, ⟨h, hholds⟩, rfl⟩
    refine ⟨.unsigned h, hholds, fun hsign => ?_⟩
    obtain ⟨ds, hds⟩ := List.head?_eq_some_iff.1 hsign
    exact absurd hds (hminus ds)

/-- A reader accepts the numerals of its range and no other texts, and gives what they denote. -/
theorem readNumeralChars_eq_ok (hrange : range.AroundZero) :
    readNumeralChars range cs = .ok n ↔ Numeral range cs n := by
  unfold readNumeralChars
  -- The cases of the reader: no digits (three times), a sign before digits, digits alone.
  split
  case h_1 => simp [numeral_unsigned, not_digits_nil]
  case h_2 => simp [numeral_plus, not_digits_nil]
  case h_3 => simp [numeral_minus, not_digits_nil]
  case h_4 ds hne =>
    have hne : ds ≠ [] := fun hnil => hne (by rw [hnil])
    rw [numeral_plus, map_eq_ok]
    simp only [readDigits_zero_eq_ok hne, hrange.holds_natCast]
    rfl
  case h_5 ds hne =>
    have hne : ds ≠ [] := fun hnil => hne (by rw [hnil])
    rw [numeral_minus]
    split
    · rename_i hnegative
      simp only [map_eq_ok, bind_pure_eq_ok, readDigits_zero_eq_ok hne, hrange.holds_neg_natCast,
        hnegative, true_and, exists_exists_and_eq_and]
    · rename_i hnegative
      simp [hnegative]
  case h_6 hne _ _ hplus hminus =>
    rw [numeral_unsigned hplus hminus, map_eq_ok]
    simp only [readDigits_zero_eq_ok hne, hrange.holds_natCast]
    rfl

end Range

end MemoryGraph
