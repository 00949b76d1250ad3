-- SUMMARY: Lenient arguments are read as exactly the integers that their numbers and numerals stand for.
import MemoryGraph.Proofs.Numerals
import MemoryGraph.Proofs.Pieces
import MemoryGraph.Proofs.Trimming
import MemoryGraph.Server.Argument

/-!
# What lenient arguments stand for

An integer is given as a number or as its numeral with blanks around it, and ids
as one number, as an array of such values, or as a text of numerals with commas
and blanks between them. The readers accept what stands for integers in one of
these ways and nothing else. Whichever way is chosen, the outcome is the same,
and every piece of a text counts: one that is no numeral of the range refuses all.
-/
namespace MemoryGraph.Argument

open Text

/-! ## Standing for integers -/

/-- What stands for an integer of a range: the number, or its numeral between blanks. -/
inductive StandsFor (range : IntegerRange) : Json → Int → Prop where
  | number {n : Int} : range.holds n = true → StandsFor range (.number (.integer n)) n
  | numeral {text : String} {before cs after : List Char} {n : Int} :
      text.toList = before ++ (cs ++ after) → (∀ c ∈ before, isBlank c = true) →
      Numeral range cs n → (∀ c ∈ after, isBlank c = true) → StandsFor range (.string text) n

/-- A text of ids: their numerals, kept apart by delimiters, of which there may be any number
between two of them and at both ends. -/
inductive IdText : List Char → List Int → Prop where
  | nil : IdText [] []
  | delimiter {c : Char} {cs : List Char} {ns : List Int} :
      isIdDelimiter c = true → IdText cs ns → IdText (c :: cs) ns
  | numeral {cs rest : List Char} {n : Int} {ns : List Int} :
      Numeral .signed64 cs n → (∀ c ∈ rest.head?, isIdDelimiter c = true) → IdText rest ns →
      IdText (cs ++ rest) (n :: ns)

/-- What stands for a list of ids. -/
inductive StandsForIds : Json → List Int → Prop where
  | one {n : Int} :
      IntegerRange.signed64.holds n = true → StandsForIds (.number (.integer n)) [n]
  | array {items : List Json} {ns : List Int} :
      List.Forall₂ (StandsFor .signed64) items ns → StandsForIds (.array items) ns
  | text {text : String} {ns : List Int} :
      IdText text.toList ns → StandsForIds (.string text) ns

/-! ## Characters of numerals -/

section Numeral

variable {range : IntegerRange} {cs : List Char} {n : Int}

theorem isIdDelimiter_of_isBlank {c : Char} (h : isBlank c = true) : isIdDelimiter c = true := by
  simp [isIdDelimiter, h]

theorem not_delimiter_of_isDigit {c : Char} (h : c.isDigit = true) : isIdDelimiter c = false := by
  have hblanks : (blanks.all fun d => !d.isDigit) = true := by decide +kernel
  have hblank : isBlank c = false := by
    by_contra hblank
    have hmem : c ∈ blanks := List.contains_iff_mem.1 (Bool.of_not_eq_false hblank)
    have hno := List.all_eq_true.1 hblanks c hmem
    simp [h] at hno
  have hcomma : c ≠ ',' := by
    rintro rfl
    exact absurd h (by decide)
  simp [isIdDelimiter, hblank, hcomma]

theorem not_delimiter_of_numeral (h : Numeral range cs n) : ∀ c ∈ cs, isIdDelimiter c = false := by
  intro c hc
  rcases h.denotes.isDigit_or_sign c hc with hdigit | rfl | rfl
  · exact not_delimiter_of_isDigit hdigit
  · decide
  · decide

theorem trimmed_of_no_delimiter (h : ∀ c ∈ cs, isIdDelimiter c = false) : Trimmed cs := by
  have hblank : ∀ c ∈ cs, isBlank c = false := by
    intro c hc
    by_contra hblank
    have hdelimiter := isIdDelimiter_of_isBlank (Bool.of_not_eq_false hblank)
    rw [h c hc] at hdelimiter
    cases hdelimiter
  exact ⟨fun c hc => hblank c (List.mem_of_mem_head? hc),
    fun c hc => hblank c (List.mem_of_mem_getLast? hc)⟩

/-- A numeral of an integer beyond the range is none of the range. -/
theorem not_numeral_of_beyond {m : Int} (h : Denotes cs m) (hbeyond : range.holds m = false) :
    ¬ Numeral range cs n := by
  intro hn
  have hholds := hn.holds
  rw [← h.unique hn.denotes, hbeyond] at hholds
  cases hholds

/-- A text with a character that is neither a digit nor a sign is no numeral. -/
theorem not_numeral_of_mem {c : Char} (hc : c ∈ cs) (hdigit : c.isDigit = false) (hplus : c ≠ '+')
    (hminus : c ≠ '-') : ¬ Numeral range cs n := by
  intro h
  rcases h.denotes.isDigit_or_sign c hc with hyes | hyes | hyes
  · rw [hdigit] at hyes
    cases hyes
  · exact hplus hyes
  · exact hminus hyes

end Numeral

/-! ## Single integers -/

section Integer

variable {range : IntegerRange} {n : Int}

theorem integerOfText_eq_ok (hrange : range.AroundZero) {text : String} :
    integerOfText range text = .ok n ↔ Numeral range (trimChars text.toList) n := by
  rw [integerOfText, mapError_eq_ok, readNumeral, toList_trim, readNumeralChars_eq_ok hrange]

theorem standsFor_string {text : String} :
    StandsFor range (.string text) n ↔ Numeral range (trimChars text.toList) n := by
  constructor
  · rintro (_ | ⟨htext, hbefore, h, hafter⟩)
    have htrimmed := trimmed_of_no_delimiter (not_delimiter_of_numeral h)
    rwa [htext, htrimmed.trimChars_between hbefore hafter]
  · intro h
    obtain ⟨before, after, htext, hbefore, hafter⟩ := exists_trimChars text.toList
    exact .numeral htext hbefore h hafter

theorem standsFor_number {number : JsonNumber} :
    StandsFor range (.number number) n ↔ (Json.number number).integer? range = some n := by
  cases number with
  | integer m =>
    rw [Json.integer?]
    constructor
    · rintro ⟨h⟩
      rw [if_pos h]
    · intro h
      split at h
      · rename_i hholds
        cases h
        exact .number hholds
      · cases h
  | decimal d =>
    constructor
    · rintro ⟨⟩
    · rintro ⟨⟩

/-- A reader of integers accepts what stands for one. -/
theorem integer_eq_ok (hrange : range.AroundZero) {j : Json} :
    integer range j = .ok n ↔ StandsFor range j n := by
  cases j with
  | string text => rw [integer, integerOfText_eq_ok hrange, standsFor_string]
  | number number =>
    rw [integer, standsFor_number]
    · cases (Json.number number).integer? range <;> simp
    · simp
  | null => constructor <;> rintro ⟨⟩
  | bool b => constructor <;> rintro ⟨⟩
  | array items => constructor <;> rintro ⟨⟩
  | object fields => constructor <;> rintro ⟨⟩

theorem not_standsFor_of_allBlank {text : String} (h : allBlank text = true) :
    ¬ StandsFor range (.string text) n := by
  rw [standsFor_string, trimChars_eq_nil.2 h]
  intro hnil
  exact hnil.denotes.ne_nil rfl

/-- A reader of integers that may be left out gives the same integers. -/
theorem optionalInteger_eq_ok (hrange : range.AroundZero) {j : Json} :
    optionalInteger range (some j) = .ok (some n) ↔ StandsFor range j n := by
  have hsome (x : Except ArgumentError Int) : x.map some = .ok (some n) ↔ x = .ok n := by
    simp [map_eq_ok]
  cases j with
  | null => constructor <;> rintro ⟨⟩
  | string text =>
    rw [optionalInteger]
    split
    · rename_i hblank
      simp [not_standsFor_of_allBlank hblank]
    · rw [hsome, integerOfText_eq_ok hrange, standsFor_string]
  | _ => rw [← integer_eq_ok hrange, ← hsome]; rfl

/-- An integer is left out when nothing is given, or `null`, or a blank text. -/
theorem optionalInteger_eq_none {given : Option Json} :
    optionalInteger range given = .ok none ↔ given = none ∨ given = some .null ∨
      ∃ text, given = some (.string text) ∧ allBlank text = true := by
  have hsome (x : Except ArgumentError Int) : ¬ x.map some = .ok none := by simp [map_eq_ok]
  cases given with
  | none => exact ⟨fun _ => .inl rfl, fun _ => rfl⟩
  | some j =>
    cases j with
    | null => exact ⟨fun _ => .inr (.inl rfl), fun _ => rfl⟩
    | string text =>
      rw [optionalInteger]
      split
      · rename_i hblank
        simp [hblank]
      · rename_i hblank
        simp [hsome, hblank]
    | _ => simp [optionalInteger, hsome]

end Integer

/-! ## Lists of ids -/

theorem idItem?_value {j : Json} {n : Int} :
    (∃ item, idItem? j = some item ∧ item.value = .ok n) ↔ StandsFor .signed64 j n := by
  rw [← integer_eq_ok IntegerRange.signed64_aroundZero]
  cases j with
  | string text => simp [idItem?, IdItem.value, integer]
  | number number =>
    rw [idItem?, integer]
    · cases (Json.number number).integer? .signed64 <;> simp [IdItem.value]
    · simp
    · simp
  | _ => simp [idItem?, integer, Json.integer?]

theorem ids_array_eq_ok {items : List Json} {ns : List Int} :
    ids (.array items) = .ok ns ↔ List.Forall₂ (StandsFor .signed64) items ns := by
  have hpasses : ids (.array items) = .ok ns ↔
      ∃ read, items.mapM idItem? = some read ∧ read.mapM IdItem.value = .ok ns := by
    rw [ids]
    cases items.mapM idItem? <;> simp
  simp only [hpasses, mapM_eq_some, mapM_eq_ok, forall₂_comp, idItem?_value]

/-- The numerals of a text of ids are its fields. -/
theorem forall₂_of_idText {cs : List Char} {ns : List Int} (h : IdText cs ns) :
    List.Forall₂ (Numeral .signed64) (fieldChars isIdDelimiter cs) ns := by
  induction h with
  | nil => exact .nil
  | delimiter hc _ ih => rwa [fieldChars_cons_cut hc]
  | numeral h hrest _ ih =>
    rw [fieldChars_append_of_no_cut h.denotes.ne_nil (not_delimiter_of_numeral h) hrest]
    exact .cons h ih

theorem idText_of_forall₂ {cs : List Char} {ns : List Int}
    (h : List.Forall₂ (Numeral .signed64) (fieldChars isIdDelimiter cs) ns) : IdText cs ns := by
  -- A step takes a delimiter, or all that stands before the next one.
  induction hlength : cs.length using Nat.strong_induction_on generalizing cs ns with
  | _ length ih =>
    cases cs with
    | nil =>
      cases h
      exact .nil
    | cons c cs =>
      by_cases hc : isIdDelimiter c = true
      · rw [fieldChars_cons_cut hc] at h
        exact .delimiter hc (ih cs.length (by simp [← hlength]) h rfl)
      · obtain ⟨run, rest, hsplit, hne, hrun, hrest⟩ := exists_run hc cs
        rw [hsplit, fieldChars_append_of_no_cut hne hrun hrest] at h
        obtain ⟨n, ms, hn, hms, rfl⟩ := List.forall₂_cons_left_iff.1 h
        have hshort : rest.length < length := by
          have hcount := congrArg List.length hsplit
          have hpositive := List.length_pos_iff.2 hne
          rw [List.length_append] at hcount
          omega
        rw [hsplit]
        exact .numeral hn hrest (ih rest.length hshort hms rfl)

section Text

variable {text : String} {ns : List Int}

/-- No field of a text of ids has a blank to trim. -/
theorem integerOfText_field {cs : List Char} {n : Int} (h : ∀ c ∈ cs, isIdDelimiter c = false) :
    integerOfText .signed64 (String.ofList cs) = .ok n ↔ Numeral .signed64 cs n := by
  rw [integerOfText_eq_ok IntegerRange.signed64_aroundZero, String.toList_ofList,
    (trimmed_of_no_delimiter h).trimChars_eq]

theorem idsOfText_eq_ok : idsOfText text = .ok ns ↔
    List.Forall₂ (Numeral .signed64) (fieldChars isIdDelimiter text.toList) ns := by
  have hno : ∀ cs ∈ fieldChars isIdDelimiter text.toList, ∀ c ∈ cs, isIdDelimiter c = false :=
    fun _ hcs => not_cut_of_mem_fieldChars hcs
  rw [idsOfText, mapM_eq_ok, fieldsAt_eq, List.forall₂_map_left_iff]
  constructor
  · intro h
    exact ((List.forall₂_and_left _ _).2 ⟨hno, h⟩).imp fun cs n h => (integerOfText_field h.1).1 h.2
  · intro h
    exact ((List.forall₂_and_left _ _).2 ⟨hno, h⟩).imp fun cs n h => (integerOfText_field h.1).2 h.2

theorem ids_text_eq_ok : ids (.string text) = .ok ns ↔ List.Forall₂
    (fun piece n => Numeral .signed64 piece.toList n) (fieldsAt isIdDelimiter text) ns := by
  rw [ids, idsOfText_eq_ok, fieldsAt_eq, List.forall₂_map_left_iff]
  simp only [String.toList_ofList]

/-- A text of ids is refused for a field that is no numeral, and for nothing else. -/
theorem ids_text_eq_error : (∃ fault, ids (.string text) = .error (.invalidNumeral fault)) ↔
    ∃ piece ∈ fieldsAt isIdDelimiter text, ∀ n, ¬ Numeral .signed64 piece.toList n := by
  constructor
  · rintro ⟨fault, hfault⟩
    obtain ⟨piece, hpiece, hpiecefault⟩ := mapM_eq_error hfault
    refine ⟨piece, hpiece, fun n hn => ?_⟩
    have htrimmed := trimmed_of_no_delimiter (not_delimiter_of_numeral hn)
    rw [← htrimmed.trimChars_eq, ← integerOfText_eq_ok IntegerRange.signed64_aroundZero,
      hpiecefault] at hn
    cases hn
  · rintro ⟨piece, hpiece, hno⟩
    cases h : ids (.string text) with
    | ok ns =>
      obtain ⟨n, _, hn⟩ := exists_of_forall₂ (ids_text_eq_ok.1 h) hpiece
      exact absurd hn (hno n)
    | error cause =>
      obtain ⟨_, _, hcause⟩ := mapM_eq_error h
      obtain ⟨fault, _, rfl⟩ := mapError_eq_error.1 hcause
      exact ⟨fault, rfl⟩

end Text

/-- A list of ids is read from what stands for it. -/
theorem ids_eq_ok {j : Json} {ns : List Int} : ids j = .ok ns ↔ StandsForIds j ns := by
  cases j with
  | string text =>
    rw [ids, idsOfText_eq_ok]
    constructor
    · exact fun h => .text (idText_of_forall₂ h)
    · rintro ⟨⟩
      exact forall₂_of_idText ‹_›
  | array items =>
    rw [ids_array_eq_ok]
    constructor
    · exact .array
    · rintro ⟨⟩
      assumption
  | number number =>
    have hone : ids (.number number) = .ok ns ↔
        ∃ n, StandsFor .signed64 (.number number) n ∧ [n] = ns := by
      simp only [standsFor_number, ids]
      cases (Json.number number).integer? .signed64 <;> simp
    rw [hone]
    constructor
    · rintro ⟨n, ⟨h⟩, rfl⟩
      exact .one h
    · rintro ⟨h⟩
      exact ⟨_, .number h, rfl⟩
  | null => constructor <;> rintro ⟨⟩
  | bool b => constructor <;> rintro ⟨⟩
  | object fields => constructor <;> rintro ⟨⟩

/-- The strict form of a list of ids is accepted when they fit 64 bits. -/
theorem ids_array_int {ns : List Int} :
    ids (.array (ns.map Json.int)) = .ok ns ↔ ∀ n ∈ ns, IntegerRange.signed64.holds n = true := by
  rw [ids_array_eq_ok, List.forall₂_map_left_iff, List.forall₂_same]
  refine forall₂_congr fun n _ => ?_
  constructor
  · rintro ⟨h⟩
    exact h
  · exact .number

/-! ## Lenient and strict arguments -/

/-- Integers and ids are read from all that stands for them and from nothing else. The usual
numerals, with a plus sign or without, stand for their integers, so that each way to give integers
comes to the same as the strict one; a numeral beyond the range or a text with any other character
stands for none, and one such field refuses a text of ids. -/
theorem lenient_arguments_exact {range : IntegerRange}
    (hrange : range = .signed64 ∨ range = .unsigned64) :
    (∀ j n, integer range j = .ok n ↔ StandsFor range j n) ∧
    (∀ j n, optionalInteger range (some j) = .ok (some n) ↔ StandsFor range j n) ∧
    (∀ given, optionalInteger range given = .ok none ↔ given = none ∨ given = some .null ∨
      ∃ text, given = some (.string text) ∧ allBlank text = true) ∧
    (∀ n, range.holds n = true → Numeral range (toString n).toList n ∧
      (0 ≤ n → Numeral range ('+' :: (toString n).toList) n)) ∧
    (∀ cs m n, Denotes cs m → range.holds m = false → ¬ Numeral range cs n) ∧
    (∀ cs n, ∀ c ∈ cs, c.isDigit = false → c ≠ '+' → c ≠ '-' → ¬ Numeral range cs n) ∧
    (∀ ns, ids (.array (ns.map Json.int)) = .ok ns ↔
      ∀ n ∈ ns, IntegerRange.signed64.holds n = true) ∧
    (∀ j ns, ids j = .ok ns ↔ StandsForIds j ns) ∧
    (∀ text ns, ids (.string text) = .ok ns ↔ List.Forall₂
      (fun piece n => Numeral .signed64 piece.toList n) (fieldsAt isIdDelimiter text) ns) ∧
    ∀ text, (∃ fault, ids (.string text) = .error (.invalidNumeral fault)) ↔
      ∃ piece ∈ fieldsAt isIdDelimiter text, ∀ n, ¬ Numeral .signed64 piece.toList n := by
  have hzero : range.AroundZero := by
    rcases hrange with rfl | rfl
    · exact IntegerRange.signed64_aroundZero
    · exact IntegerRange.unsigned64_aroundZero
  refine ⟨fun j n => integer_eq_ok hzero, fun j n => optionalInteger_eq_ok hzero,
    fun given => optionalInteger_eq_none, fun n => numeral_toString,
    fun cs m n => not_numeral_of_beyond, fun cs n c => not_numeral_of_mem, fun ns => ids_array_int,
    fun j ns => ids_eq_ok, fun text ns => ids_text_eq_ok, fun text => ids_text_eq_error⟩

/-- Both ends of a range are read from texts. -/
theorem lenient_arguments_exact_limits :
    (IntegerRange.unsigned64 = .signed64 ∨ IntegerRange.unsigned64 = .unsigned64) ∧
    optionalInteger .unsigned64 (some (.string " +18446744073709551615\t")) =
      .ok (some 18446744073709551615) ∧
    ids (.string ",-9223372036854775808 ,\u3000+9223372036854775807 0") =
      .ok [-9223372036854775808, 9223372036854775807, 0] := by
  obtain ⟨_, hoptional, _, hnumeral, _⟩ := @lenient_arguments_exact .unsigned64 (.inr rfl)
  obtain ⟨_, _, _, hid, _, _, _, _, htext, _⟩ := lenient_arguments_exact (.inl rfl)
  have hgreatest : trimChars " +18446744073709551615\t".toList =
      '+' :: (toString (18446744073709551615 : Int)).toList := by decide
  have hfields : fieldsAt isIdDelimiter ",-9223372036854775808 ,\u3000+9223372036854775807 0" =
      ["-9223372036854775808", "+9223372036854775807", "0"] := by decide
  refine ⟨.inr rfl, (hoptional _ _).2 ?_, (htext _ _).2 ?_⟩
  · rw [standsFor_string, hgreatest]
    exact (hnumeral _ (by decide)).2 (by decide)
  · rw [hfields]
    refine .cons ?_ (.cons ?_ (.cons ?_ .nil))
    · rw [show "-9223372036854775808" = toString (-9223372036854775808 : Int) by decide]
      exact (hid _ (by decide)).1
    · rw [show "+9223372036854775807".toList = '+' :: (toString (9223372036854775807 : Int)).toList
        by decide]
      exact (hid _ (by decide)).2 (by decide)
    · rw [show "0" = toString (0 : Int) by decide]
      exact (hid _ (by decide)).1

end MemoryGraph.Argument
