-- SUMMARY: Reading an indented JSON text gives the value that was written, and refuses it when it nests too deeply.
import MemoryGraph.Json.Printer
import MemoryGraph.Json.Reader
import Mathlib.Tactic.SplitIfs

/-!
# Reading what was written

The reader is a machine that is fed one character after the other, so a text is
read piece by piece: what the first piece leaves is what the next one finds. The
text of a value takes the reader from where it waits for a value to where the
value stands in the array or object around it, whatever is open by then, unless
one of the arrays and objects in the value is one too many.
-/
namespace MemoryGraph.Json

/-! ## Values of texts -/

mutual
/-- How many arrays and objects of a value are open at once. -/
def nesting : Json → Nat
  | .array items => nestingItems items + 1
  | .object fields => nestingFields fields + 1
  | _ => 0
termination_by structural j => j
def nestingItems : List Json → Nat
  | [] => 0
  | j :: rest => max (nesting j) (nestingItems rest)
termination_by structural js => js
def nestingFields : List (String × Json) → Nat
  | [] => 0
  | (_, j) :: rest => max (nesting j) (nestingFields rest)
termination_by structural fields => fields
end

mutual
/-- A value is made of strings, arrays and objects alone. -/
def Textual : Json → Prop
  | .string _ => True
  | .array items => TextualItems items
  | .object fields => TextualFields fields
  | _ => False
termination_by structural j => j
def TextualItems : List Json → Prop
  | [] => True
  | j :: rest => Textual j ∧ TextualItems rest
termination_by structural js => js
def TextualFields : List (String × Json) → Prop
  | [] => True
  | (_, j) :: rest => Textual j ∧ TextualFields rest
termination_by structural fields => fields
end

/-! ## Feeding the reader -/

section Feeding

variable {c : Char} {cs more : List Char} {before after : Lexing × Reading}
  {lexing further : Lexing} {reading next : Reading} {token : Token} {e : ReadError}

theorem feed_cons (h : readChar before c = .ok after) :
    (c :: cs).foldlM readChar before = cs.foldlM readChar after := by
  rw [List.foldlM_cons, h]
  rfl

theorem feed_append (h : cs.foldlM readChar before = .ok after) :
    (cs ++ more).foldlM readChar before = more.foldlM readChar after := by
  rw [List.foldlM_append, h]
  rfl

theorem feed_append_error (h : cs.foldlM readChar before = .error e) :
    (cs ++ more).foldlM readChar before = .error e := by
  rw [List.foldlM_append, h]
  rfl

/-- A character that completes no token moves the machine below alone. -/
theorem readChar_silent (h : lexStep lexing c = .ok (further, [])) :
    readChar (lexing, reading) c = .ok (further, reading) := by
  unfold readChar
  rw [h]
  rfl

theorem readChar_token (h : lexStep lexing c = .ok (.between, [token])) :
    readChar (lexing, reading) c = (readToken reading token).map (Lexing.between, ·) := by
  unfold readChar
  rw [h]
  simp only [bind, Except.bind, List.foldlM]
  cases readToken reading token <;> rfl

/-- A bracket, a comma or a colon is a token of its own. -/
theorem feed_mark (hlex : lexBetween c = .ok (.between, [token]))
    (hread : readToken reading token = .ok next) :
    (c :: cs).foldlM readChar (.between, reading) = cs.foldlM readChar (.between, next) := by
  have hstep : lexStep .between c = .ok (.between, [token]) := hlex
  refine feed_cons ?_
  rw [readChar_token hstep, hread]
  rfl

theorem feed_mark_error (hlex : lexBetween c = .ok (.between, [token]))
    (hread : readToken reading token = .error e) :
    (c :: cs).foldlM readChar (.between, reading) = .error e := by
  have hstep : lexStep .between c = .ok (.between, [token]) := hlex
  rw [List.foldlM_cons, readChar_token hstep, hread]
  rfl

theorem feed_newLine (level : Nat) (reading : Reading) :
    (newLine level).foldlM readChar (.between, reading) = .ok (.between, reading) := by
  have hblanks : ∀ n, (List.replicate n ' ').foldlM readChar (.between, reading) =
      .ok (.between, reading) := by
    intro n
    induction n with
    | zero => rfl
    | succ n ih => exact ih
  exact hblanks (2 * level)

end Feeding

/-! ## Strings -/

section Strings

variable {c : Char}

theorem hexValue?_hexDigit {n : Nat} (h : n < 16) : hexValue? (hexDigit n) = some n := by
  have hall : ∀ n < 16, hexValue? (hexDigit n) = some n := by decide
  exact hall n h

/-- The code of a control character stands for this character. -/
theorem feed_code (hcontrol : c.toNat < 0x20) (done : List Char) (reading : Reading) :
    ['\\', 'u', '0', '0', hexDigit (c.toNat / 16), hexDigit (c.toNat % 16)].foldlM readChar
      (.text done, reading) = .ok (.text (c :: done), reading) := by
  have hhigh : hexValue? (hexDigit (c.toNat / 16)) = some (c.toNat / 16) :=
    hexValue?_hexDigit (by omega)
  have hlow : hexValue? (hexDigit (c.toNat % 16)) = some (c.toNat % 16) :=
    hexValue?_hexDigit (by omega)
  have hvalue : c.toNat / 16 * 16 + c.toNat % 16 = c.toNat := Nat.div_add_mod' _ _
  have hthird : lexStep (.code done none 2 0) (hexDigit (c.toNat / 16)) =
      .ok (.code done none 1 (c.toNat / 16), []) := by
    simp [lexStep, hhigh]
  have hfourth : lexStep (.code done none 1 (c.toNat / 16)) (hexDigit (c.toNat % 16)) =
      .ok (.text (c :: done), []) := by
    simp only [lexStep, hlow, hvalue, afterCode]
    rw [if_pos (Nat.le_refl 1), if_neg (by omega), if_neg (by omega), Char.ofNat_toNat]
    rfl
  calc _ = [hexDigit (c.toNat / 16), hexDigit (c.toNat % 16)].foldlM readChar
        (.code done none 2 0, reading) := rfl
    _ = [hexDigit (c.toNat % 16)].foldlM readChar (.code done none 1 (c.toNat / 16), reading) :=
        feed_cons (readChar_silent hthird)
    _ = _ := feed_cons (readChar_silent hfourth)

theorem feed_escapeChar (c : Char) (done : List Char) (reading : Reading) :
    (escapeChar c).foldlM readChar (.text done, reading) = .ok (.text (c :: done), reading) := by
  unfold escapeChar
  split_ifs with hquote hslash hfeed hreturn htab hback hform hcontrol
  · subst hquote
    rfl
  · subst hslash
    rfl
  · subst hfeed
    rfl
  · subst hreturn
    rfl
  · subst htab
    rfl
  · subst hback
    rfl
  · subst hform
    rfl
  · exact feed_code hcontrol done reading
  · have hplain : lexStep (.text done) c = .ok (.text (c :: done), []) := by
      simp [lexStep, hquote, hslash, hcontrol]
    exact feed_cons (readChar_silent hplain)

theorem feed_escaped (cs done : List Char) (reading : Reading) :
    (cs.flatMap escapeChar).foldlM readChar (.text done, reading) =
      .ok (.text (cs.reverse ++ done), reading) := by
  induction cs generalizing done with
  | nil => rfl
  | cons c cs ih =>
    rw [List.flatMap_cons, feed_append (feed_escapeChar c done reading), ih]
    simp

/-- A text between quotes is the token of this text. -/
theorem feed_quoted (s : String) (reading : Reading) :
    (quoted s).foldlM readChar (.between, reading) =
      (readToken reading (.string s)).map (Lexing.between, ·) := by
  have hopen : readChar (.between, reading) '"' = .ok (.text [], reading) := rfl
  have hclose : lexStep (.text (s.toList.reverse ++ [])) '"' = .ok (.between, [.string s]) := by
    simp [lexStep]
  unfold quoted
  rw [List.cons_append, feed_cons hopen, feed_append (feed_escaped s.toList [] reading)]
  simp only [List.foldlM_cons, readChar_token hclose, List.foldlM_nil]
  cases readToken reading (.string s) <;> rfl

/-- A key with its colon opens the place of its value. -/
theorem feed_key {cs : List Char} {fields : List (String × Json)} {stack : List Frame}
    {first : Bool} (key : String) :
    (quoted key ++ ':' :: ' ' :: cs).foldlM readChar (.between, .key fields stack first) =
      cs.foldlM readChar (.between, .value (.object fields key :: stack) false) := by
  have hkey : (quoted key).foldlM readChar (.between, .key fields stack first) =
      .ok (.between, .colon fields key stack) := feed_quoted key _
  rw [feed_append hkey]
  rfl

end Strings

/-! ## Texts that nest -/

/-- Where the reader stands behind a text that has had `depth` arrays and objects open at once. -/
def readUpTo (depth : Nat) (next : Reading) : Except ReadError (Lexing × Reading) :=
  if depth ≤ nestingLimit then .ok (.between, next) else .error .tooDeep

theorem readUpTo_of_le {depth : Nat} (h : depth ≤ nestingLimit) (next : Reading) :
    readUpTo depth next = .ok (.between, next) :=
  if_pos h

theorem readUpTo_of_lt {depth : Nat} (h : nestingLimit < depth) (next : Reading) :
    readUpTo depth next = .error .tooDeep :=
  if_neg (Nat.not_le.2 h)

/-- Of two texts behind each other the deeper one decides. -/
theorem feed_both {cs more : List Char} {before : Lexing × Reading} {mid next : Reading}
    {m n : Nat} (hfirst : cs.foldlM readChar before = readUpTo m mid)
    (hsecond : more.foldlM readChar (.between, mid) = readUpTo n next) :
    (cs ++ more).foldlM readChar before = readUpTo (max m n) next := by
  by_cases hm : m ≤ nestingLimit
  · rw [readUpTo_of_le hm] at hfirst
    rw [feed_append hfirst, hsecond]
    simp only [readUpTo, Nat.max_le, hm, true_and]
  · have hdeep : nestingLimit < m := Nat.not_le.1 hm
    rw [readUpTo_of_lt hdeep] at hfirst
    rw [feed_append_error hfirst, readUpTo_of_lt (Nat.lt_of_lt_of_le hdeep (Nat.le_max_left m n))]

/-- An opening bracket needs room for one more array or object, and what stands behind it needs
the rest. -/
theorem feed_opening {c : Char} {cs : List Char} {token : Token} {stack : List Frame} {first : Bool}
    {inside next : Reading} {depth : Nat} (hlex : lexBetween c = .ok (.between, [token]))
    (hread : readToken (.value stack first) token =
      if stack.length < nestingLimit then .ok inside else .error .tooDeep)
    (hinside : stack.length < nestingLimit →
      cs.foldlM readChar (.between, inside) = readUpTo (stack.length + 1 + depth) next) :
    (c :: cs).foldlM readChar (.between, .value stack first) =
      readUpTo (stack.length + (depth + 1)) next := by
  by_cases hroom : stack.length < nestingLimit
  · rw [feed_mark hlex (hread.trans (if_pos hroom)), hinside hroom, Nat.add_assoc,
      Nat.add_comm 1 depth]
  · rw [feed_mark_error hlex (hread.trans (if_neg hroom)), readUpTo_of_lt (by omega)]

/-- An item or a field in an array or object that is open, and what stands behind it. -/
theorem feed_inside {cs more : List Char} {frame : Frame} {stack : List Frame} {first : Bool}
    {mid next : Reading} {m n : Nat}
    (hfirst : cs.foldlM readChar (.between, .value (frame :: stack) first) =
      readUpTo ((frame :: stack).length + m) mid)
    (hsecond : more.foldlM readChar (.between, mid) = readUpTo (stack.length + 1 + n) next) :
    (cs ++ more).foldlM readChar (.between, .value (frame :: stack) first) =
      readUpTo (stack.length + 1 + max m n) next := by
  rw [feed_both hfirst hsecond, List.length_cons, Nat.add_max_add_left]

mutual
/-- The text of a value puts the value in its place, as far as there is room. -/
theorem feed_prettyChars (level : Nat) (stack : List Frame) (first : Bool)
    (hstack : stack.length ≤ nestingLimit) : (j : Json) → j.Textual →
      (prettyChars level j).foldlM readChar (.between, .value stack first) =
        readUpTo (stack.length + j.nesting) (place j stack)
  | .string s, _ => by
    rw [prettyChars, scalarChars, feed_quoted, nesting, Nat.add_zero, readUpTo_of_le hstack]
    · rfl
    all_goals simp
  | .array items, h => by
    rw [prettyChars, nesting]
    exact feed_opening rfl rfl fun hroom => feed_prettyItems level stack hroom items h
  | .object fields, h => by
    rw [prettyChars, nesting]
    exact feed_opening rfl rfl fun hroom => feed_prettyFields level stack hroom fields h
  | .null, h => by cases h
  | .bool _, h => by cases h
  | .number _, h => by cases h
theorem feed_prettyItems (level : Nat) (stack : List Frame) (hroom : stack.length < nestingLimit) :
    (items : List Json) → TextualItems items →
      (prettyItems level items).foldlM readChar (.between, .value (.array [] :: stack) true) =
        readUpTo (stack.length + 1 + nestingItems items) (place (.array items) stack)
  | [], _ => by
    rw [prettyItems, nestingItems, feed_mark rfl rfl, readUpTo_of_le hroom]
    rfl
  | j :: rest, h => by
    obtain ⟨hj, hrest⟩ := h
    rw [prettyItems, nestingItems, feed_append (feed_newLine _ _)]
    exact feed_inside (feed_prettyChars (level + 1) (.array [] :: stack) true hroom j hj)
      (feed_prettyMoreItems level stack [j] hroom rest hrest)
theorem feed_prettyMoreItems (level : Nat) (stack : List Frame) (done : List Json)
    (hroom : stack.length < nestingLimit) : (items : List Json) → TextualItems items →
      (prettyMoreItems level items).foldlM readChar (.between, .next (.array done) stack) =
        readUpTo (stack.length + 1 + nestingItems items)
          (place (.array (done.reverse ++ items)) stack)
  | [], _ => by
    rw [prettyMoreItems, nestingItems, feed_append (feed_newLine _ _), feed_mark rfl rfl,
      readUpTo_of_le hroom, List.append_nil]
    rfl
  | j :: rest, h => by
    obtain ⟨hj, hrest⟩ := h
    have hmore := feed_prettyMoreItems level stack (j :: done) hroom rest hrest
    rw [List.reverse_cons, List.append_assoc, List.singleton_append] at hmore
    rw [prettyMoreItems, nestingItems, feed_mark rfl rfl, feed_append (feed_newLine _ _)]
    exact feed_inside (feed_prettyChars (level + 1) (.array done :: stack) false hroom j hj) hmore
theorem feed_prettyFields (level : Nat) (stack : List Frame) (hroom : stack.length < nestingLimit) :
    (fields : List (String × Json)) → TextualFields fields →
      (prettyFields level fields).foldlM readChar (.between, .key [] stack true) =
        readUpTo (stack.length + 1 + nestingFields fields) (place (.object fields) stack)
  | [], _ => by
    rw [prettyFields, nestingFields, feed_mark rfl rfl, readUpTo_of_le hroom]
    rfl
  | (key, j) :: rest, h => by
    obtain ⟨hj, hrest⟩ := h
    rw [prettyFields, nestingFields, feed_append (feed_newLine _ _), feed_key]
    exact feed_inside (feed_prettyChars (level + 1) (.object [] key :: stack) false hroom j hj)
      (feed_prettyMoreFields level stack [(key, j)] key hroom rest hrest)
theorem feed_prettyMoreFields (level : Nat) (stack : List Frame) (done : List (String × Json))
    (last : String) (hroom : stack.length < nestingLimit) :
    (fields : List (String × Json)) → TextualFields fields →
      (prettyMoreFields level fields).foldlM readChar (.between, .next (.object done last) stack) =
        readUpTo (stack.length + 1 + nestingFields fields)
          (place (.object (done.reverse ++ fields)) stack)
  | [], _ => by
    rw [prettyMoreFields, nestingFields, feed_append (feed_newLine _ _), feed_mark rfl rfl,
      readUpTo_of_le hroom, List.append_nil]
    rfl
  | (key, j) :: rest, h => by
    obtain ⟨hj, hrest⟩ := h
    have hmore := feed_prettyMoreFields level stack ((key, j) :: done) key hroom rest hrest
    rw [List.reverse_cons, List.append_assoc, List.singleton_append] at hmore
    rw [prettyMoreFields, nestingFields, feed_mark rfl rfl, feed_append (feed_newLine _ _),
      feed_key]
    exact feed_inside (feed_prettyChars (level + 1) (.object done key :: stack) false hroom j hj)
      hmore
end

/-- The indented text of a value of texts is read as this value, or it nests too deeply. -/
theorem read_pretty {j : Json} (h : j.Textual) :
    read j.pretty = if j.nesting ≤ nestingLimit then .ok j else .error .tooDeep := by
  have hfeed := feed_prettyChars 0 [] false (Nat.zero_le _) j h
  rw [List.length_nil, Nat.zero_add] at hfeed
  rw [read, pretty, String.toList_ofList, readChars, hfeed]
  unfold readUpTo
  split <;> rfl

end MemoryGraph.Json
